import ScriptSurvey.Json.Value

/-!
# Doubles that are not finite

The format has no text for infinities and for what is not a number. An answer either has none of
them or has null in their place.
-/

namespace ScriptSurvey

/-- Whether a double is finite. -/
def Double.isFinite : Double → Bool
  | .finite .. => true
  | _ => false

namespace Json

mutual

/-- The value with null for every double that is not finite. -/
def finiteOrNull : Json → Json
  | .real x => if x.isFinite then .real x else .null
  | .list items => .list (itemsFiniteOrNull items)
  | .object members => .object (membersFiniteOrNull members)
  | value => value

@[inherit_doc finiteOrNull]
def itemsFiniteOrNull : List Json → List Json
  | [] => []
  | item :: items => finiteOrNull item :: itemsFiniteOrNull items

@[inherit_doc finiteOrNull]
def membersFiniteOrNull : List (String × Json) → List (String × Json)
  | [] => []
  | (name, value) :: members => (name, finiteOrNull value) :: membersFiniteOrNull members

end

mutual

/-- Whether every double of a value is finite. -/
def isFinite : Json → Bool
  | .real x => x.isFinite
  | .list items => itemsFinite items
  | .object members => membersFinite members
  | _ => true

@[inherit_doc isFinite]
def itemsFinite : List Json → Bool
  | [] => true
  | item :: items => isFinite item && itemsFinite items

@[inherit_doc isFinite]
def membersFinite : List (String × Json) → Bool
  | [] => true
  | (_, value) :: members => isFinite value && membersFinite members

end

end Json

end ScriptSurvey
