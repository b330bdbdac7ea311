import ScriptSurvey.Ledger
import ScriptSurvey.Numeric.Double

/-!
# JSON values

The values of the data format in which reports are kept and requests come. Integers are kept apart
from doubles, and the members of an object keep their order.
-/

namespace ScriptSurvey

/-- A JSON value. -/
inductive Json where
  | null
  | bool (value : Bool)
  | int (value : Int)
  | real (value : Double)
  | text (value : String)
  | list (items : List Json)
  | object (members : List (String × Json))

namespace Json

instance : Inhabited Json := ⟨.null⟩

/-- The member of an object; of anything else there is none. -/
def member? (key : String) : Json → Option Json
  | .object members => Ledger.get? members key
  | _ => none

/-- A list of texts. -/
def texts (values : List String) : Json :=
  .list (values.map .text)

/-- The value, or null for none. -/
def orNull {α : Type} (f : α → Json) : Option α → Json
  | none => .null
  | some value => f value

end Json

end ScriptSurvey
