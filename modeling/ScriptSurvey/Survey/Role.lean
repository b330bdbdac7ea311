/-!
# Roles of declared functions

A function's role follows from the form of its name: a capital first letter makes a component, and
`handle` or `on` before a capital makes a handler; all others are helpers.
-/

namespace ScriptSurvey

/-- What a declared function is for. -/
inductive Role where
  | component
  | handler
  | helper
deriving DecidableEq, Repr

/-- The word for a role in a record. -/
def Role.label : Role → String
  | .component => "component"
  | .handler => "handler"
  | .helper => "helper"

namespace Name

/-- A capital letter of ASCII. -/
def isCapital (c : Char) : Bool :=
  'A' ≤ c && c ≤ 'Z'

/-- Whether a text starts with `word` and a capital after it. -/
def capitalAfter (word name : String) : Bool :=
  word.toList.isPrefixOf name.toList && (name.toList[word.length]?.any isCapital)

/-- Names of components start with a capital. -/
def isComponent (name : String) : Bool :=
  name.toList.head?.any isCapital

/-- Names of handlers start with `handle` or `on` and a capital. -/
def isHandler (name : String) : Bool :=
  capitalAfter "handle" name || capitalAfter "on" name

/-- Names of setters start with `set`, a capital and one more character on the same line. -/
def isSetter (name : String) : Bool :=
  capitalAfter "set" name && (name.toList[4]?.any (· != '\n'))

/-- Names of hooks start with `use`. -/
def isHook (name : String) : Bool :=
  "use".toList.isPrefixOf name.toList

end Name

/-- The role of a function by its name; a name of a component is never one of a handler. -/
def Role.ofName (name : String) : Role :=
  if Name.isComponent name then .component
  else if Name.isHandler name then .handler
  else .helper

end ScriptSurvey
