import ScriptSurvey.Numeric.Double

/-!
# Records

A record holds what was found in one source file. A file that was read has no error and every
finding; a file that was not has an error and no finding. Records that come from outside may be
anything between, so each finding is optional.
-/

namespace ScriptSurvey

/-- An import of names from a module. -/
structure Import where
  source : String
  names : List String := []
deriving DecidableEq

/-- Something in a file that deserves attention. -/
structure Issue where
  kind : String
  message : String
  severity : String
deriving DecidableEq

/-- How deep and how branched a file is. -/
structure Complexity where
  maxDepth : Int := 0
  branches : Int := 0
  loops : Int := 0
  cyclomatic : Int := 1
deriving DecidableEq

/-- The measures of a file that projects are compared by. -/
structure Metrics where
  cyclomatic : Int := 1
  coupling : Int := 0
  weightedMethods : Int := 0
  maintainability : Int := 100
deriving DecidableEq

/-- A piece of state with its setter, its first value and the declaration that owns it. -/
structure StateUnit where
  name : String
  setter : String
  initial : String
  owner : String
deriving DecidableEq

/-- A call of a setter. -/
structure Transition where
  state : String
  setter : String
  owner : String
deriving DecidableEq

/-- A use of an effect hook, and the names it depends on. -/
structure Effect where
  owner : String
  dependencies : List String
  kind : String
deriving DecidableEq

/-- The state of a file, the places where it changes and the effects. -/
structure StateModel where
  states : List StateUnit := []
  transitions : List Transition := []
  effects : List Effect := []
deriving DecidableEq

/-- A declared function with the word for its role. -/
structure Declared where
  name : String
  kind : String
deriving DecidableEq

/-- How often one function refers to another. -/
structure Edge where
  source : String
  target : String
  calls : Int
  sourceKind : String
  targetKind : String
deriving DecidableEq

/-- The declared functions, the references between them, and the components a page starts from. -/
structure Graph where
  functions : List Declared := []
  edges : List Edge := []
  roots : List String := []
deriving DecidableEq

/-- What was found in one source file. -/
structure Record where
  filename : String
  lineCount : Int
  time : Double := Double.zero false
  error : Option String := none
  quality : Int := 0
  functions : Option (List String) := none
  bindings : Option (List String) := none
  handlers : Option (List String) := none
  components : Option (List String) := none
  hooks : Option (List String) := none
  imports : Option (List Import) := none
  exports : Option (List String) := none
  complexity : Option Complexity := none
  issues : Option (List Issue) := none
  metrics : Option Metrics := none
  stateModel : Option StateModel := none
  graph : Option Graph := none
deriving DecidableEq

/-- Whether the file was read. -/
def Record.ok (r : Record) : Bool :=
  r.error.isNone

/-- The record of a file that was not read. -/
def Record.failed (filename : String) (lineCount : Int) (message : String)
    (time : Double := Double.zero false) : Record :=
  { filename, lineCount, time, error := some message }

end ScriptSurvey
