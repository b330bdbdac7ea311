import ScriptSurvey.Survey.Analysis

/-!
# Sources and their records

A source is a script under a name. Whatever happens to its analysis, it has one record: that of the
analysis, or one that says why there is none.
-/

namespace ScriptSurvey

/-- A script: its name and its text. -/
structure Source where
  name : String
  text : String
deriving DecidableEq

/-- What makes a record of a source. -/
abbrev Analyzer := Source → Except Fault Record

namespace Source

/-- The analysis of a source. -/
def analyze : Analyzer := fun s => ScriptSurvey.analyze s.name s.text

/-- The record of a source whose analysis gave none. -/
def failed (s : Source) (message : String) : Record :=
  Record.failed s.name (Text.lineCount s.text) message

/-- The record of a source. An analysis that broke off leaves its message. -/
def record (analyzer : Analyzer) (s : Source) : Record :=
  match analyzer s with
  | .ok r => r
  | .error fault => s.failed fault.message

end Source

end ScriptSurvey
