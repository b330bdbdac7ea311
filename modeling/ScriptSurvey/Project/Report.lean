import ScriptSurvey.Project.Summary

/-!
# Reports

A report is the records of the files of a project and their summary, under the name of the place
they come from.
-/

namespace ScriptSurvey

/-- The records of a project and their summary. -/
structure Report where
  root : String
  files : List Record := []
  summary : Summary := {}
deriving DecidableEq

/-- The report of the given records. -/
def Report.ofRecords (root : String) (files : List Record) : Except SummaryFault Report := do
  return { root, files, summary := ← Summary.ofRecords files }

end ScriptSurvey
