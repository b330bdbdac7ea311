import ScriptSurvey.Files.Sources
import ScriptSurvey.Project.Pool
import ScriptSurvey.Project.Report

/-!
# Scans

A scan reads the sources that a path leads to and makes the report of their records.
-/

namespace ScriptSurvey

/-- Why a scan gave no report. -/
inductive ScanFault where
  | source (fault : SourceFault)
  | summary (fault : SummaryFault)

/-- The wording of a scan's fault. -/
def ScanFault.message : ScanFault → String
  | .source fault => fault.message
  | .summary fault => fault.message

/-- The report on the sources that a path leads to. -/
def scanPath (w : World) (workers : Int) (p : Path) : Told (Except ScanFault Report) :=
  let opening := "🔍 Scanning: " ++ p.text
  match Source.atPath w p with
  | .error fault => ⟨.error (.source fault), [opening]⟩
  | .ok sources =>
    let run := analyzeSources Source.analyze workers (.smooth sources.length) sources
    { value := (Report.ofRecords p.text run.records).mapError .summary
      lines := opening :: s!"📂 Analyzing {sources.length} source files..." :: run.lines }

end ScriptSurvey
