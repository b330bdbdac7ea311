import ScriptSurvey.Files.World
import ScriptSurvey.Project.Decode
import ScriptSurvey.Project.Encode
import ScriptSurvey.Text.Utf8

/-!
# Kept reports

The report on a folder is kept in a file inside it, the report on an archive or a single script in a
file beside it. A file that holds no report counts as none.
-/

namespace ScriptSurvey.Cache

/-- The name of the file in which the report on a folder is kept. -/
def fileName : String := "codeprobe_report.json"

/-- Where the report on a target is kept. -/
def path (w : World) (target : Path) : Path :=
  if w.isFolder target then target.child fileName
  else target.parent.child (target.name ++ "." ++ fileName)

/-- Why a report was not kept: something was wrong with the file, or there is no text of it. -/
inductive SaveFault where
  | file (fault : FileFault)
  | unspelled
deriving DecidableEq, Repr

/-- What an attempt to keep a report leaves: the world after it, and what went wrong if anything
did. -/
structure Saving where
  world : World
  fault : Option SaveFault := none

/-- The text of the report on a target is kept. The file is opened first, which empties it; only
then is the report spelled out and its text written, and a fault in either leaves an empty file. -/
def keep (w : World) (target : Path) (text? : Option String) : Saving :=
  match w.openPlace (path w target) with
  | .error fault => ⟨w, some (.file fault)⟩
  | .ok place =>
    let opened := w.putFile place []
    match text? with
    | none => ⟨opened, some .unspelled⟩
    | some text =>
      match opened.fill place (Text.encode text) with
      | .error fault => ⟨opened, some (.file fault)⟩
      | .ok after => ⟨after, none⟩

/-- A report that is all text is kept. -/
def save (w : World) (target : Path) (report : Report) : Saving :=
  keep w target (some report.text)

/-- The line that tells where a report was kept. -/
def savedLine (w : World) (target : Path) : String :=
  "✅ Saved report to " ++ (path w target).text

/-- The report kept on a target. Only bytes that are no text at all are a fault. -/
def load (w : World) (target : Path) : Except Text.Utf8Fault (Option Report) :=
  match w.read (path w target) with
  | .error _ => .ok none
  | .ok bytes => (Text.decode bytes).map Report.parse?

end ScriptSurvey.Cache
