import ScriptSurvey.Archive.Zip
import ScriptSurvey.Files.Listing
import ScriptSurvey.Survey.Source

/-!
# Sources

The named source texts that a path leads to: the scripts of a folder, those of an archive, or the one
script that the path names.
-/

namespace ScriptSurvey

/-- Why the sources of a path could not be read. -/
inductive SourceFault where
  /-- An archive could not be opened. -/
  | unopened (reason : String)
  | archive (fault : Archive.Fault)
  | file (fault : FileFault)
  | pattern (fault : Ignore.PatternFault)

/-- The wording of a fault. -/
def SourceFault.message : SourceFault → String
  | .unopened reason => "Could not open zip archive: " ++ reason
  | .archive fault => fault.message
  | .file fault => fault.message
  | .pattern fault => fault.message

/-- The text of the bytes of a script: repaired UTF-8 without a byte order mark. -/
def decodeSource (bytes : List UInt8) : String :=
  Text.withoutMark (Text.repair bytes)

namespace Source

/-- The source of a file found in a folder. -/
def ofFound (found : Found) : Source :=
  ⟨"/".intercalate found.place, decodeSource found.bytes⟩

/-- The fault of an archive as a fault of its sources. -/
def archiveFault : Archive.Fault → SourceFault
  | .unopenable fault => .unopened fault.message
  | fault => .archive fault

/-- The sources of some members of an archive, up to the first that cannot be read. -/
def ofMembers (reader : Archive.Reader) (bytes : List UInt8) :
    List Archive.Member → List Source × Option SourceFault
  | [] => ([], none)
  | m :: rest =>
    if m.isDirectory || !isAnalyzable m.name then ofMembers reader bytes rest
    else
      match Archive.read reader bytes m with
      | .error fault => ([], some (archiveFault fault))
      | .ok content =>
        let (sources, fault) := ofMembers reader bytes rest
        (⟨m.name, decodeSource content⟩ :: sources, fault)

/-- The sources of an archive in its own order, up to the first that cannot be read. -/
def ofArchive (reader : Archive.Reader) (bytes : List UInt8) :
    List Source × Option SourceFault :=
  match Archive.contents reader bytes with
  | .error fault => ([], some (archiveFault fault))
  | .ok members => ofMembers reader bytes members

/-- All sources of an archive, or why there is one that cannot be read. -/
def allOfArchive (reader : Archive.Reader) (bytes : List UInt8) :
    Except SourceFault (List Source) :=
  match ofArchive reader bytes with
  | (sources, none) => .ok sources
  | (_, some fault) => .error fault

/-- The sources that a path leads to. -/
def atPath (w : World) (p : Path) : Except SourceFault (List Source) :=
  if w.isFolder p then
    (listScripts w p).map (·.map ofFound) |>.mapError .pattern
  else if Text.lower p.suffix = ".zip" then
    match w.read p with
    | .ok bytes => allOfArchive w.reader bytes
    | .error fault => .error (.unopened fault.message)
  else if isAnalyzable p.name then
    match w.read p with
    | .ok bytes => .ok [⟨p.name, decodeSource bytes⟩]
    | .error fault => .error (.file fault)
  else .ok []

end Source

end ScriptSurvey
