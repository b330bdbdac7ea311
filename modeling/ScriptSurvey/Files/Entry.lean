import ScriptSurvey.Files.Path
import ScriptSurvey.Text.Quoted

/-!
# Files and folders

The file system is a tree of folders with files at its ends. Paths are looked up step by step: a
step is possible only from a folder, also a step up.
-/

namespace ScriptSurvey

/-- A file with its bytes, or a folder with what it holds. -/
inductive Entry where
  | file (bytes : List UInt8)
  | folder (entries : List (String × Entry))

/-- Why a file could not be used. -/
inductive FileProblem where
  | missing
  | notFolder
  | isFolder
  | noSpace
deriving DecidableEq, Repr

/-- A problem with a file, and the path under which it was wanted. -/
structure FileFault where
  problem : FileProblem
  path : String
deriving DecidableEq, Repr

/-- The wording of a problem with a file. -/
def FileFault.message (fault : FileFault) : String :=
  match fault.problem with
  | .missing => "[Errno 2] No such file or directory: " ++ Text.quoted fault.path
  | .notFolder => "[Errno 20] Not a directory: " ++ Text.quoted fault.path
  | .isFolder => "[Errno 21] Is a directory: " ++ Text.quoted fault.path
  | .noSpace => "[Errno 28] No space left on device"

namespace Entry

instance : Inhabited Entry := ⟨.folder []⟩

/-- Whether an entry is a folder. -/
def isFolder : Entry → Bool
  | .folder _ => true
  | .file _ => false

/-- What a folder holds under a name. -/
def child? (name : String) : Entry → Option Entry
  | .folder entries => entries.lookup name
  | .file _ => none

/-- The entry at a location below this one. -/
def at? : Entry → Location → Option Entry
  | e, [] => some e
  | e, name :: rest => (e.child? name).bind (·.at? rest)

/-- The location at which a path ends, from `here` on. -/
def follow (top : Entry) : Location → List String → Except FileProblem Location
  | here, [] => .ok here
  | here, part :: rest =>
    match top.at? here with
    | some (.folder entries) =>
      if part = ".." then follow top here.dropLast rest
      else if (entries.lookup part).isSome then follow top (here ++ [part]) rest
      else .error .missing
    | some (.file _) => .error .notFolder
    | none => .error .missing

/-- A list of entries with what `name` stands for changed; a new entry comes last. -/
def alterEntry (name : String) (f : Option Entry → Option Entry) :
    List (String × Entry) → List (String × Entry)
  | [] => ((f none).map (name, ·)).toList
  | (n, e) :: rest =>
    if n = name then ((f (some e)).map (name, ·)).toList ++ rest
    else (n, e) :: alterEntry name f rest

/-- The entry with `new` at a location. Folders on the way are made as needed; a file on the way
is left as it is. -/
def put (new : Entry) : Location → Entry → Entry
  | [], _ => new
  | name :: rest, .folder entries =>
    .folder (alterEntry name (fun old => some (put new rest (old.getD (.folder [])))) entries)
  | _ :: _, .file bytes => .file bytes

/-- The entry without what stands at a location. -/
def remove : Location → Entry → Entry
  | [], e => e
  | [name], .folder entries => .folder (alterEntry name (fun _ => none) entries)
  | name :: rest, .folder entries =>
    .folder (alterEntry name (fun old => old.map (remove rest)) entries)
  | _ :: _, .file bytes => .file bytes

end Entry

end ScriptSurvey
