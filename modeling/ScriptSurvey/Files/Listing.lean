import ScriptSurvey.Files.Ignore.Rules

/-!
# The scripts in a folder

The listing of a folder gives its scripts in the order of their names and then, in the order of the
folders' names, the scripts in its folders. It does not depend on the order in which the file system
keeps its entries.
-/

namespace ScriptSurvey

/-- A file found below a folder: its names from there, and its bytes. -/
structure Found where
  place : List String
  bytes : List UInt8

/-- Named things in the order of their names. -/
def byName {α : Type} (xs : List (String × α)) : List (String × α) :=
  xs.mergeSort fun a b => a.1 ≤ b.1

/-- What an entry contributes to the listing of its folder. -/
inductive Listed where
  | file (found : Found)
  | folder (found : List Found)

/-- The contributions of the entries of a folder put together: files first. -/
def arrange (listed : List (String × Listed)) : List Found :=
  let files := listed.filterMap fun
    | (name, .file found) => some (name, found)
    | _ => none
  let folders := listed.filterMap fun
    | (name, .folder found) => some (name, found)
    | _ => none
  (byName files).map (·.2) ++ (byName folders).flatMap (·.2)

/-- Which files and folders a listing keeps, given their places. -/
structure Keeping where
  file : List String → Bool
  folder : List String → Bool

mutual

/-- The files of a folder that lies at `here`. -/
def filesIn (keep : Keeping) (here : List String) : Entry → List Found
  | .file _ => []
  | .folder entries => arrange (listedIn keep here entries)

/-- The contributions of the entries of a folder. -/
def listedIn (keep : Keeping) (here : List String) : List (String × Entry) → List (String × Listed)
  | [] => []
  | (name, .file bytes) :: rest =>
    let place := here ++ [name]
    if keep.file place then (name, .file ⟨place, bytes⟩) :: listedIn keep here rest
    else listedIn keep here rest
  | (name, .folder entries) :: rest =>
    let place := here ++ [name]
    if keep.folder place then
      (name, .folder (filesIn keep place (.folder entries))) :: listedIn keep here rest
    else listedIn keep here rest

end

/-- What the listing of the folder at `base` keeps: scripts and folders that are not ignored. -/
def keeping (rules : Ignore.Rules) (base : Location) : Keeping where
  file place := isAnalyzable ("/".intercalate place) && !rules.ignore (base ++ place) false
  folder place :=
    !skippedFolders.contains (place.getLast?.getD "") && !rules.ignore (base ++ place) true

/-- The scripts in the folder at a path; none if there is no folder. -/
def listScripts (w : World) (p : Path) : Except Ignore.PatternFault (List Found) := do
  let base := w.resolve p
  let rules ← Ignore.rulesAt w.top base
  return ((w.entry? p).map (filesIn (keeping rules base) [])).getD []

end ScriptSurvey
