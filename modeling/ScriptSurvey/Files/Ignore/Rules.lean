import ScriptSurvey.Files.Analyzable
import ScriptSurvey.Files.Ignore.Line
import ScriptSurvey.Files.Ignore.Pattern
import ScriptSurvey.Files.World
import ScriptSurvey.Text.Utf8

/-!
# The ignore rules of a repository

The rules that hold in a folder come from the ignore files of the whole repository around it, those
of a folder before those of the folders in it.
-/

namespace ScriptSurvey.Ignore

/-- A location and those above it, from the bottom up. -/
def upward (l : Location) : List Location :=
  (List.range (l.length + 1)).map fun k => l.take (l.length - k)

/-- The top folder of the repository around a location: the nearest one that holds `.git`, or the
location itself. -/
def repositoryRoot (top : Entry) (l : Location) : Location :=
  ((upward l).find? fun folder => (top.at? (folder ++ [".git"])).isSome).getD l

/-- The name of ignore files. -/
def fileName : String := ".gitignore"

/-- The patterns of the ignore file among the entries of the folder `base`. -/
def filePatterns (base : String) (entries : List (String × Entry)) : List String :=
  match entries.lookup fileName with
  | some (.file bytes) =>
    (Text.lines (Text.repair bytes).toList).filterMap fun line => rebase (String.ofList line) base
  | _ => []

mutual

/-- The patterns of all ignore files in a folder, which lies at `here` below the top folder. -/
def patternsIn (here : List String) : Entry → List String
  | .file _ => []
  | .folder entries =>
    filePatterns ("/".intercalate here) entries ++ patternsBelow here entries

/-- The patterns of the ignore files in the folders among some entries. -/
def patternsBelow (here : List String) : List (String × Entry) → List String
  | [] => []
  | (name, entry) :: rest =>
    (if skippedFolders.contains name then [] else patternsIn (here ++ [name]) entry) ++
      patternsBelow here rest

end

/-- The rules of a repository: its top folder, and its patterns if it has any. -/
structure Rules where
  root : Location
  patterns : Option (List Pattern)

/-- The rules that hold at a location. -/
def rulesAt (top : Entry) (l : Location) : Except PatternFault Rules := do
  let root := repositoryRoot top l
  let texts := ((top.at? root).map (patternsIn [])).getD []
  if texts.isEmpty then return { root, patterns := none }
  return { root, patterns := some (← Pattern.parseAll texts) }

/-- Whether a location is ignored; folders are tested with a slash after their names. Nothing
outside the repository is. -/
def Rules.ignore (rules : Rules) (l : Location) (isFolder : Bool) : Bool :=
  match rules.patterns, l.below? rules.root with
  | some patterns, some rest =>
    ignores patterns (Location.relativeText rest ++ if isFolder then "/" else "")
  | _, _ => false

end ScriptSurvey.Ignore
