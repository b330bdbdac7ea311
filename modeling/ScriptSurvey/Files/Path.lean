import ScriptSurvey.Files.PathName

/-!
# Paths and locations

A path is what was written: a root and the components after it, two dots among them. A location is
where that leads: the components from the top, with the two dots worked off.
-/

namespace ScriptSurvey

/-- A path: what it starts from, empty for a relative one, and its components. -/
structure Path where
  root : String := ""
  parts : List String := []
deriving DecidableEq

/-- A place in the file system, as the names from the top down. -/
abbrev Location := List String

namespace Path

/-- The path that a text spells. Two slashes at the start, and no more, are a root of their own. -/
def ofText (text : String) : Path :=
  let root :=
    match text.toList with
    | '/' :: '/' :: '/' :: _ => "/"
    | '/' :: '/' :: _ => "//"
    | '/' :: _ => "/"
    | _ => ""
  { root, parts := PathName.components text }

/-- The text of a path; a dot if there is nothing else to write. -/
def text (p : Path) : String :=
  if p.root = "" && p.parts.isEmpty then "." else p.root ++ "/".intercalate p.parts

/-- The path of a location. -/
def ofLocation (l : Location) : Path :=
  { root := "/", parts := l }

/-- The path with one more component. -/
def child (p : Path) (name : String) : Path :=
  { p with parts := p.parts ++ [name] }

/-- The path without its last component. -/
def parent (p : Path) : Path :=
  { p with parts := p.parts.dropLast }

/-- The last component. -/
def name (p : Path) : String :=
  p.parts.getLast?.getD ""

/-- The suffix of the last component. -/
def suffix (p : Path) : String :=
  PathName.suffixOf p.name

/-- The components of a path from the top, given the folder that relative paths start from. -/
def fromTop (p : Path) (folder : Location) : List String :=
  if p.root = "" then folder ++ p.parts else p.parts

/-- One step along a path: up for two dots, else down. -/
def stepTo (here : Location) (part : String) : Location :=
  if part = ".." then here.dropLast else here ++ [part]

/-- Where a path leads, given the folder that relative paths start from. -/
def resolve (p : Path) (folder : Location) : Location :=
  (p.fromTop folder).foldl stepTo []

end Path

/-- What is left of a location below a folder, if it is the folder or below it. -/
def Location.below? (l folder : Location) : Option (List String) :=
  if folder.isPrefixOf l then some (l.drop folder.length) else none

/-- The names of a location below a folder, joined by slashes; a dot for the folder itself. -/
def Location.relativeText (rest : List String) : String :=
  if rest.isEmpty then "." else "/".intercalate rest

end ScriptSurvey
