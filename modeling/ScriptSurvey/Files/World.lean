import ScriptSurvey.Archive.Reader
import ScriptSurvey.Files.Entry

/-!
# The world around the program

What the program sees of its surroundings: the file system, the folder that relative paths start
from, and the path that is served when a request names none.

The name of a file can be bytes that are no text. Such bytes are given as characters of their own,
the stray ones, which stand for nothing else: they are in no text of a file, and in no path that is
asked for or served. All the program does with them is to find that a report that names such a file
cannot be spelled out.
-/

namespace ScriptSurvey

/-- The surroundings of the program. -/
structure World where
  top : Entry
  folder : Location := []
  served : Option String := none
  /-- What archives are read with. -/
  reader : Archive.Reader := .file
  /-- Where files can be opened, but nothing can be written. -/
  full : List Location := []
  /-- The characters for bytes in names that are no text. -/
  stray : List Char := []

namespace World

/-- Where a path leads. -/
def resolve (w : World) (p : Path) : Location :=
  p.resolve w.folder

/-- Where a path ends, if every step of it is possible. -/
def locate (w : World) (p : Path) : Except FileProblem Location :=
  w.top.follow [] (p.fromTop w.folder)

/-- What stands at a path. -/
def entry? (w : World) (p : Path) : Option Entry :=
  match w.locate p with
  | .ok l => w.top.at? l
  | .error _ => none

/-- Whether anything stands at a path. -/
def pathExists (w : World) (p : Path) : Bool :=
  (w.entry? p).isSome

/-- Whether a folder stands at a path. -/
def isFolder (w : World) (p : Path) : Bool :=
  (w.entry? p).any (·.isFolder)

/-- The bytes of the file at a path. -/
def read (w : World) (p : Path) : Except FileFault (List UInt8) :=
  match w.locate p with
  | .error problem => .error ⟨problem, p.text⟩
  | .ok l =>
    match w.top.at? l with
    | some (.file bytes) => .ok bytes
    | some (.folder _) => .error ⟨.isFolder, p.text⟩
    | none => .error ⟨.missing, p.text⟩

/-- The world with the bytes of the file at a place replaced. -/
def putFile (w : World) (place : Location) (bytes : List UInt8) : World :=
  { w with top := Entry.put (.file bytes) place w.top }

/-- The place of the file at a path that is opened to be written. The folder that the file is in
must be there already. -/
def openPlace (w : World) (p : Path) : Except FileFault Location :=
  if w.isFolder p then .error ⟨.isFolder, p.text⟩
  else
    match w.locate p.parent with
    | .error problem => .error ⟨problem, p.text⟩
    | .ok l =>
      match w.top.at? l with
      | some (.folder _) => .ok (l ++ [p.name])
      | some (.file _) => .error ⟨.notFolder, p.text⟩
      | none => .error ⟨.missing, p.text⟩

/-- The world with bytes in the file that was opened at a place. -/
def fill (w : World) (place : Location) (bytes : List UInt8) : Except FileFault World :=
  if place ∈ w.full then .error ⟨.noSpace, ""⟩ else .ok (w.putFile place bytes)

/-- The world with the bytes of the file at a path replaced. -/
def write (w : World) (p : Path) (bytes : List UInt8) : Except FileFault World := do
  let place ← w.openPlace p
  (w.putFile place []).fill place bytes

end World

end ScriptSurvey
