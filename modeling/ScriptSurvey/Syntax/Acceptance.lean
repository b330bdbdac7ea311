import ScriptSurvey.Files.PathName
import ScriptSurvey.Syntax.Grammar
import ScriptSurvey.Text.Quoted

/-!
# Which trees are accepted

A tree may hold nodes for text that fits no rule and for tokens that the text lacks. With recovery
a tree is accepted unless its root or one of the root's children is such an error; without
recovery no error at all is allowed. A refused tree is described by its first error.

* `firstError?` searches only below nodes that are marked to hold an error.
* `accept` decides, and `parse` applies it to the tree of a source text.
-/

namespace ScriptSurvey.Syntax

/-- How a source text is read. -/
structure Options where
  dialect : String := "module"
  markup : Bool := true
  annotations : Bool := true
  recovery : Bool := true
deriving DecidableEq, Repr

/-- The suffixes of the files in which an angle bracket never starts markup. -/
def plainSuffixes : List String :=
  [".ts", ".mts", ".cts"]

/-- The options for a file, by the suffix of its name in any case. -/
def Options.forFile (filename : String) : Options :=
  { markup := !plainSuffixes.contains (Text.lower (PathName.suffix (PathName.forward filename))) }

/-- Why a source text was refused. -/
structure ParseFailure where
  message : String
deriving DecidableEq, Repr

/-- The children of a node among which, or below which, an error is to be looked for: those that
are marked to hold one, and the errors. -/
def suspects (marked : Node → Bool) (n : Node) : List Node :=
  n.children.filter fun child => marked child || child.isError

theorem countAll_suspects_lt (marked : Node → Bool) (n : Node) :
    Node.countAll (suspects marked n) < n.count := by
  have h := Node.countAll_filter_le (fun child => marked child || child.isError) n.children
  obtain ⟨⟩ := n
  simp only [suspects, Node.count] at h ⊢
  omega

/-- The first error among the nodes on the stack and below them, top of the stack first. -/
def searchErrors (marked : Node → Bool) : List Node → Option Node
  | [] => none
  | n :: rest => if n.isError then some n else searchErrors marked (suspects marked n ++ rest)
termination_by stack => Node.countAll stack
decreasing_by
  have h := countAll_suspects_lt marked n
  rw [Node.countAll_append, Node.countAll]
  omega

/-- The first error of a tree, from the top and from left to right, in the parts of it that are
marked to hold one. -/
def firstErrorBy? (marked : Node → Bool) (n : Node) : Option Node :=
  searchErrors marked [n]

/-- The first error of a tree, from the top and from left to right. -/
def firstError? (n : Node) : Option Node :=
  firstErrorBy? Node.hasError n

/-- What is wrong at a node, and where: the line counted from one, the column in bytes from
zero. -/
def describe (n : Node) : ParseFailure :=
  let place := s!"({n.start.row + 1}:{n.start.column})"
  if n.missing then ⟨"Missing " ++ Text.quoted n.kind ++ " " ++ place⟩
  else ⟨"Unexpected token " ++ place⟩

/-- The node on whose account a tree is refused even with recovery. -/
def fatal? (root : Node) : Option Node :=
  if root.isError then some root else root.children.find? (·.kind == "ERROR")

/-- The tree itself if it is accepted, or the description of its first error. -/
def accept (recovery : Bool) (root : Node) : Except ParseFailure Node :=
  if !root.hasError && !root.isError then .ok root
  else if recovery then
    match fatal? root with
    | none => .ok root
    | some culprit => .error (describe ((firstError? culprit).getD culprit))
  else .error (describe ((firstError? root).getD root))

/-- The tree of a source text, if it is accepted. -/
def parse (options : Options) (source : String) : Except ParseFailure Node :=
  accept options.recovery (parseTree options.markup source)

end ScriptSurvey.Syntax
