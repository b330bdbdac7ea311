/-!
# Syntax trees

A syntax tree is made of nodes. A node has a kind, possibly the name of the field it fills in its
parent, the place where it starts, the text it covers, and its children in source order. Tokens
such as punctuation are *anonymous* nodes; the nodes an analysis looks at are the *named* ones.

* `Node.namedChildren` and `Node.childByField` are the two ways down.
* `Node.hasError` says that a node, or something below it, could not be read.
* `Node.preorder` lists a tree from the top, left to right.
-/

namespace ScriptSurvey

/-- A place in a text: row and column, both counted from zero, the column in bytes. -/
structure Point where
  row : Nat := 0
  column : Nat := 0
deriving DecidableEq, Repr

/-- A node of a syntax tree. -/
structure Node where
  /-- The kind of construct, such as `call_expression`. -/
  kind : String
  /-- The field of the parent that the node fills. -/
  field : Option String := none
  /-- Whether the node is named; punctuation is not. -/
  named : Bool := true
  /-- Whether the node stands for a token that the text lacks. -/
  missing : Bool := false
  /-- Whether the node is known to hold an error that no node below it shows. -/
  flagged : Bool := false
  /-- Where the node starts. -/
  start : Point := {}
  /-- The text that the node covers. -/
  text : String := ""
  /-- The children, in source order. -/
  children : List Node := []

namespace Node

/-- The children that are named. -/
def namedChildren (n : Node) : List Node :=
  n.children.filter (·.named)

/-- The first child, named or not, that fills the field `f`. -/
def childByField (n : Node) (f : String) : Option Node :=
  n.children.find? (·.field == some f)

/-- An error node stands for text that fits no rule, or for a token that the text lacks. -/
def isError (n : Node) : Bool :=
  n.kind == "ERROR" || n.missing

/-- A comment is never part of a construct. -/
def isComment (n : Node) : Bool :=
  n.kind == "comment"

/-- The named children that are no comments. -/
def parts (n : Node) : List Node :=
  n.namedChildren.filter (!·.isComment)

mutual

/-- Whether the node or something below it could not be read. -/
def hasError : Node → Bool
  | ⟨kind, _, _, missing, flagged, _, _, children⟩ =>
    flagged || kind == "ERROR" || missing || anyError children

/-- Whether one of the nodes has an error. -/
def anyError : List Node → Bool
  | [] => false
  | n :: ns => hasError n || anyError ns

end

mutual

/-- The node and all nodes below it, each before its children, from left to right. -/
def preorder : Node → List Node
  | ⟨kind, field, named, missing, flagged, start, text, children⟩ =>
    ⟨kind, field, named, missing, flagged, start, text, children⟩ :: preorderAll children

/-- The trees of a list, one after the other, each in pre-order. -/
def preorderAll : List Node → List Node
  | [] => []
  | n :: ns => preorder n ++ preorderAll ns

end

mutual

/-- The number of nodes of a tree. -/
def count : Node → Nat
  | ⟨_, _, _, _, _, _, _, children⟩ => 1 + countAll children

/-- The number of nodes of a list of trees. -/
def countAll : List Node → Nat
  | [] => 0
  | n :: ns => count n + countAll ns

end

theorem count_pos (n : Node) : 0 < n.count := by
  obtain ⟨⟩ := n
  simp only [count]
  omega

theorem countAll_append (xs ys : List Node) : countAll (xs ++ ys) = countAll xs + countAll ys := by
  induction xs with
  | nil => simp [countAll]
  | cons x xs ih => simp only [List.cons_append, countAll, ih]; omega

theorem countAll_filter_le (p : Node → Bool) (ns : List Node) :
    countAll (ns.filter p) ≤ countAll ns := by
  induction ns with
  | nil => simp [countAll]
  | cons n ns ih =>
    rw [List.filter_cons]
    split <;> simp only [countAll] <;> omega

theorem count_le_countAll {n : Node} {ns : List Node} (h : n ∈ ns) : n.count ≤ countAll ns := by
  induction ns with
  | nil => cases h
  | cons m ns ih =>
    rcases List.mem_cons.mp h with rfl | h
    · simp only [countAll]; omega
    · have := ih h
      simp only [countAll]; omega

/-- The named children of a node are smaller than the node. -/
theorem countAll_namedChildren_lt (n : Node) : countAll n.namedChildren < n.count := by
  have h := countAll_filter_le (·.named) n.children
  obtain ⟨⟩ := n
  simp only [namedChildren, count] at h ⊢
  omega

/-- Induction over a tree along all children. -/
theorem tree_induction {P : Node → Prop}
    (step : ∀ n : Node, (∀ child ∈ n.children, P child) → P n) (n : Node) : P n := by
  induction h : n.count using Nat.strongRecOn generalizing n with
  | ind size ih =>
    refine step n fun child hc => ih child.count ?_ child rfl
    have hle := count_le_countAll hc
    obtain ⟨⟩ := n
    simp only [count] at h hle ⊢
    omega

/-- Induction over a tree along the named children. -/
theorem named_induction {P : Node → Prop}
    (step : ∀ n : Node, (∀ child ∈ n.namedChildren, P child) → P n) (n : Node) : P n := by
  induction n using tree_induction with
  | step n ih => exact step n fun child hc => ih child (List.mem_filter.mp hc).1

end Node

end ScriptSurvey
