import ScriptSurvey.Proofs.Analysis

/-!
# Which trees are accepted

A node says by itself whether it is an error, and by `Node.hasError` whether there is one in its
tree. The second is a mark that the acceptance of a tree relies on; in a tree of which it is true
(`Node.MarksErrors`) the acceptance is a matter of the errors alone:

* without recovery a tree is accepted if it holds no error at all (`accept_strict_iff`);
* with recovery it is refused if its root is an error or one of the root's children is unreadable
  text (`accept_recovering_iff`), wherever else there are errors.

The trees of texts are a parameter here (`TreeReader.ofTrees`).
-/

namespace ScriptSurvey

/-! ## Marks of errors -/

namespace Node

theorem preorderAll_eq_flatMap (ns : List Node) : preorderAll ns = ns.flatMap preorder := by
  induction ns with
  | nil => rfl
  | cons n ns ih => rw [preorderAll, ih, List.flatMap_cons]

theorem mem_preorder_iff {m n : Node} :
    m ∈ n.preorder ↔ m = n ∨ ∃ child ∈ n.children, m ∈ child.preorder := by
  obtain ⟨⟩ := n
  rw [preorder, preorderAll_eq_flatMap, List.mem_cons, List.mem_flatMap]

theorem self_mem_preorder (n : Node) : n ∈ n.preorder :=
  mem_preorder_iff.mpr (.inl rfl)

theorem child_mem_preorder {child n : Node} (h : child ∈ n.children) : child ∈ n.preorder :=
  mem_preorder_iff.mpr (.inr ⟨child, h, child.self_mem_preorder⟩)

theorem preorder_trans {l m n : Node} (hl : l ∈ m.preorder) (hm : m ∈ n.preorder) :
    l ∈ n.preorder := by
  induction n using tree_induction with
  | step n ih =>
    rcases mem_preorder_iff.mp hm with rfl | ⟨child, hc, hm⟩
    · exact hl
    · exact mem_preorder_iff.mpr (.inr ⟨child, hc, ih child hc hm⟩)

theorem anyError_eq_any (ns : List Node) : anyError ns = ns.any hasError := by
  induction ns with
  | nil => rfl
  | cons n ns ih => rw [anyError, ih, List.any_cons]

theorem hasError_eq (n : Node) :
    n.hasError = (n.flagged || n.isError || n.children.any hasError) := by
  obtain ⟨⟩ := n
  rw [hasError, anyError_eq_any, isError]
  simp only [Bool.or_assoc]

/-- A node has an error if something in its tree is flagged or is one. -/
theorem hasError_iff (n : Node) : n.hasError ↔ ∃ m ∈ n.preorder, m.flagged ∨ m.isError := by
  induction n using tree_induction with
  | step n ih =>
    rw [hasError_eq, Bool.or_eq_true, Bool.or_eq_true, List.any_eq_true]
    constructor
    · rintro (here | ⟨child, hc, below⟩)
      · exact ⟨n, n.self_mem_preorder, here⟩
      · obtain ⟨m, hm, he⟩ := (ih child hc).mp below
        exact ⟨m, mem_preorder_iff.mpr (.inr ⟨child, hc, hm⟩), he⟩
    · rintro ⟨m, hm, he⟩
      rcases mem_preorder_iff.mp hm with rfl | ⟨child, hc, hm⟩
      · exact .inl he
      · exact .inr ⟨child, hc, (ih child hc).mpr ⟨m, hm, he⟩⟩

/-- Whether a tree marks its errors: a node has an error exactly if it, or a node below it, is
one. -/
def MarksErrors (root : Node) : Prop :=
  ∀ n ∈ root.preorder, n.hasError ↔ ∃ m ∈ n.preorder, m.isError

/-- A tree in which no node is flagged marks its errors. -/
theorem marksErrors_of_not_flagged {root : Node} (h : ∀ n ∈ root.preorder, n.flagged = false) :
    root.MarksErrors := by
  intro n hn
  rw [hasError_iff]
  refine exists_congr fun m => and_congr_right fun hm => ?_
  simp [h m (preorder_trans hm hn)]

end Node

/-! ## The two ways of accepting -/

namespace Syntax

variable {root : Node}

/-- What is accepted is the tree itself. -/
theorem eq_of_accept_eq_ok {recovery : Bool} {tree : Node} (h : accept recovery root = .ok tree) :
    tree = root := by
  unfold accept at h
  split at h
  · exact (Except.ok.inj h).symm
  · split at h
    · split at h
      · exact (Except.ok.inj h).symm
      · cases h
    · cases h

theorem accept_ok_or_error (recovery : Bool) (root : Node) :
    accept recovery root = .ok root ∨ ∃ failure, accept recovery root = .error failure := by
  cases h : accept recovery root with
  | error failure => exact .inr ⟨failure, rfl⟩
  | ok tree => exact .inl (congrArg _ (eq_of_accept_eq_ok h))

/-- An error at the root is marked there. -/
theorem hasError_of_isError (h : root.isError) : root.hasError :=
  root.hasError_iff.mpr ⟨root, root.self_mem_preorder, .inr h⟩

/-- **Acceptance without recovery**: there is no error in the whole tree. -/
theorem accept_strict_iff (marked : root.MarksErrors) :
    accept false root = .ok root ↔ ∀ n ∈ root.preorder, ¬ n.isError := by
  have unmarked : root.hasError = false ↔ ∀ n ∈ root.preorder, ¬ n.isError := by
    rw [← Bool.not_eq_true, marked root root.self_mem_preorder]
    simp only [not_exists, not_and]
  rw [← unmarked, accept]
  cases he : root.isError with
  | true => simp [hasError_of_isError he]
  | false => cases root.hasError <;> simp

theorem fatal?_isSome_iff :
    (fatal? root).isSome ↔ root.isError ∨ ∃ child ∈ root.children, child.kind = "ERROR" := by
  unfold fatal?
  cases root.isError <;> simp

theorem hasError_of_fatal? (h : (fatal? root).isSome) : root.hasError := by
  rcases fatal?_isSome_iff.mp h with here | ⟨child, hc, hk⟩
  · exact hasError_of_isError here
  · refine root.hasError_iff.mpr ⟨child, Node.child_mem_preorder hc, .inr ?_⟩
    simp [Node.isError, hk]

/-- **Refusal with recovery**: the root is an error, or one of its children is unreadable text. -/
theorem accept_recovering_iff :
    (∃ failure, accept true root = .error failure) ↔
      root.isError ∨ ∃ child ∈ root.children, child.kind = "ERROR" := by
  rw [← fatal?_isSome_iff, accept]
  cases hf : fatal? root with
  | none => cases root.hasError <;> cases root.isError <;> simp
  | some culprit =>
    have marked : root.hasError := hasError_of_fatal? (by rw [hf]; rfl)
    simp [marked]

/-- Recovery refuses no tree that is accepted without. -/
theorem accept_recovering_of_strict (h : accept false root = .ok root) :
    accept true root = .ok root := by
  unfold accept at h ⊢
  split
  · rfl
  · rename_i refused
    rw [if_neg refused] at h
    cases h

end Syntax

/-! ## Readers of texts -/

/-- How a text is read, if these are the trees of texts with and without markup. -/
def TreeReader.ofTrees (trees : Bool → String → Node) : TreeReader := fun options source =>
  Syntax.accept options.recovery (trees options.markup source)

theorem Syntax.parse_eq_ofTrees : parse = TreeReader.ofTrees parseTree := rfl

/-- A text that is read is never recorded as one that is not. -/
theorem error_eq_none_of_read {read : TreeReader} {clock : Clock} {filename source : String}
    {root : Node} {r : Record} (hread : read (Syntax.Options.forFile filename) source = .ok root)
    (h : analyzeWith read clock filename source = .ok r) : r.error = none := by
  obtain ⟨m, -, -, rfl⟩ := eq_recorded_of_analyzeWith_eq_ok hread h
  rfl

/-- **Which trees are accepted.** Without recovery a text is read exactly if no node of its tree is
an error; with recovery it is refused exactly if the root is an error or a child of the root is
unreadable text. So recovery accepts all that is accepted without, and what is accepted is the tree
as it is. The analysis of a file, which recovers, gives the record of a file that was not read
exactly if the tree is refused. -/
theorem ofTrees_acceptance {trees : Bool → String → Node}
    (marked : ∀ markup source, (trees markup source).MarksErrors) :
    (∀ options source, options.recovery = false →
      ((∃ root, TreeReader.ofTrees trees options source = .ok root) ↔
        ∀ n ∈ (trees options.markup source).preorder, ¬ n.isError)) ∧
    (∀ options source, options.recovery = true →
      ((∃ failure, TreeReader.ofTrees trees options source = .error failure) ↔
        (trees options.markup source).isError ∨
          ∃ child ∈ (trees options.markup source).children, child.kind = "ERROR")) ∧
    (∀ options source root, TreeReader.ofTrees trees options source = .ok root →
      root = trees options.markup source ∧
        TreeReader.ofTrees trees { options with recovery := true } source = .ok root) ∧
    ∀ clock filename source r,
      (analyzeWith (.ofTrees trees) clock filename source = .ok r ∧ r.error.isSome) ↔
        ∃ failure, Syntax.accept true
            (trees (Syntax.Options.forFile filename).markup source) = .error failure ∧
          r = Record.failed filename (Text.lineCount source) failure.message clock.elapsed := by
  refine ⟨?_, ?_, ?_, ?_⟩
  · intro options source strict
    rw [← Syntax.accept_strict_iff (marked options.markup source), TreeReader.ofTrees, strict]
    exact ⟨fun ⟨root, h⟩ => by rw [h, Syntax.eq_of_accept_eq_ok h], fun h => ⟨_, h⟩⟩
  · intro options source recovering
    rw [TreeReader.ofTrees, recovering, Syntax.accept_recovering_iff]
  · rintro ⟨dialect, markup, annotations, recovery⟩ source root h
    obtain rfl := Syntax.eq_of_accept_eq_ok h
    refine ⟨rfl, ?_⟩
    cases recovery with
    | true => exact h
    | false => exact Syntax.accept_recovering_of_strict h
  · intro clock filename source r
    constructor
    · rintro ⟨h, herror⟩
      rcases Syntax.accept_ok_or_error true
        (trees (Syntax.Options.forFile filename).markup source) with accepted | ⟨failure, refused⟩
      · rw [error_eq_none_of_read accepted h] at herror
        cases herror
      · refine ⟨failure, refused, ?_⟩
        simp only [analyzeWith, TreeReader.ofTrees, Syntax.Options.forFile] at refused h
        rw [refused] at h
        exact (Except.ok.inj h).symm
    · rintro ⟨failure, refused, rfl⟩
      refine ⟨?_, rfl⟩
      simp only [analyzeWith, TreeReader.ofTrees, Syntax.Options.forFile] at refused ⊢
      rw [refused]
      rfl

/-- The tree of `const x = ;`, with the unreadable text below the statement. -/
def Node.unfinished : Node where
  kind := "program"
  children := [
    { kind := "lexical_declaration"
      children := [
        { kind := "variable_declarator", children := [{ kind := "identifier", text := "x" }] },
        { kind := "ERROR", start := ⟨0, 8⟩ }] }]

theorem Node.unfinished_marksErrors : unfinished.MarksErrors :=
  marksErrors_of_not_flagged (by decide)

theorem ofTrees_acceptance_unfinished :
    Node.unfinished.MarksErrors ∧
    (¬ ∃ root, TreeReader.ofTrees (fun _ _ => .unfinished) { recovery := false } "" = .ok root) ∧
    ¬ ∃ failure, TreeReader.ofTrees (fun _ _ => .unfinished) {} "" = .error failure := by
  obtain ⟨strict, recovering, -⟩ := ofTrees_acceptance fun _ _ => Node.unfinished_marksErrors
  refine ⟨Node.unfinished_marksErrors, ?_, ?_⟩
  · rw [strict { recovery := false } "" rfl]
    decide
  · rw [recovering {} "" rfl]
    decide

end ScriptSurvey
