import ScriptSurvey.Proofs.Syntax.Search

/-!
# Which error a refused tree is described by

A tree that is refused without recovery is described by its first error. With recovery it is
described by the error on whose account it is refused (`Node.IsFatal`): the root, or the first child
of the root that is unreadable text. Errors that stand further inside the children before that one
are passed over (`Syntax.accept_eq_error_iff`).
-/

namespace ScriptSurvey

/-! ## The error that a refusal is about -/

/-- The node on whose account a tree is refused even with recovery, and the subtrees of the root
that stand before it. -/
inductive Node.IsFatal (root : Node) : List Node → Node → Prop where
  | root (h : root.isError) : IsFatal root [] root
  | child {before after : List Node} {n : Node} (h : ¬ root.isError)
    (children : root.children = before ++ n :: after) (unreadable : n.kind = "ERROR")
    (first : ∀ m ∈ before, m.kind ≠ "ERROR") : IsFatal root before n

namespace Node.IsFatal

variable {root n : Node} {before : List Node}

theorem isError (h : root.IsFatal before n) : n.isError := by
  cases h with
  | root h => exact h
  | child h children unreadable first => simp [Node.isError, unreadable]

/-- The nodes of the tree up to the fatal one. -/
theorem preorder_eq_append (h : root.IsFatal before n) :
    ∃ above below, root.preorder = above ++ preorderAll before ++ n :: below ∧
      ∀ m ∈ above, ¬ m.isError := by
  cases h with
  | root h => exact ⟨[], _, root.preorder_eq, by simp⟩
  | @child before after n h children unreadable first =>
    refine ⟨[root], n.children.flatMap preorder ++ after.flatMap preorder, ?_, by simpa using h⟩
    rw [root.preorder_eq, children, List.flatMap_append, List.flatMap_cons, n.preorder_eq,
      preorderAll_eq_flatMap]
    simp

/-- If no error stands before it, the fatal one is the first. -/
theorem isFirstError (h : root.IsFatal before n) (clear : ∀ m ∈ preorderAll before, ¬ m.isError) :
    n.IsFirstError root.preorder := by
  obtain ⟨above, below, whole, none_above⟩ := h.preorder_eq_append
  exact ⟨h.isError, _, below, whole, List.forall_mem_append.mpr ⟨none_above, clear⟩⟩

/-- An error that stands before it comes first. -/
theorem isFirstError_before (h : root.IsFatal before n) {e : Node}
    (earlier : e.IsFirstError (preorderAll before)) : e.IsFirstError root.preorder := by
  obtain ⟨above, below, whole, none_above⟩ := h.preorder_eq_append
  obtain ⟨he, front, back, split, none_front⟩ := earlier
  refine ⟨he, above ++ front, back ++ n :: below, ?_,
    List.forall_mem_append.mpr ⟨none_above, none_front⟩⟩
  rw [whole, split]
  simp

end Node.IsFatal

namespace Syntax

open Node

variable {root : Node}

theorem fatal?_eq_some_iff {n : Node} :
    fatal? root = some n ↔ ∃ before, root.IsFatal before n := by
  unfold fatal?
  by_cases h : root.isError
  · rw [if_pos h]
    constructor
    · rintro ⟨⟩
      exact ⟨[], .root h⟩
    · rintro ⟨before, here | ⟨other⟩⟩
      · rfl
      · exact absurd h other
  · rw [if_neg h, List.find?_eq_some_iff_append]
    constructor
    · rintro ⟨unreadable, before, after, children, first⟩
      exact ⟨before, .child h children (by simpa using unreadable) (by simpa using first)⟩
    · rintro ⟨before, here | ⟨other, children, unreadable, first⟩⟩
      · exact absurd here h
      · exact ⟨by simpa using unreadable, before, _, children, by simpa using first⟩

theorem accept_strict_eq_error_iff (marked : root.MarksErrors) {failure : ParseFailure} :
    accept false root = .error failure ↔
      ∃ n, n.IsFirstError root.preorder ∧ failure = describe n := by
  have refused (n : Node) (h : n.IsFirstError root.preorder) :
      accept false root = .error (describe n) := by
    have found : firstError? root = some n := by rw [firstError?_eq_find?, find?_isError_iff.mpr h]
    obtain ⟨he, before, after, whole, -⟩ := h
    have hasError : root.hasError := by
      refine root.hasError_iff.mpr ⟨n, ?_, .inr he⟩
      rw [whole]
      simp
    simp [accept, hasError, found]
  constructor
  · intro h
    have some_error : ¬ ∀ n ∈ root.preorder, ¬ n.isError := by
      rw [← accept_strict_iff marked, h]
      rintro ⟨⟩
    push Not at some_error
    obtain ⟨n, hn⟩ := Option.isSome_iff_exists.mp (List.find?_isSome.mpr some_error)
    have first := find?_isError_iff.mp hn
    exact ⟨n, first, Except.error.inj (h.symm.trans (refused n first))⟩
  · rintro ⟨n, first, rfl⟩
    exact refused n first

theorem accept_recovering_eq_error_iff {failure : ParseFailure} :
    accept true root = .error failure ↔
      ∃ before n, root.IsFatal before n ∧ failure = describe n := by
  have refused {before : List Node} {n : Node} (h : root.IsFatal before n) :
      accept true root = .error (describe n) := by
    have fatal := fatal?_eq_some_iff.mpr ⟨before, h⟩
    have hasError : root.hasError := hasError_of_fatal? (by rw [fatal]; rfl)
    simp [accept, hasError, fatal, firstError?_of_isError h.isError]
  constructor
  · intro h
    obtain ⟨n, fatal⟩ := Option.isSome_iff_exists.mp
      (fatal?_isSome_iff.mpr (accept_recovering_iff.mp ⟨failure, h⟩))
    obtain ⟨before, culprit⟩ := fatal?_eq_some_iff.mp fatal
    exact ⟨before, n, culprit, Except.error.inj (h.symm.trans (refused culprit))⟩
  · rintro ⟨before, n, culprit, rfl⟩
    exact refused culprit

end Syntax

/-! ## What a description says -/

namespace Text

theorem quoteChar_of_plain {quote c : Char} (printable : isPrintable c) (hq : c ≠ quote)
    (hb : c ≠ '\\') : quoteChar quote c = c.toString := by
  have differs : ∀ d, isPrintable d = false → c ≠ d := by
    rintro d hd rfl
    rw [hd] at printable
    cases printable
  simp [quoteChar, hq, hb, printable, differs '\n' (by decide), differs '\r' (by decide),
    differs '\t' (by decide)]

/-- A printable text without single quotes and backslashes stands as it is between quotes. -/
theorem quoted_of_plain {text : String}
    (plain : ∀ c ∈ text.toList, isPrintable c ∧ c ≠ '\x27' ∧ c ≠ '\\') :
    quoted text = "'" ++ text ++ "'" := by
  have single : quoteOf text = '\x27' := by
    have none : '\x27' ∉ text.toList := fun h => (plain _ h).2.1 rfl
    simp [quoteOf, String.contains_char_eq, none]
  have shown : text.toList.map (quoteChar '\x27') = text.toList.map Char.toString := by
    refine List.map_congr_left fun c hc => ?_
    obtain ⟨printable, hq, hb⟩ := plain c hc
    exact quoteChar_of_plain printable hq hb
  have joined : String.join (text.toList.map Char.toString) = text := by
    apply String.toList_injective
    simp [String.toList_join, List.flatMap_map, Char.toString]
  simp only [quoted, single, shown, joined]
  rfl

end Text

namespace Node

/-- Where a node starts: the line counted from one, the column from zero. -/
def place (n : Node) : String :=
  "(" ++ toString (n.start.row + 1) ++ ":" ++ toString n.start.column ++ ")"

/-- The tree of `const x = ;;; }}} {{{ (((`, with unreadable text inside the first statement and
again at the end. -/
def brokenTwice : Node where
  kind := "program"
  children := unfinished.children ++
    [{ kind := "empty_statement" }, { kind := "empty_statement" },
      { kind := "ERROR", start := ⟨0, 14⟩ }]

theorem brokenTwice_marksErrors : brokenTwice.MarksErrors :=
  marksErrors_of_not_flagged (by decide)

end Node

namespace Syntax

open Node

theorem describe_missing {n : Node} (h : n.missing) :
    describe n = ⟨"Missing " ++ Text.quoted n.kind ++ " " ++ n.place⟩ := by
  rw [describe, if_pos h]
  rfl

theorem describe_unreadable {n : Node} (h : ¬ n.missing) :
    describe n = ⟨"Unexpected token " ++ n.place⟩ := by
  rw [describe, if_neg h]
  rfl

/-- **Which error a refused tree is described by.** Without recovery it is the first error of the
tree in pre-order. With recovery it is the root, or else the first child of the root that is
unreadable text; that is the first error of the tree if there is none inside the children before,
but if there is one there, that one comes first and is not described. The description of a missing
token names its kind, and every description gives the line and the column. -/
theorem accept_eq_error_iff {root : Node} (marked : root.MarksErrors) :
    (∀ failure, accept false root = .error failure ↔
      ∃ n, n.IsFirstError root.preorder ∧ failure = describe n) ∧
    (∀ failure, accept true root = .error failure ↔
      ∃ before n, root.IsFatal before n ∧ failure = describe n) ∧
    (∀ before n, root.IsFatal before n →
      ((∀ m ∈ preorderAll before, ¬ m.isError) → n.IsFirstError root.preorder) ∧
      ∀ e : Node, e.IsFirstError (preorderAll before) → e.IsFirstError root.preorder) ∧
    ∀ n : Node,
      (¬ n.missing → (describe n).message = "Unexpected token " ++ n.place) ∧
      (n.missing → (describe n).message = "Missing " ++ Text.quoted n.kind ++ " " ++ n.place) ∧
      ((∀ c ∈ n.kind.toList, Text.isPrintable c ∧ c ≠ '\x27' ∧ c ≠ '\\') →
        Text.quoted n.kind = "'" ++ n.kind ++ "'") :=
  ⟨fun _ => accept_strict_eq_error_iff marked, fun _ => accept_recovering_eq_error_iff,
    fun _ _ fatal => ⟨fatal.isFirstError, fun _ => fatal.isFirstError_before⟩,
    fun _ => ⟨fun h => congrArg ParseFailure.message (describe_unreadable h),
      fun h => congrArg ParseFailure.message (describe_missing h), Text.quoted_of_plain⟩⟩

theorem accept_eq_error_iff_brokenTwice :
    brokenTwice.MarksErrors ∧
      accept false brokenTwice = .error (describe { kind := "ERROR", start := ⟨0, 8⟩ }) := by
  obtain ⟨strict, -⟩ := accept_eq_error_iff brokenTwice_marksErrors
  exact ⟨brokenTwice_marksErrors, (strict _).mpr ⟨_, find?_isError_iff.mp rfl, rfl⟩⟩

/-- With recovery, the error inside the first statement is not the one that is described. -/
theorem accept_brokenTwice_describes_last :
    brokenTwice.MarksErrors ∧
      accept true brokenTwice = .error ⟨"Unexpected token (1:14)"⟩ ∧
      (∃ n : Node, n.IsFirstError brokenTwice.preorder) ∧
      ∀ n, n.IsFirstError brokenTwice.preorder → describe n = ⟨"Unexpected token (1:8)"⟩ := by
  refine ⟨brokenTwice_marksErrors, ?_, ⟨_, find?_isError_iff.mp rfl⟩, fun n h => ?_⟩
  · have children : brokenTwice.children =
        (unfinished.children ++ [{ kind := "empty_statement" }, { kind := "empty_statement" }]) ++
          { kind := "ERROR", start := ⟨0, 14⟩ } :: [] := rfl
    exact accept_recovering_eq_error_iff.mpr
      ⟨_, _, .child (by decide) children rfl (by decide), by decide⟩
  · obtain rfl := Option.some.inj ((find?_isError_iff.mpr h).symm.trans rfl)
    decide

end Syntax

end ScriptSurvey
