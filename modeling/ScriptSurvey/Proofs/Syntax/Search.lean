import ScriptSurvey.Proofs.Syntax.Acceptance

/-!
# The search for an error

The search for the first error of a tree keeps the nodes it has still to look at on a stack, and
leaves out the subtrees that are not marked to hold an error. Nothing is lost by that, as long as
every node above an error is marked (`Node.Covers`); that others may be marked too only makes the
search longer:

* `Syntax.searchErrors_eq_find?`: it finds the first error in pre-order of the trees on the stack;
* `Syntax.searchTurns_eq`: its loop is over after at most as many turns as there are nodes.

The marks that trees have cover their errors (`Node.covers_hasError`).
-/

namespace ScriptSurvey

namespace Node

/-- Whether a node is the first error in a list of nodes. -/
def IsFirstError (n : Node) (nodes : List Node) : Prop :=
  n.isError ∧ ∃ before after, nodes = before ++ n :: after ∧ ∀ m ∈ before, ¬ m.isError

theorem find?_isError_iff {n : Node} {nodes : List Node} :
    nodes.find? isError = some n ↔ n.IsFirstError nodes := by
  simp only [List.find?_eq_some_iff_append, IsFirstError, Bool.not_eq_true']
  simp only [Bool.not_eq_true]

theorem preorder_eq (n : Node) : n.preorder = n :: n.children.flatMap preorder := by
  obtain ⟨⟩ := n
  rw [preorder, preorderAll_eq_flatMap]

/-- Whether the marks of a tree cover its errors: every node with an error below it is marked. -/
def Covers (marked : Node → Bool) (root : Node) : Prop :=
  ∀ n ∈ root.preorder, (∃ m ∈ n.children.flatMap preorder, m.isError) → marked n

theorem Covers.child {marked : Node → Bool} {n child : Node} (h : n.Covers marked)
    (hc : child ∈ n.children) : child.Covers marked :=
  fun m hm => h m (mem_preorder_iff.mpr (.inr ⟨child, hc, hm⟩))

theorem covers_hasError (root : Node) : Covers hasError root := by
  intro n _ below
  obtain ⟨m, hm, he⟩ := below
  refine n.hasError_iff.mpr ⟨m, ?_, .inr he⟩
  rw [preorder_eq]
  exact List.mem_cons_of_mem n hm

end Node

namespace Syntax

open Node

variable {marked : Node → Bool}

/-- Among the children of a node only the suspects, and what is below them, can be errors. -/
theorem find?_suspects {n : Node} (covers : n.Covers marked) :
    ((suspects marked n).flatMap preorder).find? isError =
      (n.children.flatMap preorder).find? isError := by
  have clear : ∀ child ∈ n.children, ¬ (marked child || child.isError) →
      child.preorder.find? isError = none := by
    intro child hc unsuspected
    rw [Bool.or_eq_true, not_or] at unsuspected
    rw [preorder_eq, List.find?_cons_of_neg unsuspected.2, List.find?_eq_none]
    exact fun m hm he => unsuspected.1 (covers.child hc child child.self_mem_preorder ⟨m, hm, he⟩)
  unfold suspects
  generalize n.children = children at clear
  induction children with
  | nil => rfl
  | cons child rest ih =>
    rw [List.forall_mem_cons] at clear
    by_cases suspect : marked child || child.isError
    · rw [List.filter_cons, if_pos suspect, List.flatMap_cons, List.flatMap_cons, List.find?_append,
        List.find?_append, ih clear.2]
    · rw [List.filter_cons, if_neg suspect, ih clear.2, List.flatMap_cons, List.find?_append,
        clear.1 suspect, Option.none_or]

/-- **The search with a stack** finds the first error of the trees on it. -/
theorem searchErrors_eq_find? {stack : List Node} (covers : ∀ n ∈ stack, n.Covers marked) :
    searchErrors marked stack = (stack.flatMap preorder).find? isError := by
  fun_induction searchErrors marked stack with
  | case1 => rfl
  | case2 n rest h =>
    rw [List.flatMap_cons, preorder_eq, List.cons_append, List.find?_cons_of_pos h]
  | case3 n rest h ih =>
    obtain ⟨top, below⟩ := List.forall_mem_cons.mp covers
    have kept : ∀ m ∈ suspects marked n ++ rest, m.Covers marked := by
      refine List.forall_mem_append.mpr ⟨fun m hm => ?_, below⟩
      exact top.child (List.mem_of_mem_filter hm)
    rw [ih kept, List.flatMap_append, List.find?_append, find?_suspects top, List.flatMap_cons,
      preorder_eq, List.cons_append, List.find?_cons_of_neg h, List.find?_append]

theorem firstErrorBy?_eq_find? {n : Node} (covers : n.Covers marked) :
    firstErrorBy? marked n = n.preorder.find? isError := by
  rw [firstErrorBy?, searchErrors_eq_find? (by simpa using covers), List.flatMap_singleton]

/-- **The first error of a tree** is the first one in pre-order. -/
theorem firstError?_eq_find? (n : Node) : firstError? n = n.preorder.find? isError :=
  firstErrorBy?_eq_find? n.covers_hasError

theorem firstError?_of_isError {n : Node} (h : n.isError) : firstError? n = some n := by
  rw [firstError?_eq_find?, preorder_eq, List.find?_cons_of_pos h]

/-! ## The number of turns -/

/-- The search as a loop over a stack with its top at the end, on which the suspects of a node are
put from right to left: what is found in the given number of turns, if the loop is over by then. -/
def searchTurns (marked : Node → Bool) : Nat → List Node → Option (Option Node)
  | 0, _ => none
  | k + 1, stack =>
    match stack.getLast? with
    | none => some none
    | some n =>
      if n.isError then some (some n)
      else searchTurns marked k (stack.dropLast ++
        n.children.reverse.filter fun child => marked child || child.isError)

/-- A loop that may take more turns than there are nodes on its stack ends as the search does. -/
theorem searchTurns_eq {k : Nat} {stack : List Node} (h : countAll stack < k) :
    searchTurns marked k stack.reverse = some (searchErrors marked stack) := by
  induction k generalizing stack with
  | zero => omega
  | succ k ih =>
    cases stack with
    | nil => simp [searchTurns, searchErrors]
    | cons n rest =>
      have fewer := countAll_suspects_lt marked n
      have smaller : countAll (suspects marked n ++ rest) < k := by
        rw [countAll] at h
        rw [countAll_append]
        omega
      rw [searchTurns, searchErrors]
      simp only [List.reverse_cons, List.getLast?_concat, List.dropLast_concat]
      split_ifs
      · rfl
      · rw [← ih smaller, List.reverse_append, suspects, List.filter_reverse]

/-- **The search for an error leaves nothing out.** Whatever marks cover the errors of a tree, the
loop is over after at most as many turns as the tree has nodes, and what it finds is the first error
in pre-order; it finds nothing exactly if there is no error. Marks without a cause make no
difference, so that it finds the same as by the marks that the tree has. -/
theorem search_eq_first_error {root : Node} (covers : root.Covers marked) :
    searchTurns marked (root.count + 1) [root] = some (firstErrorBy? marked root) ∧
    (∀ n, firstErrorBy? marked root = some n ↔ n.IsFirstError root.preorder) ∧
    (firstErrorBy? marked root = none ↔ ∀ n ∈ root.preorder, ¬ n.isError) ∧
    firstError? root = firstErrorBy? marked root := by
  have found := firstErrorBy?_eq_find? covers
  refine ⟨?_, ?_, ?_, ?_⟩
  · have enough : countAll [root] < root.count + 1 := by
      rw [countAll, countAll]
      omega
    exact searchTurns_eq enough
  · intro n
    rw [found, find?_isError_iff]
  · rw [found, List.find?_eq_none]
  · rw [firstError?_eq_find?, found]

end Syntax

/-- A tree with unreadable text inside a call and again at the end. A name inside the first
statement is flagged, though not the statement, and so is the second one; neither has an error. -/
def Node.misleading : Node where
  kind := "program"
  flagged := true
  children := [
    { kind := "expression_statement"
      children := [{ kind := "identifier", flagged := true }] },
    { kind := "expression_statement", flagged := true
      children := [{ kind := "identifier" }] },
    { kind := "call_expression", flagged := true
      children := [{ kind := "identifier" }, { kind := "ERROR", start := ⟨0, 8⟩ }] },
    { kind := "ERROR", start := ⟨1, 0⟩ }]

theorem Syntax.search_eq_first_error_misleading :
    Node.misleading.Covers (·.flagged) ∧
      searchTurns (·.flagged) 10 [.misleading] =
        some (some { kind := "ERROR", start := ⟨0, 8⟩ }) := by
  have covers : Node.misleading.Covers (·.flagged) := by
    unfold Node.Covers
    decide
  obtain ⟨turns, first, -⟩ := search_eq_first_error covers
  refine ⟨covers, turns.trans (congrArg some ((first _).mpr ?_))⟩
  exact Node.find?_isError_iff.mp rfl

end ScriptSurvey
