import ScriptSurvey.Proofs.Walk.Visit

/-!
# The stack walk is the recursive descent

`walk` keeps on one stack the nodes of many levels that are still to be visited and, between them,
the marks at which a scope is left. It does the same as `descend`, which recurs over the tree:

* `descend_ok`: no scope is left that was not entered, and the scope after a node is the one before
  it;
* `walk_visit`: a node on top of a stack is walked as `descend` walks it, and then the rest of the
  stack is;
* `turns_eq_walk`: the loop is over after at most as many turns as its stack weighs.

Together they make the walk over a whole tree the recursive descent.
-/

namespace ScriptSurvey

/-! ## The descent along named children -/

theorem descendAll_eq_foldlM (parent : Option String) (depth : Nat) (t : Tally) (ns : List Node) :
    descendAll parent depth t ns = (ns.filter (·.named)).foldlM (descend parent depth) t := by
  induction ns generalizing t with
  | nil => rfl
  | cons n ns ih =>
    rw [descendAll, List.filter_cons]
    split
    · simp only [List.foldlM_cons, ih]
    · exact ih t

/-- The descent below a node: visit it, enter what it declares, descend below every named child in
order, and leave what was entered. -/
theorem descend_eq (parent : Option String) (depth : Nat) (t : Tally) (n : Node) :
    descend parent depth t n =
      match n.declaredName? parent with
      | some name => do
        let (previous, t) := (t.arrive parent n depth).enter name
        let t ← n.namedChildren.foldlM (descend (some n.kind) (depth + 1)) t
        t.leave previous
      | none =>
        n.namedChildren.foldlM (descend (some n.kind) (depth + 1)) (t.arrive parent n depth) := by
  have below : descendAll (some n.kind) (depth + 1) =
      fun t ns => (ns.filter (·.named)).foldlM (descend (some n.kind) (depth + 1)) t := by
    funext t ns
    rw [descendAll_eq_foldlM]
  obtain ⟨⟩ := n
  rw [descend, below]
  exact rfl

/-! ## Scopes are left as they were found -/

namespace Tally

/-- The same findings in another scope. -/
def inScope (t : Tally) (scope : Scope) : Tally :=
  { t with scope }

@[simp] theorem inScope_scope (t : Tally) (scope : Scope) : (t.inScope scope).scope = scope := rfl

@[simp] theorem inScope_setters (t : Tally) (scope : Scope) :
    (t.inScope scope).setters = t.setters := rfl

@[simp] theorem inScope_references (t : Tally) (scope : Scope) :
    (t.inScope scope).references = t.references := rfl

@[simp] theorem inScope_inScope (t : Tally) (scope scope' : Scope) :
    (t.inScope scope).inScope scope' = t.inScope scope' := rfl

@[simp] theorem inScope_self (t : Tally) : t.inScope t.scope = t := rfl

/-- Leaving the scope that was entered last restores the one before it. -/
theorem leave_enter {t t' : Tally} {name : String} (h : t'.scope = (t.enter name).2.scope) :
    t'.leave (t.enter name).1 = .ok (t'.inScope t.scope) := by
  simp only [enter, Scope.enter] at h
  simp only [leave, enter, Scope.enter, h, Scope.leave]
  rfl

end Tally

theorem foldlM_descend_ok {parent : Option String} {depth : Nat} {ns : List Node}
    (each : ∀ n ∈ ns, ∀ t, ∃ t', descend parent depth t n = .ok t' ∧ t'.scope = t.scope)
    (t : Tally) : ∃ t', ns.foldlM (descend parent depth) t = .ok t' ∧ t'.scope = t.scope := by
  induction ns generalizing t with
  | nil => exact ⟨t, rfl, rfl⟩
  | cons n ns ih =>
    obtain ⟨t₁, h₁, hs₁⟩ := each n (by simp) t
    obtain ⟨t₂, h₂, hs₂⟩ := ih (fun m hm => each m (by simp [hm])) t₁
    refine ⟨t₂, ?_, hs₂.trans hs₁⟩
    rw [List.foldlM_cons, h₁]
    exact h₂

/-- **No descent fails**, and the scope after it is the scope before it. -/
theorem descend_ok (parent : Option String) (depth : Nat) (t : Tally) (n : Node) :
    ∃ t', descend parent depth t n = .ok t' ∧ t'.scope = t.scope := by
  induction n using Node.named_induction generalizing parent depth t with
  | step n ih =>
    have below := foldlM_descend_ok fun child hc => ih child hc (some n.kind) (depth + 1)
    rw [descend_eq]
    cases n.declaredName? parent with
    | none =>
      obtain ⟨t', h, hs⟩ := below (t.arrive parent n depth)
      exact ⟨t', h, by rw [hs, Tally.arrive_scope]⟩
    | some name =>
      obtain ⟨t', h, hs⟩ := below ((t.arrive parent n depth).enter name).2
      refine ⟨t'.inScope (t.arrive parent n depth).scope, ?_, Tally.arrive_scope ..⟩
      simp only [h]
      exact Tally.leave_enter hs

/-! ## The stack -/

theorem walk_cons (task : Task) (rest : List Task) (t : Tally) :
    walk (task :: rest) t = task.perform rest t >>= fun next => walk next.1 next.2 := by
  rw [walk]
  split <;> rename_i h <;> rw [h] <;> rfl

theorem walk_leave (previous : String) (rest : List Task) (t : Tally) :
    walk (.leave previous :: rest) t = t.leave previous >>= walk rest := by
  rw [walk_cons, Task.perform, bind_assoc]
  rfl

theorem walk_map_visit {parent : Option String} {depth : Nat} {ns : List Node}
    (each : ∀ n ∈ ns, ∀ rest t,
      walk (.visit parent n depth :: rest) t = descend parent depth t n >>= walk rest)
    (rest : List Task) (t : Tally) :
    walk (ns.map (fun n => .visit parent n depth) ++ rest) t =
      ns.foldlM (descend parent depth) t >>= walk rest := by
  induction ns generalizing t with
  | nil => rfl
  | cons n ns ih =>
    rw [List.map_cons, List.cons_append, each n (by simp), List.foldlM_cons, bind_assoc]
    congr 1
    funext t₁
    exact ih (fun m hm => each m (by simp [hm])) t₁

/-- **A node on top of a stack is walked as the descent walks it**, and then the rest is. -/
theorem walk_visit (parent : Option String) (n : Node) (depth : Nat) (rest : List Task)
    (t : Tally) :
    walk (.visit parent n depth :: rest) t = descend parent depth t n >>= walk rest := by
  induction n using Node.named_induction generalizing parent depth rest t with
  | step n ih =>
    have below : ∀ rest t, walk (Task.below n depth ++ rest) t =
        n.namedChildren.foldlM (descend (some n.kind) (depth + 1)) t >>= walk rest :=
      walk_map_visit fun child hc => ih child hc (some n.kind) (depth + 1)
    rw [walk_cons, descend_eq, Task.perform]
    cases n.declaredName? parent with
    | none => exact below rest _
    | some name =>
      -- below the children lies the mark that leaves the scope, as the descent does after them
      simp only [bind_assoc]
      refine (below _ _).trans ?_
      congr 1
      funext t₁
      exact walk_leave _ rest t₁

/-! ## The number of turns -/

/-- What is left on the stack, and the tally, after the given number of turns of the loop. -/
def turns : Nat → List Task → Tally → Except ScopeFault (List Task × Tally)
  | 0, stack, t => .ok (stack, t)
  | _ + 1, [], t => .ok ([], t)
  | k + 1, task :: rest, t => task.perform rest t >>= fun next => turns k next.1 next.2

/-- A loop that may take as many turns as its stack weighs ends as the walk does. -/
theorem turns_eq_walk {k : Nat} {stack : List Task} (h : Task.weightAll stack ≤ k) (t : Tally) :
    turns k stack t = (walk stack t).map fun t' => ([], t') := by
  induction k generalizing stack t with
  | zero =>
    cases stack with
    | nil => rw [walk]; rfl
    | cons task rest =>
      have := task.weight_pos
      simp only [Task.weightAll] at h
      omega
  | succ k ih =>
    cases stack with
    | nil => rw [walk]; rfl
    | cons task rest =>
      rw [turns, walk_cons]
      cases hp : task.perform rest t with
      | error fault => rfl
      | ok next =>
        have hlt := Task.weightAll_perform_lt hp
        exact ih (by omega) next.2

/-! ## Whole trees -/

theorem tally_ok (root : Node) :
    ∃ t, descend none 0 {} root = .ok t ∧ tally root = .ok t ∧ t.scope = {} := by
  obtain ⟨t, h, hs⟩ := descend_ok none 0 {} root
  refine ⟨t, h, ?_, hs⟩
  rw [tally, walk_visit, h]
  exact walk.eq_1 t

/-- **The walk over a tree with a stack is the recursive descent**: its loop ends, it leaves no
scope that was not entered, both find the same, and the scope at the end is that of the file. -/
theorem tally_eq_descend (root : Node) :
    ∃ t, descend none 0 {} root = .ok t ∧ tally root = .ok t ∧
      turns (2 * root.count) [.visit none root 0] {} = .ok ([], t) ∧
      t.scope.current = "Unknown" ∧ t.scope.depth = 0 := by
  obtain ⟨t, hd, hw, hs⟩ := tally_ok root
  refine ⟨t, hd, hw, ?_, by rw [hs]; rfl, by rw [hs]⟩
  have hweight : Task.weightAll [.visit none root 0] ≤ 2 * root.count := by
    simp [Task.weightAll, Task.weight]
  rw [turns_eq_walk hweight]
  exact congrArg (Except.map _) hw

end ScriptSurvey
