import ScriptSurvey.Survey.Tally

/-!
# Walking a tree

A tree is walked from the top, left to right, along its named children. While the walk is below a
node that declares a function, that function is the scope.

* `walk` keeps the work that is left on a stack; leaving a scope is a task of its own.
* `descend` is the same walk as a plain recursion over the tree.
-/

namespace ScriptSurvey

/-- Work that a walk has left to do. -/
inductive Task where
  /-- Visit a node, given the kind of the node around it and the depth. -/
  | visit (parent : Option String) (node : Node) (depth : Nat)
  /-- Leave a scope and restore the name of the one before. -/
  | leave (previous : String)

namespace Task

/-- A bound for the steps that a task takes. -/
def weight : Task → Nat
  | .visit _ node _ => 2 * node.count
  | .leave _ => 1

theorem weight_pos (task : Task) : 0 < task.weight := by
  cases task with
  | visit parent n depth =>
    have := n.count_pos
    simp only [weight]
    omega
  | leave previous => simp [weight]

/-- The visits of the named children of a node. -/
def below (n : Node) (depth : Nat) : List Task :=
  n.namedChildren.map fun child => .visit (some n.kind) child (depth + 1)

/-- A bound for the steps that a stack of tasks takes. -/
def weightAll : List Task → Nat
  | [] => 0
  | task :: tasks => task.weight + weightAll tasks

theorem weightAll_append (xs ys : List Task) :
    weightAll (xs ++ ys) = weightAll xs + weightAll ys := by
  induction xs with
  | nil => simp [weightAll]
  | cons x xs ih => simp [weightAll, ih, Nat.add_assoc]

theorem weightAll_map_visit (parent : Option String) (depth : Nat) (ns : List Node) :
    weightAll (ns.map fun n => .visit parent n depth) = 2 * Node.countAll ns := by
  induction ns with
  | nil => rfl
  | cons n ns ih =>
    simp only [List.map_cons, weightAll, weight, Node.countAll, ih]
    omega

end Task

namespace Tally

/-- Visit a node at a depth: the tally with what it contributes. -/
def arrive (t : Tally) (parent : Option String) (n : Node) (depth : Nat) : Tally :=
  ({ t with maxDepth := max t.maxDepth depth }).visit parent n

/-- Enter the scope of a declaration, with the name to restore on leaving it. -/
def enter (t : Tally) (name : String) : String × Tally :=
  let (previous, scope) := t.scope.enter name
  (previous, { t with scope })

/-- Leave a scope. -/
def leave (t : Tally) (previous : String) : Except ScopeFault Tally := do
  return { t with scope := ← t.scope.leave previous }

end Tally

namespace Task

/-- Do the task on top of a stack, given the tasks below it: the stack and the tally it leaves. -/
def perform (task : Task) (rest : List Task) (t : Tally) : Except ScopeFault (List Task × Tally) :=
  match task with
  | .leave previous => do return (rest, ← t.leave previous)
  | .visit parent n depth =>
    let t := t.arrive parent n depth
    match n.declaredName? parent with
    | some name =>
      let (previous, t) := t.enter name
      .ok (below n depth ++ .leave previous :: rest, t)
    | none => .ok (below n depth ++ rest, t)

/-- Every task leaves less to do. -/
theorem weightAll_perform_lt {task : Task} {rest stack : List Task} {t t' : Tally}
    (h : task.perform rest t = .ok (stack, t')) : weightAll stack < weightAll (task :: rest) := by
  cases task with
  | leave previous =>
    cases hl : t.leave previous with
    | error fault => simp [perform, hl, bind, Except.bind] at h
    | ok t₁ =>
      simp only [perform, hl, bind, Except.bind, pure, Except.pure, Except.ok.injEq,
        Prod.mk.injEq] at h
      obtain ⟨rfl, -⟩ := h
      simp [weightAll, weight]
  | visit parent n depth =>
    have hn := Node.countAll_namedChildren_lt n
    have hb := weightAll_map_visit (some n.kind) (depth + 1) n.namedChildren
    simp only [perform] at h
    split at h <;> simp only [Except.ok.injEq, Prod.mk.injEq] at h <;> obtain ⟨rfl, -⟩ := h <;>
      simp only [weightAll_append, below, hb, weightAll, weight] <;> omega

end Task

/-- Do all tasks of a stack, the first one first. -/
def walk : List Task → Tally → Except ScopeFault Tally
  | [], t => .ok t
  | task :: rest, t =>
    match _h : task.perform rest t with
    | .ok (stack, t) => walk stack t
    | .error fault => .error fault
termination_by tasks => Task.weightAll tasks
decreasing_by exact Task.weightAll_perform_lt _h

/-- The tally of a whole tree. -/
def tally (root : Node) : Except ScopeFault Tally :=
  walk [.visit none root 0] {}

mutual

/-- The walk below a node as a recursion over the tree: a declaration is entered before its children
and left after them. -/
def descend (parent : Option String) (depth : Nat) (t : Tally) : Node → Except ScopeFault Tally
  | ⟨kind, field, named, missing, flagged, start, text, children⟩ =>
    let n : Node := ⟨kind, field, named, missing, flagged, start, text, children⟩
    let t := t.arrive parent n depth
    match n.declaredName? parent with
    | some name => do
      let (previous, t) := t.enter name
      let t ← descendAll (some kind) (depth + 1) t children
      t.leave previous
    | none => descendAll (some kind) (depth + 1) t children

/-- The walks below the named ones of a list of nodes, from left to right. -/
def descendAll (parent : Option String) (depth : Nat) (t : Tally) :
    List Node → Except ScopeFault Tally
  | [] => .ok t
  | n :: ns =>
    if n.named then do
      let t ← descend parent depth t n
      descendAll parent depth t ns
    else descendAll parent depth t ns

end

end ScriptSurvey
