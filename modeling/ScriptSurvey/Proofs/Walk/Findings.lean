import Mathlib.Algebra.BigOperators.Group.List.Basic
import Mathlib.Algebra.GroupWithZero.Nat
import ScriptSurvey.Proofs.History
import ScriptSurvey.Proofs.Walk.Sites

/-!
# What a walk finds

A visit adds to each field of the tally what the site contributes to it. Over a whole walk a field
therefore holds the contributions of all sites in order: `survey_flatMap` for lists, `survey_sum`
for numbers, and `survey_withPast` where a contribution depends on the sites before. The lemmas
after them read off one field each.

The setters and the roles are ledgers; they are the histories of writes that the states and the
declared names make (`survey_setters`, `survey_roles`).
-/

namespace ScriptSurvey

/-- The state that a site introduces, for the function around it. -/
def Site.state? (v : Site) : Option StateUnit :=
  v.node.stateAt? v.owner

/-- The effect that a site makes, for the function around it. -/
def Site.effect? (v : Site) : Option Effect :=
  v.node.effectAt? v.owner

namespace Tally

/-! ## From a visit to a walk -/

section Run

variable {α β κ ν : Type} [DecidableEq κ]

theorem sum_map_toNat (p : α → Bool) (as : List α) :
    (as.map fun a => (p a).toNat).sum = as.countP p := by
  induction as with
  | nil => rfl
  | cons a as ih =>
    rw [List.map_cons, List.sum_cons, ih, List.countP_cons]
    cases p a <;> simp [Nat.add_comm]

/-- A list that every visit extends holds what the sites contribute, in order. -/
theorem survey_flatMap {field : Tally → List β} {add : Site → List β} (start : field {} = [])
    (visit : ∀ t v, field (t.visitSite v) = field t ++ add v) (vs : List Site) :
    field (survey vs) = vs.flatMap add := by
  induction vs using List.reverseRecOn with
  | nil => exact start
  | append_singleton vs v ih =>
    rw [survey_append_singleton, visit, ih, List.flatMap_append, List.flatMap_singleton]

/-- The same, where a site contributes at most one member, and looks at the sites before it. -/
theorem survey_withPast {field : Tally → List β} {add : List Site → Site → Option β}
    (start : field {} = [])
    (visit : ∀ past v, field ((survey past).visitSite v) =
      field (survey past) ++ (add past v).toList) (vs : List Site) :
    field (survey vs) = (withPast vs).filterMap fun (past, v) => add past v := by
  induction vs using List.reverseRecOn with
  | nil => exact start
  | append_singleton vs v ih =>
    rw [survey_append_singleton, visit, ih, withPast_append_singleton, List.filterMap_append]
    cases h : add vs v <;> simp [h]

theorem survey_filterMap {field : Tally → List β} {add : Site → Option β} (start : field {} = [])
    (visit : ∀ t v, field (t.visitSite v) = field t ++ (add v).toList) (vs : List Site) :
    field (survey vs) = vs.filterMap add :=
  (survey_withPast start (fun past => visit (survey past)) vs).trans (filterMap_withPast add vs)

/-- A number that every visit raises is the sum of what the sites add. -/
theorem survey_sum {field : Tally → Nat} {add : Site → Nat}
    (visit : ∀ t v, field (t.visitSite v) = field t + add v) (vs : List Site) :
    field (survey vs) = field {} + (vs.map add).sum := by
  induction vs using List.reverseRecOn with
  | nil => rfl
  | append_singleton vs v ih =>
    rw [survey_append_singleton, visit, ih, List.map_append, List.sum_append, List.map_singleton,
      List.sum_singleton, Nat.add_assoc]

/-- A number that goes up at some of the sites counts them. -/
theorem survey_countP {field : Tally → Nat} {p : Site → Bool} (start : field {} = 0)
    (visit : ∀ t v, field (t.visitSite v) = field t + (p v).toNat) (vs : List Site) :
    field (survey vs) = vs.countP p := by
  rw [survey_sum visit, start, Nat.zero_add, sum_map_toNat]

/-- A ledger to which some of the sites write is left as by that history of writes. -/
theorem survey_written {field : Tally → Ledger κ ν} (item : List Site → Site → Option α)
    (f : α → Option ν → ν) (key : α → κ) (start : field {} = [])
    (visit : ∀ past v, field ((survey past).visitSite v) =
      (item past v).elim (field (survey past)) fun a => (field (survey past)).alter (f a) (key a))
    (vs : List Site) :
    field (survey vs) =
      Ledger.written f key ((withPast vs).filterMap fun (past, v) => item past v) := by
  induction vs using List.reverseRecOn with
  | nil => exact start
  | append_singleton vs v ih =>
    rw [survey_append_singleton, visit, ih, withPast_append_singleton, List.filterMap_append]
    cases h : item vs v with
    | none => simp [h]
    | some a => simp [h, Ledger.written_append_singleton]

end Run

/-! ## The fields after a walk -/

/-- What a visit does to the tally, in the scope of the site. -/
theorem visitSite_eq (t : Tally) (v : Site) :
    t.visitSite v =
      { (t.inScope v.scope).visit v.parentKind v.node with
        maxDepth := max t.maxDepth v.ancestors.length } :=
  arrive_eq ..

variable (vs : List Site)

theorem survey_functions : (survey vs).functions = vs.filterMap Site.declared? :=
  survey_filterMap rfl (fun t v => by rw [visitSite_eq, visit_eq]; rfl) vs

theorem survey_states : (survey vs).states = vs.filterMap Site.state? :=
  survey_filterMap rfl (fun t v => by rw [visitSite_eq, visit_eq]; rfl) vs

theorem survey_effects : (survey vs).effects = vs.filterMap Site.effect? :=
  survey_filterMap rfl (fun t v => by rw [visitSite_eq, visit_eq]; rfl) vs

theorem survey_imports : (survey vs).imports = vs.flatMap (·.node.importsHere) :=
  survey_flatMap rfl (fun t v => by rw [visitSite_eq, visit_eq]; rfl) vs

theorem survey_issues : (survey vs).issues = vs.flatMap (·.node.issuesHere) :=
  survey_flatMap rfl (fun t v => by rw [visitSite_eq, visit_eq]; rfl) vs

/-- Each state that has a setter decides anew what the setter sets. -/
theorem survey_setters :
    (survey vs).setters =
      Ledger.written (fun u _ => u.name) StateUnit.setter (vs.filterMap Site.state?) := by
  rw [← filterMap_withPast]
  exact survey_written (fun _ v => v.state?) _ _ rfl
    (fun past v => by rw [visitSite_eq, visit_eq]; rfl) vs

/-- A setter belongs to the latest state that has it. -/
theorem survey_setters_get? (name : String) :
    (survey vs).setters.get? name =
      ((vs.filterMap Site.state?).filter (·.setter = name)).getLast?.map StateUnit.name := by
  rw [survey_setters, Ledger.get?_written_const]

/-- Each declaration of a name decides anew what its role is. -/
theorem survey_roles :
    (survey vs).roles =
      Ledger.written (fun name _ => Role.ofName name) id (vs.filterMap Site.declared?) := by
  rw [← filterMap_withPast]
  exact survey_written (fun _ v => v.declared?) _ _ rfl
    (fun past v => by rw [visitSite_eq, visit_eq]; rfl) vs

end Tally

/-! ## The complexity of a tree -/

namespace Node

/-- The branches in a tree. -/
def branches (root : Node) : Nat :=
  (root.sites []).countP (branchKinds.contains ·.node.kind)

/-- The loops in a tree. -/
def loops (root : Node) : Nat :=
  (root.sites []).countP (loopKinds.contains ·.node.kind)

/-- The cyclomatic complexity of a tree: one path, and one more for each decision in it. -/
def cyclomatic (root : Node) : Nat :=
  1 + root.branches + root.loops + (root.sites []).countP (·.node.isLogical)

theorem surveyed_branches (root : Node) : root.surveyed.branches = root.branches :=
  Tally.survey_countP rfl (fun t v => by rw [Tally.visitSite_eq, Tally.visit_eq]; rfl) _

theorem surveyed_loops (root : Node) : root.surveyed.loops = root.loops :=
  Tally.survey_countP rfl (fun t v => by rw [Tally.visitSite_eq, Tally.visit_eq]; rfl) _

theorem surveyed_cyclomatic (root : Node) : root.surveyed.cyclomatic = root.cyclomatic := by
  have raised : root.surveyed.cyclomatic = 1 + ((root.sites []).map fun v =>
      (branchKinds.contains v.node.kind).toNat + (loopKinds.contains v.node.kind).toNat +
        v.node.isLogical.toNat).sum :=
    Tally.survey_sum (fun t v => by
      rw [Tally.visitSite_eq, Tally.visit_eq, ← Nat.add_assoc, ← Nat.add_assoc]; rfl) _
  rw [raised, List.sum_map_add, List.sum_map_add, Tally.sum_map_toNat, Tally.sum_map_toNat,
    Tally.sum_map_toNat, cyclomatic, branches, loops, ← Nat.add_assoc, ← Nat.add_assoc]

end Node

end ScriptSurvey
