import ScriptSurvey.Proofs.Analysis

/-!
# The dependency graph of a file

A site makes a reference from the nearest function around it to the name that it calls or renders
(`Site.reference?`). A reference counts unless its target is the function itself, a name that every
environment provides, a hook, a setter by its name, or a setter of a state introduced before.

The references of a walk are counted in a ledger while the walk goes on. After it the ledger holds
each pair once, in the order of first occurrence, with the number of its references
(`Tally.survey_references`), and the edges of the graph are those pairs whose target is declared in
the file, before or after, or is a component (`surveyed_edges`).
-/

namespace ScriptSurvey

/-- The reference that a site makes, given the sites before it. -/
def Site.reference? (past : List Site) (v : Site) : Option (String × String) :=
  match v.owner?, v.node.referred? with
  | some source, some target =>
    if target ≠ source ∧ target ∉ builtinNames ∧ ¬ Name.isHook target ∧ ¬ Name.isSetter target ∧
        ∀ u ∈ past.filterMap Site.state?, u.setter ≠ target then
      some (source, target)
    else none
  | _, _ => none

theorem Site.reference?_eq_some_iff {past : List Site} {v : Site} {source target : String} :
    v.reference? past = some (source, target) ↔
      v.owner? = some source ∧ (v.node.Calls target ∨ v.node.Renders target) ∧
      target ≠ source ∧ target ∉ builtinNames ∧ ¬ Name.isHook target ∧ ¬ Name.isSetter target ∧
      ∀ u ∈ past.filterMap Site.state?, u.setter ≠ target := by
  rw [← Node.referred?_eq_some_iff]
  unfold reference?
  cases v.owner? with
  | none => simp
  | some s =>
    cases v.node.referred? with
    | none => simp
    | some t =>
      rw [Option.ite_none_right_eq_some, Option.some.injEq, Option.some.injEq, Option.some.injEq,
        Prod.mk.injEq]
      constructor
      · rintro ⟨counts, rfl, rfl⟩
        exact ⟨rfl, rfl, counts⟩
      · rintro ⟨rfl, rfl, counts⟩
        exact ⟨counts, rfl, rfl⟩

namespace Tally

/-! ## Counted references -/

theorem setters_get?_isNone_iff (past : List Site) (target : String) :
    ((survey past).setters.get? target).isNone ↔
      ∀ u ∈ past.filterMap Site.state?, u.setter ≠ target := by
  rw [survey_setters_get?, Option.isNone_map, Option.isNone_iff_eq_none,
    List.getLast?_eq_none_iff, List.filter_eq_nil_iff]
  simp only [decide_eq_true_eq]

theorem atFileScope_scope (v : Site) : v.scope.atFileScope = v.owner?.isNone := by
  unfold Site.scope Scope.atFileScope Site.owner?
  cases Site.declaredAround v.ancestors <;> rfl

theorem not_countsReference (past : List Site) {v : Site} (ho : v.owner? = none) (target : String) :
    ((survey past).inScope v.scope).countsReference target = false := by
  simp [countsReference, atFileScope_scope, ho]

theorem countsReference_iff (past : List Site) {v : Site} {source : String}
    (ho : v.owner? = some source) (target : String) :
    ((survey past).inScope v.scope).countsReference target ↔
      target ≠ source ∧ target ∉ builtinNames ∧ ¬ Name.isHook target ∧ ¬ Name.isSetter target ∧
        ∀ u ∈ past.filterMap Site.state?, u.setter ≠ target := by
  have hs : v.scope.current = source := by simp [Site.scope, Site.owner, ho]
  rw [← setters_get?_isNone_iff]
  simp [countsReference, atFileScope_scope, ho, hs, and_assoc]

/-- A visit counts the reference that the site makes. -/
theorem visitSite_references (past : List Site) (v : Site) :
    ((survey past).visitSite v).references =
      (v.reference? past).elim (survey past).references
        fun pair => (survey past).references.increase pair 1 := by
  rw [visitSite_eq, visit_eq]
  simp only [refer_eq]
  unfold Site.reference?
  cases v.node.referred? with
  | none => cases v.owner? <;> rfl
  | some target =>
    cases ho : v.owner? with
    | none => simp [not_countsReference past ho]
    | some source =>
      have hs : v.scope.current = source := by simp [Site.scope, Site.owner, ho]
      have counts := countsReference_iff past ho target
      by_cases h : ((survey past).inScope v.scope).countsReference target
      · simp only [Option.elim_some, if_pos h, if_pos (counts.mp h)]
        rw [inScope_references, inScope_scope, hs]
      · simp only [Option.elim_some, if_neg h, if_neg (mt counts.mpr h)]
        rfl

theorem survey_references (vs : List Site) :
    (survey vs).references =
      Ledger.counts ((withPast vs).filterMap fun (past, v) => v.reference? past) := by
  rw [← Ledger.written_increase_eq_counts]
  exact survey_written (fun past v => v.reference? past) _ _ rfl visitSite_references vs

end Tally

/-! ## The graph of a tree -/

namespace Node

/-- The names of the functions that are declared in a tree, in order. -/
def declaredNames (root : Node) : List String :=
  (root.sites []).filterMap Site.declared?

/-- The references in a tree that count, in order. -/
def references (root : Node) : List (String × String) :=
  (withPast (root.sites [])).filterMap fun (past, v) => v.reference? past

/-- The edge for a pair of functions, if there is one: its target must be declared in the tree or be
a component. -/
def edge? (root : Node) (pair : String × String) : Option Edge :=
  if pair.2 ∈ root.declaredNames ∨ Name.isComponent pair.2 then
    some { source := pair.1, target := pair.2, calls := root.references.countP (· = pair)
           sourceKind := (Role.ofName pair.1).label
           targetKind := (Role.ofName pair.2).label }
  else none

theorem surveyed_roles (root : Node) :
    root.surveyed.roles =
      (distinct root.declaredNames).map fun name => (name, Role.ofName name) := by
  rw [surveyed, Tally.survey_roles, Ledger.written_id_eq_map, declaredNames]

theorem surveyed_roles_get? (root : Node) (name : String) :
    root.surveyed.roles.get? name =
      if name ∈ root.declaredNames then some (Role.ofName name) else none := by
  rw [surveyed_roles, Ledger.get?_map]
  simp only [mem_distinct]

theorem surveyed_targetRole? (root : Node) (target : String) :
    root.surveyed.targetRole? target =
      if target ∈ root.declaredNames ∨ Name.isComponent target then some (Role.ofName target)
      else none := by
  rw [Tally.targetRole?, surveyed_roles_get?]
  by_cases hd : target ∈ root.declaredNames
  · simp [hd]
  · by_cases hc : Name.isComponent target <;> simp [hd, hc, Role.ofName]

theorem surveyed_sourceRole (root : Node) (source : String) :
    (root.surveyed.roles.get? source).getD (Role.ofName source) = Role.ofName source := by
  rw [surveyed_roles_get?]
  split <;> rfl

/-- **The edges of the graph**: one for each pair of functions between which there is a reference
that counts, in the order of the first one. -/
theorem surveyed_edges (root : Node) :
    root.surveyed.edges = (distinct root.references).filterMap root.edge? := by
  have counted : root.surveyed.references = Ledger.counts root.references :=
    Tally.survey_references _
  rw [Tally.edges, counted, Ledger.counts, List.filterMap_map]
  congr 1
  funext pair
  obtain ⟨source, target⟩ := pair
  simp only [Function.comp, surveyed_targetRole?, surveyed_sourceRole, edge?]
  split <;> rfl

theorem mem_declaredNames_of_mem_references {root : Node} {source target : String}
    (h : (source, target) ∈ root.references) : source ∈ root.declaredNames := by
  obtain ⟨⟨past, v⟩, hv, hr⟩ := List.mem_filterMap.mp h
  obtain ⟨later, hsites⟩ := mem_withPast.mp hv
  have hmem : v ∈ root.sites [] := by simp [hsites]
  have ho := (Site.reference?_eq_some_iff.mp hr).1
  rcases mem_declared_of_mem_declaredAround hmem (List.mem_of_head? ho) with here | around
  · exact here
  · cases around

/-- An edge stands for at least one reference, and its source is declared in the tree. -/
theorem mem_edges {root : Node} {e : Edge} (h : e ∈ root.surveyed.edges) :
    1 ≤ e.calls ∧ e.source ∈ root.declaredNames := by
  rw [surveyed_edges] at h
  obtain ⟨⟨source, target⟩, hp, he⟩ := List.mem_filterMap.mp h
  rw [mem_distinct] at hp
  unfold edge? at he
  split at he
  · cases he
    have hpos : 0 < root.references.countP (· = (source, target)) :=
      List.countP_pos_iff.mpr ⟨_, hp, decide_eq_true rfl⟩
    exact ⟨Int.ofNat_le.mpr hpos, mem_declaredNames_of_mem_references hp⟩
  · cases he

end Node

/-- **The dependency graph of a file.** Each function is declared once in it, in the order of first
declaration. There is an edge for each pair of functions between which a reference counts, in the
order of the first such reference, if the target is declared in the file or is a component; it
carries the number of these references and the roles of the two names. A reference is a call or a
use of a component inside a function, and counts unless its target is that function, a name that
every environment provides, a hook, or a setter by its name or by a state before it. There is a
graph unless the complexity of the tree lies beyond all doubles. -/
theorem analyzeWith_graph (read : TreeReader) (clock : Clock) {filename source : String}
    {root : Node} (hread : read (Syntax.Options.forFile filename) source = .ok root) :
    ((∃ r, analyzeWith read clock filename source = .ok r) ↔ root.cyclomatic < Double.limit) ∧
    (∀ r, analyzeWith read clock filename source = .ok r →
      r.functions = some (distinct root.declaredNames) ∧
      ∃ g, r.graph = some g ∧
        g.functions =
          (distinct root.declaredNames).map (fun name => ⟨name, (Role.ofName name).label⟩) ∧
        g.edges = (distinct root.references).filterMap root.edge? ∧
        ∀ e ∈ g.edges, 1 ≤ e.calls ∧ e.source ∈ distinct root.declaredNames) ∧
    ∀ past v s t, Site.reference? past v = some (s, t) ↔
      v.owner? = some s ∧ (v.node.Calls t ∨ v.node.Renders t) ∧ t ≠ s ∧ t ∉ builtinNames ∧
        ¬ Name.isHook t ∧ ¬ Name.isSetter t ∧ ∀ u ∈ past.filterMap Site.state?, u.setter ≠ t := by
  refine ⟨exists_analyzeWith_iff clock hread, fun r h => ?_,
    fun past v s t => Site.reference?_eq_some_iff⟩
  obtain ⟨m, -, -, rfl⟩ := eq_recorded_of_analyzeWith_eq_ok hread h
  refine ⟨?_, root.surveyed.graph, rfl, ?_, root.surveyed_edges, fun e he => ?_⟩
  · show some (distinct root.surveyed.functions) = _
    rw [Node.surveyed, Tally.survey_functions, Node.declaredNames]
  · show root.surveyed.roles.map _ = _
    rw [Node.surveyed_roles, List.map_map]
    rfl
  · rw [mem_distinct]
    exact Node.mem_edges he

theorem analyzeWith_graph_specimen :
    ∃ r, analyzeWith (fun _ _ => .ok .specimen) {} "app.js" "" = .ok r ∧
      ∃ g, r.graph = some g ∧
        g.edges = [⟨"App", "helper", 2, "component", "helper"⟩,
          ⟨"App", "Panel", 1, "component", "component"⟩] := by
  obtain ⟨exists_iff, content, -⟩ := analyzeWith_graph (fun _ _ => .ok .specimen) {} rfl
  obtain ⟨r, h⟩ := exists_iff.mpr Node.specimen_cyclomatic_lt
  obtain ⟨-, g, hg, -, he, -⟩ := content r h
  exact ⟨r, h, g, hg, he.trans (by decide)⟩

end ScriptSurvey
