import ScriptSurvey.Proofs.Syntax.Acceptance
import ScriptSurvey.Proofs.Walk.References
import ScriptSurvey.Proofs.Walk.StateModel

/-!
# Setters in the dependency graph

The setter of a state is no function that others depend on. By its name a setter is told at once; a
setter of another name is one from the state on that introduces it. The walk meets both in the order
of the file, and a call that stands before the state may mean a function of the same name, as in
`Node.twoUpdates`. So a setter can be the target of an edge, but the edge counts only what stands
before the first state with that setter (`Node.calls_eq_countP`).
-/

namespace ScriptSurvey

namespace Site

/-- Whether a site refers to a name from inside a function, by calling or rendering it. -/
def Refers (source target : String) (v : Site) : Prop :=
  v.owner? = some source ∧ (v.node.Calls target ∨ v.node.Renders target)

instance (source target : String) : DecidablePred (Refers source target) := fun v =>
  decidable_of_iff (v.owner? = some source ∧ v.node.referred? = some target)
    (and_congr_right fun _ => Node.referred?_eq_some_iff)

/-- Whether a site introduces a state with the given setter. -/
def introduces (setter : String) (v : Site) : Bool :=
  v.state?.any (·.setter = setter)

/-- What introduces a state refers to nothing. -/
theorem not_introduces_of_refers {source target : String} {v : Site} (h : v.Refers source target)
    (setter : String) : v.introduces setter = false := by
  have hk : v.node.kind ≠ "variable_declarator" := by
    rcases h.2 with ⟨hc, -⟩ | ⟨ht, -⟩
    · simp [hc]
    · intro hv
      simp [hv, tagKinds] at ht
  simp [introduces, state?, Node.stateAt?, hk]

theorem forall_setter_ne_iff (past : List Site) (target : String) :
    (∀ u ∈ past.filterMap state?, u.setter ≠ target) ↔ past.all (!introduces target ·) := by
  simp only [List.mem_filterMap, List.all_eq_true, introduces]
  constructor
  · intro h v hv
    cases hs : v.state? with
    | none => rfl
    | some u => simpa using h u ⟨v, hv, hs⟩
  · rintro h u ⟨v, hv, hs⟩
    simpa [hs] using h v hv

/-- A reference counts from where no state with that setter stands before, unless its two names rule
it out anywhere. -/
theorem reference?_eq_of_counted {past past' : List Site} {v v' : Site} {source target : String}
    (counted : v'.reference? past' = some (source, target)) :
    v.reference? past = some (source, target) ↔
      v.Refers source target ∧ past.all (!introduces target ·) := by
  obtain ⟨-, -, hne, hbuiltin, hhook, hsetter, -⟩ := reference?_eq_some_iff.mp counted
  rw [reference?_eq_some_iff, ← forall_setter_ne_iff, Refers]
  tauto

end Site

namespace Node

/-- The sites of a tree before the first one that introduces a state with the given setter. -/
def sitesBefore (root : Node) (setter : String) : List Site :=
  (root.sites []).takeWhile (!Site.introduces setter ·)

/-- The references that count between two names, between which there is one, are those that stand
before the first state with the target as its setter. -/
theorem countP_references {root : Node} {source target : String}
    (h : (source, target) ∈ root.references) :
    root.references.countP (· = (source, target)) =
      (root.sitesBefore target).countP (Site.Refers source target) := by
  obtain ⟨⟨past', v'⟩, -, counted⟩ := List.mem_filterMap.mp h
  rw [sitesBefore, ← countP_withPast (q := fun v => decide (Site.Refers source target v)),
    references, List.countP_filterMap]
  · refine List.countP_congr fun ⟨past, v⟩ _ => ?_
    have here : v.reference? past = some (source, target) ↔ _ :=
      Site.reference?_eq_of_counted counted
    cases hr : v.reference? past <;> simp_all
  · intro v hv
    rw [Site.not_introduces_of_refers (of_decide_eq_true hv)]
    rfl

theorem reference_of_mem_edges {root : Node} {e : Edge} (h : e ∈ root.surveyed.edges) :
    (e.source, e.target) ∈ root.references ∧
      e.calls = root.references.countP (· = (e.source, e.target)) := by
  rw [surveyed_edges] at h
  obtain ⟨pair, hp, he⟩ := List.mem_filterMap.mp h
  rw [mem_distinct] at hp
  unfold edge? at he
  split at he
  · cases he
    exact ⟨hp, rfl⟩
  · cases he

/-- **An edge counts the references before the first state that makes its target a setter.** -/
theorem calls_eq_countP {root : Node} {e : Edge} (h : e ∈ root.surveyed.edges) :
    e.calls = (root.sitesBefore e.target).countP (Site.Refers e.source e.target) := by
  obtain ⟨href, hcalls⟩ := reference_of_mem_edges h
  rw [hcalls, countP_references href]

theorem not_isSetter_of_mem_edges {root : Node} {e : Edge} (h : e ∈ root.surveyed.edges) :
    ¬ Name.isSetter e.target := by
  obtain ⟨⟨past, v⟩, -, counted⟩ := List.mem_filterMap.mp (reference_of_mem_edges h).1
  exact (Site.reference?_eq_some_iff.mp counted).2.2.2.2.2.1

/-- A state that makes the target of an edge a setter has a reference of the edge before it. -/
theorem exists_refers_before {root : Node} {e : Edge} (h : e ∈ root.surveyed.edges)
    {before after : List Site} {w : Site} (hsites : root.sites [] = before ++ w :: after)
    (hw : w.introduces e.target) : ∃ v ∈ before, v.Refers e.source e.target := by
  have hpos : 0 < (root.sitesBefore e.target).countP (Site.Refers e.source e.target) := by
    have := (mem_edges h).1
    rw [calls_eq_countP h] at this
    omega
  obtain ⟨v, hv, hr⟩ := List.countP_pos_iff.mp hpos
  refine ⟨v, ?_, of_decide_eq_true hr⟩
  have hcut : (w :: after).takeWhile (!Site.introduces e.target ·) = [] := by simp [hw]
  rw [sitesBefore, hsites, List.takeWhile_append, hcut, List.append_nil] at hv
  split at hv
  · exact hv
  · exact List.takeWhile_subset _ hv

end Node

/-- **Calls of setters in the dependency graph.** No edge leads to a name that has the form of a
setter. An edge to any other name counts exactly the references that stand before the first state
with that setter, if there is one; so each state that has the target of an edge as its setter comes
after a reference that the edge counts. There is a record unless the complexity of the tree lies
beyond all doubles. -/
theorem analyzeWith_setter_edges (read : TreeReader) (clock : Clock) {filename source : String}
    {root : Node} (hread : read (Syntax.Options.forFile filename) source = .ok root) :
    ((∃ r, analyzeWith read clock filename source = .ok r) ↔ root.cyclomatic < Double.limit) ∧
    ∀ r, analyzeWith read clock filename source = .ok r →
      ∃ g model, r.graph = some g ∧ r.stateModel = some model ∧
        model.states = (root.sites []).filterMap Site.state? ∧
        ∀ e ∈ g.edges, ¬ Name.isSetter e.target ∧
          1 ≤ e.calls ∧
          e.calls = (root.sitesBefore e.target).countP (Site.Refers e.source e.target) ∧
          ∀ before w after u, root.sites [] = before ++ w :: after → w.state? = some u →
            u.setter = e.target → ∃ v ∈ before, v.Refers e.source e.target := by
  refine ⟨exists_analyzeWith_iff clock hread, fun r h => ?_⟩
  obtain ⟨m, -, -, rfl⟩ := eq_recorded_of_analyzeWith_eq_ok hread h
  refine ⟨root.surveyed.graph, _, rfl, rfl, Tally.survey_states _, fun e he => ?_⟩
  refine ⟨Node.not_isSetter_of_mem_edges he, (Node.mem_edges he).1, Node.calls_eq_countP he, ?_⟩
  intro before w after u hsites hu hset
  exact Node.exists_refers_before he hsites (by simp [Site.introduces, hu, hset])

section TwoUpdates

/-- The tree of a file with a function and, further down, a setter of the same name:

`function update() {}`
`function Panel() { update() }`
`function Form() { const [value, update] = useState(0); update(1) }` -/
def Node.twoUpdates : Node where
  kind := "program"
  children := [
    { kind := "function_declaration", children := [bareName "name" "update"] },
    { kind := "function_declaration", children := [bareName "name" "Panel", callOf "update" []] },
    { kind := "function_declaration"
      children := [bareName "name" "Form",
        { kind := "variable_declarator"
          children := [
            { kind := "array_pattern", field := some "name"
              children := [
                { kind := "identifier", text := "value" },
                { kind := "identifier", text := "update" }] },
            { callOf "useState" [{ kind := "number", text := "0" }] with
              field := some "value" }] },
        callOf "update" [{ kind := "number", text := "1" }]] }]

theorem Node.read_twoUpdates (filename source : String) :
    TreeReader.ofTrees (fun _ _ => twoUpdates) (.forFile filename) source = .ok twoUpdates := rfl

theorem Node.twoUpdates_cyclomatic_lt : twoUpdates.cyclomatic < Double.limit :=
  Double.lt_limit_of_le_hundred (by decide)

theorem analyzeWith_setter_edges_twoUpdates :
    (∃ r, analyzeWith (.ofTrees fun _ _ => .twoUpdates) {} "a.jsx" "" = .ok r ∧
      ∃ g, r.graph = some g ∧
        ∀ e ∈ g.edges, e.calls = (Node.twoUpdates.sitesBefore e.target).countP
          (Site.Refers e.source e.target)) ∧
    (Node.twoUpdates.sitesBefore "update").countP (Site.Refers "Panel" "update") = 1 ∧
    (Node.twoUpdates.sites []).countP (Site.Refers "Form" "update") = 1 ∧
    (Node.twoUpdates.sitesBefore "update").countP (Site.Refers "Form" "update") = 0 := by
  refine ⟨?_, by decide, by decide, by decide⟩
  obtain ⟨exists_iff, content⟩ := analyzeWith_setter_edges _ {} (Node.read_twoUpdates "a.jsx" "")
  obtain ⟨r, h⟩ := exists_iff.mpr Node.twoUpdates_cyclomatic_lt
  obtain ⟨g, model, hg, -, -, edges⟩ := content r h
  exact ⟨r, h, g, hg, fun e he => (edges e he).2.2.1⟩

/-- The call in `Panel` makes an edge to `update`, which is also the setter of a state. -/
theorem setter_edge_of_twoUpdates :
    ∃ r, analyzeWith (.ofTrees fun _ _ => .twoUpdates) {} "a.jsx" "" = .ok r ∧
      ∃ g model, r.graph = some g ∧ r.stateModel = some model ∧
        g.edges = [⟨"Panel", "update", 1, "component", "helper"⟩] ∧
        model.states = [⟨"value", "update", "0", "Form"⟩] := by
  obtain ⟨m, h⟩ := analyzeWith_ok {} (Node.read_twoUpdates "a.jsx" "") Node.twoUpdates_cyclomatic_lt
  have edges : Node.twoUpdates.surveyed.edges =
      [⟨"Panel", "update", 1, "component", "helper"⟩] := by
    rw [Node.surveyed_edges]
    decide
  have states : Node.twoUpdates.surveyed.states = [⟨"value", "update", "0", "Form"⟩] := by
    rw [Node.surveyed, Tally.survey_states]
    decide
  refine ⟨_, h, Node.twoUpdates.surveyed.graph, ⟨Node.twoUpdates.surveyed.states, _, _⟩, rfl, rfl,
    edges, ?_⟩
  dsimp only
  exact states

end TwoUpdates

end ScriptSurvey
