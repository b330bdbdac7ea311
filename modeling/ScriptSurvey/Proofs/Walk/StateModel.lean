import ScriptSurvey.Proofs.Analysis

/-!
# The state model of a file

States come from declarators that bind a pair of names to a call of `useState`
(`Node.BindsState`), effects from the calls of the effect hooks, and transitions from the calls of
setters. Which state a call changes is decided by the states that stand before it in the file: of
those with the setter of that name, the latest (`Site.transition?_eq_some_iff`). The walk keeps a
table of setters for this, to which each state writes (`Tally.survey_setters`).

Each of the three belongs to the nearest function around it.
-/

namespace ScriptSurvey

namespace Node

/-- A declarator that binds the pair of two names, and nothing else, to a call of `useState`. -/
structure BindsState (n name setter value : Node) : Prop where
  kind : n.kind = "variable_declarator"
  pattern : ∃ pair, n.childByField "name" = some pair ∧ pair.kind = "array_pattern" ∧
    pair.parts = [name, setter]
  name_kind : name.kind = "identifier"
  setter_kind : setter.kind = "identifier"
  value_eq : n.childByField "value" = some value
  value_calls : value.Calls "useState"

theorem stateAt?_eq_some_iff {n : Node} {owner : String} {u : StateUnit} :
    n.stateAt? owner = some u ↔ ∃ name setter value, BindsState n name setter value ∧
      u = { name := name.text, setter := setter.text
            initial := initialValue value.arguments.head?, owner } := by
  constructor
  · intro h
    have hk : n.kind = "variable_declarator" := by
      by_contra hk
      simp [stateAt?, hk] at h
    simp only [stateAt?, hk, BEq.rfl, if_true] at h
    obtain ⟨pair, hpair, h⟩ := Option.bind_eq_some_iff.mp h
    obtain ⟨⟨⟩, hkind, h⟩ := Option.bind_eq_some_iff.mp h
    obtain ⟨value, hvalue, h⟩ := Option.bind_eq_some_iff.mp h
    obtain ⟨⟨⟩, hcall, h⟩ := Option.bind_eq_some_iff.mp h
    obtain ⟨⟨⟩, hname, h⟩ := Option.bind_eq_some_iff.mp h
    rw [Option.guard_eq_some', beq_iff_eq] at hkind hcall hname
    split at h
    · rename_i name setter hparts
      obtain ⟨⟨⟩, hnames, h⟩ := Option.bind_eq_some_iff.mp h
      rw [Option.guard_eq_some', Bool.and_eq_true, beq_iff_eq, beq_iff_eq] at hnames
      exact ⟨name, setter, value, ⟨hk, ⟨pair, hpair, hkind, hparts⟩, hnames.1, hnames.2, hvalue,
        hcall, textOf?_eq_some_iff.mp hname⟩, (Option.some.inj h).symm⟩
    · cases h
  · rintro ⟨name, setter, value, h, rfl⟩
    obtain ⟨pair, hpair, hkind, hparts⟩ := h.pattern
    obtain ⟨hcall, hcallee⟩ := h.value_calls
    have hname : value.calleeName? = some "useState" := textOf?_eq_some_iff.mpr hcallee
    simp [stateAt?, stateOf?, h.kind, hpair, hkind, h.value_eq, hcall, hname, hparts, h.name_kind,
      h.setter_kind, guard]

end Node

namespace Site

/-- The transition that a site makes, given the sites before it: it calls the setter of a state, and
the latest one counts. -/
def transition? (past : List Site) (v : Site) : Option Transition :=
  v.node.called?.bind fun name =>
    ((past.filterMap state?).filter (·.setter = name)).getLast?.map fun u =>
      { state := u.name, setter := name, owner := v.owner }

theorem effect?_eq_some_iff {v : Site} {e : Effect} :
    v.effect? = some e ↔ v.node.Calls e.kind ∧ e.kind ∈ effectHooks ∧
      e.dependencies = v.node.dependencyNames ∧ e.owner = v.owner := by
  rw [← Node.called?_eq_some_iff]
  obtain ⟨owner, dependencies, kind⟩ := e
  simp only [effect?, Node.effectAt?, Option.map_eq_some_iff, Option.filter_eq_some_iff,
    Effect.mk.injEq, List.contains_iff_mem]
  constructor
  · rintro ⟨name, ⟨hn, he⟩, rfl, rfl, rfl⟩
    exact ⟨hn, he, rfl, rfl⟩
  · rintro ⟨hn, he, rfl, rfl⟩
    exact ⟨kind, ⟨hn, he⟩, rfl, rfl, rfl⟩

theorem transition?_eq_some_iff {past : List Site} {v : Site} {x : Transition} :
    v.transition? past = some x ↔ v.node.Calls x.setter ∧ x.owner = v.owner ∧
      ∃ earlier u later, past.filterMap state? = earlier ++ u :: later ∧
        u.setter = x.setter ∧ u.name = x.state ∧ ∀ w ∈ later, w.setter ≠ x.setter := by
  rw [← Node.called?_eq_some_iff]
  obtain ⟨state, setter, owner⟩ := x
  simp only [transition?, Option.bind_eq_some_iff, Option.map_eq_some_iff,
    getLast?_filter_eq_some_iff, Transition.mk.injEq, decide_eq_true_eq]
  constructor
  · rintro ⟨name, hn, u, ⟨hs, earlier, later, hpast, hl⟩, rfl, rfl, rfl⟩
    exact ⟨hn, rfl, earlier, u, later, hpast, hs, rfl, hl⟩
  · rintro ⟨hn, rfl, earlier, u, later, hpast, hs, rfl, hl⟩
    exact ⟨setter, hn, u, ⟨hs, earlier, later, hpast, hl⟩, rfl, rfl, rfl⟩

/-- A transition is one of a state that stands before it. -/
theorem exists_state_of_transition? {past : List Site} {v : Site} {x : Transition}
    (h : v.transition? past = some x) :
    ∃ u ∈ past.filterMap state?, u.name = x.state ∧ u.setter = x.setter := by
  obtain ⟨-, -, earlier, u, later, hpast, hs, hn, -⟩ := transition?_eq_some_iff.mp h
  exact ⟨u, by simp [hpast], hn, hs⟩

end Site

namespace Tally

theorem visitSite_transitions (past : List Site) (v : Site) :
    ((survey past).visitSite v).transitions =
      (survey past).transitions ++ (v.transition? past).toList := by
  rw [visitSite_eq, visit_eq]
  unfold Site.transition? transition?
  simp only [inScope_setters, survey_setters_get?, Option.map_map]
  rfl

theorem survey_transitions (vs : List Site) :
    (survey vs).transitions = (withPast vs).filterMap fun (past, v) => v.transition? past :=
  survey_withPast rfl visitSite_transitions vs

end Tally

/-- **The state model of a file.** The states are the declarators that bind a pair of names to a
call of `useState`, the effects are the calls of effect hooks, and the transitions are the calls of
the setter of a state that stands before, of which the latest is meant, all in the order of the file
and all owned by the nearest function around. So each transition has its state in the model. There
is a model unless the complexity of the tree lies beyond all doubles. -/
theorem analyzeWith_stateModel (read : TreeReader) (clock : Clock) {filename source : String}
    {root : Node} (hread : read (Syntax.Options.forFile filename) source = .ok root) :
    ((∃ r, analyzeWith read clock filename source = .ok r) ↔ root.cyclomatic < Double.limit) ∧
    (∀ r, analyzeWith read clock filename source = .ok r → ∃ model, r.stateModel = some model ∧
      model.states = (root.sites []).filterMap Site.state? ∧
      model.effects = (root.sites []).filterMap Site.effect? ∧
      model.transitions =
        ((withPast (root.sites [])).filterMap fun (past, v) => v.transition? past) ∧
      ∀ x ∈ model.transitions, ∃ u ∈ model.states, u.name = x.state ∧ u.setter = x.setter) ∧
    (∀ v u, Site.state? v = some u ↔
      ∃ name setter value, v.node.BindsState name setter value ∧
        u = { name := name.text, setter := setter.text
              initial := Node.initialValue value.arguments.head?, owner := v.owner }) ∧
    (∀ v e, Site.effect? v = some e ↔ v.node.Calls e.kind ∧ e.kind ∈ effectHooks ∧
      e.dependencies = v.node.dependencyNames ∧ e.owner = v.owner) ∧
    (∀ past v x, Site.transition? past v = some x ↔ v.node.Calls x.setter ∧ x.owner = v.owner ∧
      ∃ earlier u later, past.filterMap Site.state? = earlier ++ u :: later ∧
        u.setter = x.setter ∧ u.name = x.state ∧ ∀ w ∈ later, w.setter ≠ x.setter) := by
  refine ⟨exists_analyzeWith_iff clock hread, fun r h => ?_, fun v u => Node.stateAt?_eq_some_iff,
    fun v e => Site.effect?_eq_some_iff, fun past v x => Site.transition?_eq_some_iff⟩
  obtain ⟨m, -, -, rfl⟩ := eq_recorded_of_analyzeWith_eq_ok hread h
  have hs : root.surveyed.states = (root.sites []).filterMap Site.state? := Tally.survey_states _
  have ht : root.surveyed.transitions =
      (withPast (root.sites [])).filterMap fun (past, v) => v.transition? past :=
    Tally.survey_transitions _
  refine ⟨_, rfl, hs, Tally.survey_effects _, ht, fun x hx => ?_⟩
  dsimp only at hx ⊢
  rw [ht] at hx
  obtain ⟨⟨past, v⟩, hv, hx⟩ := List.mem_filterMap.mp hx
  obtain ⟨later, hsites⟩ := mem_withPast.mp hv
  obtain ⟨u, hu, hx⟩ := Site.exists_state_of_transition? hx
  refine ⟨u, ?_, hx⟩
  rw [hs, hsites, List.filterMap_append]
  exact List.mem_append_left _ hu

theorem analyzeWith_stateModel_specimen :
    ∃ r, analyzeWith (fun _ _ => .ok .specimen) {} "app.js" "" = .ok r ∧
      ∃ model, r.stateModel = some model ∧ model.states = [⟨"n", "setN", "0", "App"⟩] ∧
        model.effects = [⟨"App", ["n"], "useEffect"⟩] ∧
        model.transitions = [⟨"n", "setN", "App"⟩] := by
  obtain ⟨exists_iff, content, -⟩ := analyzeWith_stateModel (fun _ _ => .ok .specimen) {} rfl
  obtain ⟨r, h⟩ := exists_iff.mpr Node.specimen_cyclomatic_lt
  obtain ⟨model, hm, hs, he, ht, -⟩ := content r h
  exact ⟨r, h, model, hm, hs.trans (by decide), he.trans (by decide), ht.trans (by decide)⟩

end ScriptSurvey
