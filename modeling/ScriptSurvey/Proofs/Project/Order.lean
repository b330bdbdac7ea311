import ScriptSurvey.Proofs.Project.Merge
import ScriptSurvey.Proofs.Project.Summary
import ScriptSurvey.Proofs.Walk.References

/-!
# The order of the files does not matter

A merged graph depends on the order of the graphs: the last kind of a name decides. But an analysis
gives each name the kind that follows from its form, wherever it declares or refers to it
(`Node.graph_classified`), and on such graphs another order only reorders what is merged
(`Graph.merge_perm`). The other figures of a summary are sums, means and lists, so that the
summaries of the same records in two orders agree (`Summary.figures_agree`).
-/

namespace ScriptSurvey

/-! ## Merging in another order -/

namespace Graph

/-- A graph that gives each name the kind that follows from its form. -/
structure Classified (g : Graph) : Prop where
  functions : ∀ fn ∈ g.functions, fn.kind = (Role.ofName fn.name).label
  edges : ∀ e ∈ g.edges, e.sourceKind = (Role.ofName e.source).label ∧
    e.targetKind = (Role.ofName e.target).label

/-- The last members of a list in two orders give the same, if all members do. -/
theorem getLast?_map_eq_of_perm {α β : Type} {as bs : List α} {f : α → β} (h : as.Perm bs)
    (same : ∀ a ∈ as, ∀ b ∈ as, f a = f b) : as.getLast?.map f = bs.getLast?.map f := by
  cases ha : as.getLast? with
  | none =>
    rw [List.getLast?_eq_none_iff] at ha
    subst ha
    rw [h.symm.eq_nil]
    rfl
  | some a =>
    cases hb : bs.getLast? with
    | none =>
      rw [List.getLast?_eq_none_iff] at hb
      subst hb
      rw [h.eq_nil] at ha
      cases ha
    | some b =>
      have hb' : b ∈ as := h.mem_iff.mpr (List.mem_of_getLast? hb)
      exact congrArg some (same a (List.mem_of_getLast? ha) b hb')

variable {gs gs' : List Graph}

theorem kind_of_mem_kindsOf (hc : ∀ g ∈ gs, g.Classified) {name kind : String}
    (h : kind ∈ kindsOf gs name) : kind = (Role.ofName name).label := by
  obtain ⟨fn, hfn, rfl⟩ := List.mem_map.mp h
  obtain ⟨hfn, hname⟩ := List.mem_filter.mp hfn
  obtain ⟨g, hg, hfn⟩ := List.mem_flatMap.mp hfn
  rw [← of_decide_eq_true hname]
  exact (hc g hg).functions fn hfn

theorem kinds_of_mem_edgesOf (hc : ∀ g ∈ gs, g.Classified) {pair : String × String} {e : Edge}
    (h : e ∈ edgesOf gs pair) :
    e.sourceKind = (Role.ofName pair.1).label ∧ e.targetKind = (Role.ofName pair.2).label := by
  obtain ⟨he, hpair⟩ := List.mem_filter.mp h
  obtain ⟨g, hg, he⟩ := List.mem_flatMap.mp he
  rw [← of_decide_eq_true hpair]
  exact (hc g hg).edges e he

theorem lastKind_perm (h : gs.Perm gs') (hc : ∀ g ∈ gs, g.Classified) (name : String) :
    (kindsOf gs name).getLast? = (kindsOf gs' name).getLast? := by
  have hp : (kindsOf gs name).Perm (kindsOf gs' name) := ((h.flatMap_right _).filter _).map _
  have last := getLast?_map_eq_of_perm (f := id) hp fun a ha b hb =>
    (kind_of_mem_kindsOf hc ha).trans (kind_of_mem_kindsOf hc hb).symm
  simpa using last

theorem edge?_perm (h : gs.Perm gs') (hc : ∀ g ∈ gs, g.Classified) : edge? gs = edge? gs' := by
  funext pair
  have hp : (edgesOf gs pair).Perm (edgesOf gs' pair) := (h.flatMap_right _).filter _
  rw [edge?, edge?, (hp.map (·.calls)).sum_eq]
  simp only [lastKind_perm h hc]
  refine getLast?_map_eq_of_perm hp fun a ha b hb => ?_
  obtain ⟨has, hat⟩ := kinds_of_mem_edgesOf hc ha
  obtain ⟨hbs, hbt⟩ := kinds_of_mem_edgesOf hc hb
  rw [has, hat, hbs, hbt]

/-- **Graphs that agree on the kinds of names may be merged in any order.** -/
theorem merge_perm (h : gs.Perm gs') (hc : ∀ g ∈ gs, g.Classified) :
    (merge gs).functions.Perm (merge gs').functions ∧ (merge gs).edges.Perm (merge gs').edges ∧
      (merge gs).roots.Perm (merge gs').roots := by
  have hd : declared? gs = declared? gs' := by
    funext name
    rw [declared?, declared?, lastKind_perm h hc]
  rw [merge_eq, merge_eq gs', ← hd, ← edge?_perm h hc]
  exact ⟨(distinct_perm (h.flatMap_right _)).filterMap _,
    (distinct_perm (h.flatMap_right _)).filterMap _, distinct_perm (h.flatMap_right _)⟩

end Graph

/-- The graph of a file gives each name the kind that follows from its form. -/
theorem Node.graph_classified (root : Node) : root.surveyed.graph.Classified where
  functions := by
    intro fn hfn
    simp only [Tally.graph, surveyed_roles, List.mem_map] at hfn
    obtain ⟨_, ⟨name, -, rfl⟩, rfl⟩ := hfn
    rfl
  edges := by
    intro e he
    simp only [Tally.graph, surveyed_edges] at he
    obtain ⟨pair, -, he⟩ := List.mem_filterMap.mp he
    unfold edge? at he
    split at he
    · cases he
      exact ⟨rfl, rfl⟩
    · cases he

/-! ## Summaries in another order -/

/-- A record that an analysis returned, or the record of a failure. -/
inductive Record.Produced : Record → Prop where
  | analyzed {read : TreeReader} {clock : Clock} {filename source : String} {r : Record}
    (h : analyzeWith read clock filename source = .ok r) : Produced r
  | failed (filename : String) (lineCount : Int) (message : String) (time : Double) :
    Produced (Record.failed filename lineCount message time)

namespace Record.Produced

theorem isOf {r : Record} (h : r.Produced) : ∃ filename lineCount, r.IsOf filename lineCount := by
  cases h with
  | analyzed h => exact ⟨_, _, isOf_of_analyzeWith_eq_ok h⟩
  | failed => exact ⟨_, _, .failed ..⟩

theorem graph_classified {r : Record} (h : r.Produced) : ∀ g ∈ r.graph, g.Classified := by
  obtain ⟨filename, lineCount, h⟩ := h.isOf
  cases h with
  | failed => nofun
  | recorded root =>
    rintro _ ⟨⟩
    exact root.graph_classified

end Record.Produced

namespace Summary

/-- Two summaries that have the same numbers and, up to the order, the same lists; the times are
left out. -/
structure Agree (a b : Summary) : Prop where
  totalFiles : a.totalFiles = b.totalFiles
  failedFiles : a.failedFiles = b.failedFiles
  totalLines : a.totalLines = b.totalLines
  totalFunctions : a.totalFunctions = b.totalFunctions
  totalVariables : a.totalVariables = b.totalVariables
  totalHandlers : a.totalHandlers = b.totalHandlers
  totalComponents : a.totalComponents = b.totalComponents
  hooks : a.hooks.Perm b.hooks
  importSources : a.importSources.Perm b.importSources
  totalIssues : a.totalIssues = b.totalIssues
  averageQuality : a.averageQuality = b.averageQuality
  averageCyclomatic : a.averageCyclomatic = b.averageCyclomatic
  averageMaintainability : a.averageMaintainability = b.averageMaintainability
  totalCoupling : a.totalCoupling = b.totalCoupling
  totalWeightedMethods : a.totalWeightedMethods = b.totalWeightedMethods
  functions : a.graph.functions.Perm b.graph.functions
  edges : a.graph.edges.Perm b.graph.edges
  roots : a.graph.roots.Perm b.graph.roots
  states : a.states.Perm b.states
  transitions : a.transitions.Perm b.transitions
  effects : a.effects.Perm b.effects

theorem mean_perm {values values' : List Int} (h : values.Perm values') :
    mean values = mean values' := by
  rw [mean, mean, total_eq_sum, total_eq_sum, h.sum_eq, h.length_eq, h.isEmpty_eq]

theorem figures_agree {rs rs' : List Record} (h : rs.Perm rs')
    (hc : ∀ r ∈ rs, ∀ g ∈ r.graph, g.Classified) (q c m : Int) :
    (figures rs q c m).Agree (figures rs' q c m) := by
  have read : (rs.filter (·.ok)).Perm (rs'.filter (·.ok)) := h.filter _
  have classified : ∀ g ∈ (rs.filter (·.ok)).filterMap (·.graph), g.Classified := by
    intro g hg
    obtain ⟨r, hr, hg⟩ := List.mem_filterMap.mp hg
    exact hc r (List.mem_of_mem_filter hr) g hg
  obtain ⟨functions, edges, roots⟩ := Graph.merge_perm (read.filterMap (·.graph)) classified
  have sums {α : Type} (finding : Record → Option α) (size : α → Int) :
      total (((rs.filter (·.ok)).filterMap finding).map size) =
        total (((rs'.filter (·.ok)).filterMap finding).map size) :=
    ((read.filterMap finding).map size).sum_eq
  exact {
    totalFiles := congrArg Int.ofNat h.length_eq
    failedFiles := by simp only [figures, h.length_eq, read.length_eq]
    totalLines := (h.map _).sum_eq
    totalFunctions := sums ..
    totalVariables := sums ..
    totalHandlers := sums ..
    totalComponents := sums ..
    hooks := distinct_perm (read.filterMap _).flatten
    importSources := distinct_perm ((read.filterMap _).map _).flatten
    totalIssues := sums ..
    averageQuality := rfl
    averageCyclomatic := rfl
    averageMaintainability := rfl
    totalCoupling := sums ..
    totalWeightedMethods := sums ..
    functions, edges, roots
    states := (read.filterMap _).flatMap_right _
    transitions := (read.filterMap _).flatMap_right _
    effects := (read.filterMap _).flatMap_right _ }

theorem ofRecords_of_produced {rs : List Record} (hp : ∀ r ∈ rs, r.Produced) :
    ∃ q c m, mean ((rs.filter (·.ok)).map (·.quality)) = .ok q ∧
      mean (((rs.filter (·.ok)).filterMap (·.metrics)).map (·.cyclomatic)) = .ok c ∧
      mean (((rs.filter (·.ok)).filterMap (·.metrics)).map (·.maintainability)) = .ok m ∧
      ofRecords rs = .ok (figures rs q c m) := by
  refine ofRecords_ok (fun r hr => ?_) fun r hr => ?_
  all_goals obtain ⟨_, _, h⟩ := (hp r hr).isOf
  · exact h.complete_or_blank
  · exact h.bounded

/-- **The order of the files does not matter**: the summaries of the records of analyses and
failures, and of the same records in another order, both have a value, and the two agree. -/
theorem ofRecords_perm {rs rs' : List Record} (hp : ∀ r ∈ rs, r.Produced) (h : rs.Perm rs') :
    ∃ a b, ofRecords rs = .ok a ∧ ofRecords rs' = .ok b ∧ a.Agree b := by
  have hp' : ∀ r ∈ rs', r.Produced := fun r hr => hp r (h.mem_iff.mpr hr)
  obtain ⟨q, c, m, hq, hc, hm, ha⟩ := ofRecords_of_produced hp
  obtain ⟨q', c', m', hq', hc', hm', hb⟩ := ofRecords_of_produced hp'
  have read : (rs.filter (·.ok)).Perm (rs'.filter (·.ok)) := h.filter _
  obtain rfl : q = q' := Except.ok.inj (hq.symm.trans ((mean_perm (read.map _)).trans hq'))
  obtain rfl : c = c' :=
    Except.ok.inj (hc.symm.trans ((mean_perm ((read.filterMap _).map _)).trans hc'))
  obtain rfl : m = m' :=
    Except.ok.inj (hm.symm.trans ((mean_perm ((read.filterMap _).map _)).trans hm'))
  exact ⟨_, _, ha, hb, figures_agree h (fun r hr => (hp r hr).graph_classified) q c m⟩

theorem ofRecords_perm_specimen :
    ∃ r, analyzeWith (fun _ _ => .ok .specimen) {} "app.js" "" = .ok r ∧
      ∃ a b, ofRecords [r, Record.failed "b.js" 3 "refused"] = .ok a ∧
        ofRecords [Record.failed "b.js" 3 "refused", r] = .ok b ∧ a.Agree b := by
  obtain ⟨m, h⟩ : ∃ m, analyzeWith (fun _ _ => .ok .specimen) {} "app.js" "" =
      .ok (Node.specimen.recorded "app.js" (Text.lineCount "") m ({} : Clock).elapsed) :=
    analyzeWith_ok {} rfl Node.specimen_cyclomatic_lt
  refine ⟨_, h, ofRecords_perm ?_ (List.Perm.swap ..)⟩
  intro r hr
  rcases List.mem_pair.mp hr with rfl | rfl
  · exact .analyzed h
  · exact .failed ..

end Summary

end ScriptSurvey
