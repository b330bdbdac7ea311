import Mathlib.Algebra.BigOperators.Group.List.Basic
import Mathlib.Algebra.Ring.Int.Defs
import ScriptSurvey.Project.Merge
import ScriptSurvey.Proofs.History

/-!
# Merging in stages

A merged graph is known by what the graphs say about each name and each pair of names: the kinds
that they give a function (`kindsOf`), the last of which decides, and the edges between two
functions (`edgesOf`), whose calls add up (`merge_eq`).

Of several graphs a merged one keeps the last kind of each function and one edge for each pair
(`kindsOf_merge`, `edgesOf_merge`). The ends of that edge may have taken over the kinds of
declarations; but then the name is declared, so that the kind on the edge is not asked for again
when the graph is merged with others (`lastKind_getD`). Merging can therefore be done in stages.
-/

namespace ScriptSurvey

/-- The two functions that an edge is between. -/
def Edge.pair (e : Edge) : String × String :=
  (e.source, e.target)

namespace Graph

/-- The names of the functions that a graph declares. -/
def names (g : Graph) : List String :=
  g.functions.map (·.name)

/-- The pairs of functions between which a graph has an edge. -/
def pairs (g : Graph) : List (String × String) :=
  g.edges.map Edge.pair

/-! ## What graphs say about a name and about a pair -/

/-- The kinds that graphs give a function, in order. -/
def kindsOf (gs : List Graph) (name : String) : List String :=
  ((gs.flatMap (·.functions)).filter (·.name = name)).map (·.kind)

/-- The edges of graphs between two functions, in order. -/
def edgesOf (gs : List Graph) (pair : String × String) : List Edge :=
  (gs.flatMap (·.edges)).filter (·.pair = pair)

/-- The function that graphs declare under a name, if they do. -/
def declared? (gs : List Graph) (name : String) : Option Declared :=
  (kindsOf gs name).getLast?.map fun kind => ⟨name, kind⟩

/-- The one edge that stands for all edges of graphs between two functions, if there are any. -/
def edge? (gs : List Graph) (pair : String × String) : Option Edge :=
  (edgesOf gs pair).getLast?.map fun last =>
    { source := pair.1, target := pair.2
      calls := ((edgesOf gs pair).map (·.calls)).sum
      sourceKind := (kindsOf gs pair.1).getLast?.getD last.sourceKind
      targetKind := (kindsOf gs pair.2).getLast?.getD last.targetKind }

theorem kinds_get? (gs : List Graph) (name : String) :
    (kinds gs).get? name = (kindsOf gs name).getLast? := by
  rw [kindsOf, List.getLast?_map]
  exact Ledger.get?_written_const Declared.kind Declared.name _ name

theorem links_get? (gs : List Graph) (pair : String × String) :
    (links gs).get? pair = (edgesOf gs pair).getLast?.map fun last =>
      ⟨((edgesOf gs pair).map (·.calls)).sum, last.sourceKind, last.targetKind⟩ := by
  refine (Ledger.get?_written _ Edge.pair _ pair).trans ?_
  unfold edgesOf
  induction (gs.flatMap (·.edges)).filter (·.pair = pair) using List.reverseRecOn with
  | nil => rfl
  | append_singleton es e ih =>
    rw [List.foldl_append, ih]
    rcases es.eq_nil_or_concat with rfl | ⟨es, last, rfl⟩ <;> simp [Int.add_assoc]

/-- **What a merged graph is**: each name and each pair of names once, in the order of first
occurrence, with what the graphs say about it. -/
theorem merge_eq (gs : List Graph) :
    merge gs =
      { functions := (distinct (gs.flatMap names)).filterMap (declared? gs)
        edges := (distinct (gs.flatMap pairs)).filterMap (edge? gs)
        roots := distinct (gs.flatMap (·.roots)) } := by
  have hk : kinds gs = (distinct ((gs.flatMap (·.functions)).map (·.name))).filterMap
      fun name => ((kinds gs).get? name).map (name, ·) :=
    Ledger.written_eq_filterMap ..
  have hl : links gs = (distinct ((gs.flatMap (·.edges)).map Edge.pair)).filterMap
      fun pair => ((links gs).get? pair).map (pair, ·) :=
    Ledger.written_eq_filterMap ..
  simp only [merge, Graph.mk.injEq, and_true]
  constructor
  · rw [hk, List.map_filterMap, List.map_flatMap]
    simp only [kinds_get?, Option.map_map]
    rfl
  · rw [hl, List.map_filterMap, List.map_flatMap]
    simp only [links_get?, kinds_get?, Option.map_map]
    rfl

/-! ## What a merged graph says -/

theorem names_merge (gs : List Graph) : (merge gs).names = distinct (gs.flatMap names) := by
  have hk : (kinds gs).keys = distinct ((gs.flatMap (·.functions)).map (·.name)) :=
    Ledger.keys_written ..
  rw [List.map_flatMap] at hk
  rw [names, merge, List.map_map]
  exact hk

theorem pairs_merge (gs : List Graph) : (merge gs).pairs = distinct (gs.flatMap pairs) := by
  have hl : (links gs).keys = distinct ((gs.flatMap (·.edges)).map Edge.pair) :=
    Ledger.keys_written ..
  rw [List.map_flatMap] at hl
  rw [pairs, merge, List.map_map]
  exact hl

theorem declared?_eq_none {gs : List Graph} {name : String} (h : name ∉ gs.flatMap names) :
    declared? gs name = none := by
  have none_of : (gs.flatMap (·.functions)).filter (·.name = name) = [] := by
    rw [List.filter_eq_nil_iff]
    intro fn hfn hname
    obtain ⟨g, hg, hfn⟩ := List.mem_flatMap.mp hfn
    exact h (List.mem_flatMap.mpr ⟨g, hg, List.mem_map.mpr ⟨fn, hfn, of_decide_eq_true hname⟩⟩)
  rw [declared?, kindsOf, none_of]
  rfl

theorem edge?_eq_none {gs : List Graph} {pair : String × String} (h : pair ∉ gs.flatMap pairs) :
    edge? gs pair = none := by
  have none_of : edgesOf gs pair = [] := by
    rw [edgesOf, List.filter_eq_nil_iff]
    intro e he hpair
    obtain ⟨g, hg, he⟩ := List.mem_flatMap.mp he
    exact h (List.mem_flatMap.mpr ⟨g, hg, List.mem_map.mpr ⟨e, he, of_decide_eq_true hpair⟩⟩)
  rw [edge?, none_of]
  rfl

/-- A merged graph keeps the last kind of each function. -/
theorem kindsOf_merge (gs : List Graph) (name : String) :
    kindsOf [merge gs] name = (kindsOf gs name).getLast?.toList := by
  have under : ∀ n fn, declared? gs n = some fn → fn.name = n := by
    intro n fn h
    obtain ⟨kind, -, rfl⟩ := Option.map_eq_some_iff.mp h
    rfl
  have one : (merge gs).functions.filter (·.name = name) = (declared? gs name).toList := by
    rw [merge_eq, filter_filterMap_eq (nodup_distinct _) under]
    split
    · rfl
    · rename_i h
      rw [declared?_eq_none (by simpa using h)]
      rfl
  rw [kindsOf, List.flatMap_singleton, one, declared?]
  cases (kindsOf gs name).getLast? <;> rfl

/-- A merged graph has one edge for each pair. -/
theorem edgesOf_merge (gs : List Graph) (pair : String × String) :
    edgesOf [merge gs] pair = (edge? gs pair).toList := by
  have under : ∀ p e, edge? gs p = some e → e.pair = p := by
    intro p e h
    obtain ⟨last, -, rfl⟩ := Option.map_eq_some_iff.mp h
    rfl
  rw [edgesOf, List.flatMap_singleton, merge_eq, filter_filterMap_eq (nodup_distinct _) under]
  split
  · rfl
  · rename_i h
    rw [edge?_eq_none (by simpa using h)]
    rfl

/-! ## Merging in stages -/

theorem kindsOf_flatMap {ι : Type} (is : List ι) (gs : ι → List Graph) (name : String) :
    kindsOf (is.flatMap gs) name = is.flatMap fun i => kindsOf (gs i) name := by
  simp only [kindsOf, List.flatMap_assoc, List.filter_flatMap, List.map_flatMap]

theorem edgesOf_flatMap {ι : Type} (is : List ι) (gs : ι → List Graph) (pair : String × String) :
    edgesOf (is.flatMap gs) pair = is.flatMap fun i => edgesOf (gs i) pair := by
  simp only [edgesOf, List.flatMap_assoc, List.filter_flatMap]

variable (gss : List (List Graph))

theorem kindsOf_map_merge (name : String) :
    kindsOf (gss.map merge) name = gss.flatMap fun gs => (kindsOf gs name).getLast?.toList := by
  rw [List.map_eq_flatMap, kindsOf_flatMap]
  simp only [kindsOf_merge]

theorem edgesOf_map_merge (pair : String × String) :
    edgesOf (gss.map merge) pair = gss.flatMap fun gs => (edge? gs pair).toList := by
  rw [List.map_eq_flatMap, edgesOf_flatMap]
  simp only [edgesOf_merge]

theorem kindsOf_flatten (name : String) :
    kindsOf gss.flatten name = gss.flatMap fun gs => kindsOf gs name := by
  rw [← List.flatMap_id, kindsOf_flatMap]
  rfl

theorem edgesOf_flatten (pair : String × String) :
    edgesOf gss.flatten pair = gss.flatMap fun gs => edgesOf gs pair := by
  rw [← List.flatMap_id, edgesOf_flatMap]
  rfl

/-- The last kind is the last one of the last stage that has one. -/
theorem lastKind_map_merge (name : String) :
    (kindsOf (gss.map merge) name).getLast? = (kindsOf gss.flatten name).getLast? := by
  rw [kindsOf_map_merge, kindsOf_flatten]
  simp only [List.getLast?_flatMap, getLast?_toList]

/-- A kind that an earlier stage took over from a declaration is not asked for again. -/
theorem lastKind_getD {gss : List (List Graph)} {gs : List Graph} (h : gs ∈ gss)
    (name kind : String) :
    (kindsOf gss.flatten name).getLast?.getD ((kindsOf gs name).getLast?.getD kind) =
      (kindsOf gss.flatten name).getLast?.getD kind := by
  cases hk : (kindsOf gss.flatten name).getLast? with
  | some k => rfl
  | none =>
    have nowhere : kindsOf gs name = [] := by
      rw [List.getLast?_eq_none_iff, kindsOf_flatten, List.flatMap_eq_nil_iff] at hk
      exact hk gs h
    rw [nowhere]
    rfl

theorem calls_edge? (gs : List Graph) (pair : String × String) :
    ((edge? gs pair).toList.map (·.calls)).sum = ((edgesOf gs pair).map (·.calls)).sum := by
  unfold edge?
  cases h : (edgesOf gs pair).getLast? with
  | none => rw [List.getLast?_eq_none_iff.mp h]; rfl
  | some last => simp

theorem calls_map_merge (pair : String × String) :
    ((edgesOf (gss.map merge) pair).map (·.calls)).sum =
      ((edgesOf gss.flatten pair).map (·.calls)).sum := by
  rw [edgesOf_map_merge, edgesOf_flatten, List.map_flatMap, List.map_flatMap, List.flatMap_def,
    List.flatMap_def, List.sum_flatten, List.sum_flatten, List.map_map, List.map_map]
  simp only [Function.comp_def, calls_edge?]

theorem declared?_map_merge : declared? (gss.map merge) = declared? gss.flatten := by
  funext name
  rw [declared?, declared?, lastKind_map_merge]

theorem edge?_map_merge : edge? (gss.map merge) = edge? gss.flatten := by
  funext pair
  rw [edge?, edge?, calls_map_merge]
  simp only [lastKind_map_merge]
  rw [edgesOf_map_merge, edgesOf_flatten]
  refine getLast?_flatMap_congr fun gs hgs => ?_
  rw [getLast?_toList, edge?, Option.map_map]
  congr 1
  funext last
  simp only [Function.comp, lastKind_getD hgs]

/-- What a merged graph lists once each may be listed once each in stages. -/
theorem distinct_flatMap_map_merge {β : Type} [DecidableEq β] {items : Graph → List β}
    (h : ∀ gs, items (merge gs) = distinct (gs.flatMap items)) :
    distinct ((gss.map merge).flatMap items) = distinct (gss.flatten.flatMap items) := by
  have whole : gss.flatten.flatMap items = gss.flatMap fun gs => gs.flatMap items := by
    rw [← List.flatMap_id, List.flatMap_assoc]
    rfl
  rw [whole, ← distinct_flatMap_distinct gss, List.flatMap_map]
  simp only [h]

/-- **Merging can be done in stages**: to merge groups of graphs, and then what comes of them, is to
merge all graphs at once, down to the order, the calls and the kinds at the ends of the edges. So a
merged graph stays as it is when it is merged alone. -/
theorem merge_map_merge :
    merge (gss.map merge) = merge gss.flatten ∧ ∀ gs, merge [merge gs] = merge gs := by
  have staged : ∀ gss : List (List Graph), merge (gss.map merge) = merge gss.flatten := by
    intro gss
    have roots_merge : ∀ gs, (merge gs).roots = distinct (gs.flatMap (·.roots)) := fun _ => rfl
    rw [merge_eq, merge_eq gss.flatten, distinct_flatMap_map_merge gss names_merge,
      distinct_flatMap_map_merge gss pairs_merge, distinct_flatMap_map_merge gss roots_merge,
      declared?_map_merge, edge?_map_merge]
  refine ⟨staged gss, fun gs => ?_⟩
  simpa using staged [gs]

end Graph

end ScriptSurvey
