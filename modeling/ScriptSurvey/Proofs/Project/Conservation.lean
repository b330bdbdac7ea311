import ScriptSurvey.Proofs.Project.Merge

/-!
# Merging loses and invents nothing

What a merged graph has to be can be said without merging (`Graph.IsMergeOf`): each declared name
once, with the kind of its last declaration; each pair of names once, with the calls of all edges
between the two; and at the ends of an edge the kinds of the declarations, or those that the last
edge carries. There is one such graph, and merging gives it (`Graph.eq_merge_iff`).

Since every edge lies between one pair, the edges by pairs are all edges (`groups_perm`), so that no
call is lost on the way.
-/

namespace ScriptSurvey

/-! ## Members by key -/

section Keys

variable {α κ : Type}

/-- Whether a member of a list is the last one with a property. -/
def IsLast (p : α → Bool) (as : List α) (a : α) : Prop :=
  p a ∧ ∃ earlier later, as = earlier ++ a :: later ∧ ∀ b ∈ later, ¬ p b

/-- A list whose members follow from their keys is known by the keys. -/
theorem eq_filterMap_of_key {as : List α} {key : α → κ} {f : κ → Option α}
    (h : ∀ a ∈ as, f (key a) = some a) : as = (as.map key).filterMap f := by
  rw [List.filterMap_map]
  exact (List.map_id as).symm.trans (List.filterMap_eq_map_iff_forall_eq_some.mpr h).symm

/-- The members of a list, taken key by key, are the members of the list. -/
theorem groups_perm [DecidableEq κ] {ks : List κ} (hn : ks.Nodup) {key : α → κ} {as : List α}
    (h : ∀ a ∈ as, key a ∈ ks) : (ks.flatMap fun k => as.filter (key · = k)).Perm as := by
  induction ks generalizing as with
  | nil => simp [List.eq_nil_iff_forall_not_mem.mpr fun a ha => List.not_mem_nil (h a ha)]
  | cons k ks ih =>
    obtain ⟨hk, hn⟩ := List.nodup_cons.mp hn
    -- the first key takes all its members out, and no other key asks for them
    have others : (ks.flatMap fun k' => (as.filter (key · ≠ k)).filter (key · = k')) =
        ks.flatMap fun k' => as.filter (key · = k') := by
      refine List.flatMap_congr fun k' hk' => ?_
      have hne : k' ≠ k := fun e => hk (e ▸ hk')
      rw [List.filter_filter]
      refine List.filter_congr fun a _ => ?_
      by_cases ha : key a = k' <;> simp [ha, hne]
    have among : ∀ a ∈ as.filter (key · ≠ k), key a ∈ ks := by
      intro a ha
      obtain ⟨ha, hne⟩ := List.mem_filter.mp ha
      exact (List.mem_cons.mp (h a ha)).resolve_left (by simpa using hne)
    rw [List.flatMap_cons, ← others]
    refine ((ih hn among).append_left _).trans ?_
    simpa using List.filter_append_perm (key · = k) as

end Keys

namespace Graph

/-! ## What a merged graph has to be -/

/-- The kind at an end of an edge is that of the declared function, or the one that the edge carries
if no graph declares a function of that name. -/
structure EndKind (g : Graph) (gs : List Graph) (name carried kind : String) : Prop where
  declared : ∀ fn ∈ g.functions, fn.name = name → kind = fn.kind
  undeclared : name ∉ gs.flatMap names → kind = carried

/-- A graph that says what several graphs say together. -/
structure IsMergeOf (g : Graph) (gs : List Graph) : Prop where
  names : FirstOccurrences (gs.flatMap names) g.names
  functions : ∀ fn ∈ g.functions, IsLast (·.name = fn.name) (gs.flatMap (·.functions)) fn
  pairs : FirstOccurrences (gs.flatMap pairs) g.pairs
  calls : ∀ e ∈ g.edges,
    e.calls = (((gs.flatMap (·.edges)).filter (·.pair = e.pair)).map (·.calls)).sum
  kinds : ∀ e ∈ g.edges, ∃ last, IsLast (·.pair = e.pair) (gs.flatMap (·.edges)) last ∧
    g.EndKind gs e.source last.sourceKind e.sourceKind ∧
    g.EndKind gs e.target last.targetKind e.targetKind
  roots : FirstOccurrences (gs.flatMap (·.roots)) g.roots

variable {gs : List Graph} {g : Graph}

theorem declared?_eq_some_iff {name : String} {fn : Declared} :
    declared? gs name = some fn ↔
      fn.name = name ∧ IsLast (·.name = name) (gs.flatMap (·.functions)) fn := by
  rw [declared?, kindsOf, List.getLast?_map, Option.map_map, Option.map_eq_some_iff]
  constructor
  · rintro ⟨last, hlast, rfl⟩
    obtain ⟨hname, h⟩ := getLast?_filter_eq_some_iff.mp hlast
    obtain rfl := of_decide_eq_true hname
    exact ⟨rfl, hname, h⟩
  · rintro ⟨rfl, h⟩
    exact ⟨fn, getLast?_filter_eq_some_iff.mpr h, rfl⟩

theorem edge?_eq_some_iff {pair : String × String} {e : Edge} :
    edge? gs pair = some e ↔
      e.pair = pair ∧
      e.calls = (((gs.flatMap (·.edges)).filter (·.pair = pair)).map (·.calls)).sum ∧
      ∃ last, IsLast (·.pair = pair) (gs.flatMap (·.edges)) last ∧
        e.sourceKind = (kindsOf gs pair.1).getLast?.getD last.sourceKind ∧
        e.targetKind = (kindsOf gs pair.2).getLast?.getD last.targetKind := by
  rw [edge?, Option.map_eq_some_iff]
  constructor
  · rintro ⟨last, hlast, rfl⟩
    exact ⟨rfl, rfl, last, getLast?_filter_eq_some_iff.mp hlast, rfl, rfl⟩
  · rintro ⟨rfl, hcalls, last, hlast, hsource, htarget⟩
    refine ⟨last, getLast?_filter_eq_some_iff.mpr hlast, ?_⟩
    rw [edgesOf, ← hcalls, ← hsource, ← htarget]
    rfl

/-- The kind at an end of an edge, in one formula. -/
theorem endKind_iff (names : FirstOccurrences (gs.flatMap names) g.names)
    (functions : ∀ fn ∈ g.functions, IsLast (·.name = fn.name) (gs.flatMap (·.functions)) fn)
    {name carried kind : String} :
    g.EndKind gs name carried kind ↔ kind = (kindsOf gs name).getLast?.getD carried := by
  have last {fn : Declared} (hfn : fn ∈ g.functions) (hname : fn.name = name) :
      (kindsOf gs name).getLast? = some fn.kind := by
    subst hname
    have among := declared?_eq_some_iff.mpr ⟨rfl, functions fn hfn⟩
    obtain ⟨kind, hkind, he⟩ := Option.map_eq_some_iff.mp among
    rw [hkind, ← he]
  by_cases h : name ∈ gs.flatMap Graph.names
  · obtain ⟨fn, hfn, hname⟩ := List.mem_map.mp ((names.mem name).mpr h)
    rw [last hfn hname]
    refine ⟨fun ends => ends.declared fn hfn hname, fun hkind => ⟨?_, absurd h⟩⟩
    intro other hother hname'
    have same : some fn.kind = some other.kind := (last hfn hname).symm.trans (last hother hname')
    exact hkind.trans (Option.some.inj same)
  · have none : (kindsOf gs name).getLast? = none := Option.map_eq_none_iff.mp (declared?_eq_none h)
    rw [none]
    refine ⟨fun ends => ends.undeclared h, fun hkind => ⟨?_, fun _ => hkind⟩⟩
    intro fn hfn hname
    rw [last hfn hname] at none
    cases none

/-- The graph that merging gives. -/
theorem merge_isMergeOf (gs : List Graph) : (merge gs).IsMergeOf gs := by
  have names : FirstOccurrences (gs.flatMap Graph.names) (merge gs).names :=
    names_merge gs ▸ firstOccurrences_distinct _
  have functions : ∀ fn ∈ (merge gs).functions,
      IsLast (·.name = fn.name) (gs.flatMap (·.functions)) fn := by
    intro fn hfn
    rw [merge_eq] at hfn
    obtain ⟨name, -, hname⟩ := List.mem_filterMap.mp hfn
    obtain ⟨rfl, h⟩ := declared?_eq_some_iff.mp hname
    exact h
  have edges : ∀ e ∈ (merge gs).edges, edge? gs e.pair = some e := by
    intro e he
    rw [merge_eq] at he
    obtain ⟨pair, -, hpair⟩ := List.mem_filterMap.mp he
    obtain ⟨rfl, -⟩ := edge?_eq_some_iff.mp hpair
    exact hpair
  refine ⟨names, functions, pairs_merge gs ▸ firstOccurrences_distinct _, fun e he => ?_,
    fun e he => ?_, firstOccurrences_distinct _⟩
  · exact (edge?_eq_some_iff.mp (edges e he)).2.1
  · obtain ⟨-, -, last, hlast, hsource, htarget⟩ := edge?_eq_some_iff.mp (edges e he)
    exact ⟨last, hlast, (endKind_iff names functions).mpr hsource,
      (endKind_iff names functions).mpr htarget⟩

/-- No other graph is what a merged graph has to be. -/
theorem IsMergeOf.eq_merge (h : g.IsMergeOf gs) : g = merge gs := by
  have functions : g.functions = g.names.filterMap (declared? gs) :=
    eq_filterMap_of_key fun fn hfn => declared?_eq_some_iff.mpr ⟨rfl, h.functions fn hfn⟩
  have edges : g.edges = g.pairs.filterMap (edge? gs) := by
    refine eq_filterMap_of_key fun e he => edge?_eq_some_iff.mpr ⟨rfl, h.calls e he, ?_⟩
    obtain ⟨last, hlast, hsource, htarget⟩ := h.kinds e he
    exact ⟨last, hlast, (endKind_iff h.names h.functions).mp hsource,
      (endKind_iff h.names h.functions).mp htarget⟩
  rw [merge_eq, ← h.names.eq_distinct, ← h.pairs.eq_distinct, ← h.roots.eq_distinct, ← functions,
    ← edges]

/-! ## Calls -/

/-- The calls of a merged graph are those of the graphs. -/
theorem calls_merge (gs : List Graph) :
    ((merge gs).edges.map (·.calls)).sum = ((gs.flatMap (·.edges)).map (·.calls)).sum := by
  have merged := merge_isMergeOf gs
  have between : ∀ e ∈ gs.flatMap (·.edges), e.pair ∈ (merge gs).pairs := by
    intro e he
    obtain ⟨g, hg, he⟩ := List.mem_flatMap.mp he
    exact (merged.pairs.mem _).mpr (List.mem_flatMap.mpr ⟨g, hg, List.mem_map_of_mem he⟩)
  have groups := (groups_perm merged.pairs.nodup between).map (·.calls)
  rw [← groups.sum_eq, List.map_flatMap, List.flatMap_def, List.sum_flatten, List.map_map, pairs,
    List.map_map]
  exact congrArg List.sum (List.map_congr_left merged.calls)

/-- **Merging loses and invents nothing**: a graph is the merged one exactly if it has each declared
name once, with the kind of its last declaration, each pair of names between which there is an edge
once, with the calls of all edges between the two and the right kinds at its ends, and each root
once, all in the order of first occurrence. So the calls add up to the same number as before. -/
theorem eq_merge_iff (gs : List Graph) :
    (∀ g, g = merge gs ↔ g.IsMergeOf gs) ∧
      ((merge gs).edges.map (·.calls)).sum = ((gs.flatMap (·.edges)).map (·.calls)).sum :=
  ⟨fun _ => ⟨fun h => h ▸ merge_isMergeOf gs, IsMergeOf.eq_merge⟩, calls_merge gs⟩

-- A declaration in a later file decides, and where there is none the last edge does.
example :
    merge [{ edges := [⟨"App", "load", 2, "component", "helper"⟩] },
      { functions := [⟨"load", "handler"⟩], edges := [⟨"App", "load", 3, "helper", "helper"⟩] }] =
      { functions := [⟨"load", "handler"⟩]
        edges := [⟨"App", "load", 5, "helper", "handler"⟩] } := by
  decide

end Graph

end ScriptSurvey
