import ScriptSurvey.Proofs.Files.Folders
import ScriptSurvey.Proofs.Files.IgnoreFiles
import ScriptSurvey.Proofs.Files.Sources

/-!
# Malformed patterns

A single line of an ignore file that cannot be read makes the scan of the whole repository fail. The
lines for which that happens are told apart by how they are written (`Malformed`), and there is no
other reason for a scan to fail (`listScripts_eq_ok_iff`).

* `exists_coverFrom_eq_error_iff`: segments are read in order, and the first that cannot be read
  decides: an open bracket there lets the pattern mean nothing, a backslash at the end is a fault
  (`Broken`). Ranges the wrong way round matter only if all segments can be read.
* `broken_normalize_iff`: the segments that come and go when a pattern is normalized name nothing.
* `exists_parse_eq_error_iff`: the patterns that cannot be read are the malformed ones.
* `mem_repositoryTexts_iff`: the lines that count are those of the ignore files that are not in a
  folder that is left out.
-/

namespace ScriptSurvey.Ignore

open Pattern

/-! ## Segments that cannot be read -/

/-- A segment that can be read to its end. -/
def IsReadable (segment : String) : Prop :=
  ∃ items, Reads segment.toList items []

/-- A segment with a range the wrong way round. -/
def HasReversed (segment : String) : Prop :=
  ∃ items, Reads segment.toList items [] ∧ ∃ item ∈ items, item.IsReversed

/-- Segments with a backslash at the end of the first that cannot be read, or with a range the wrong
way round if all can be read. -/
def Broken (segments : List String) : Prop :=
  (∃ before segment after, segments = before ++ segment :: after ∧
    (∀ s ∈ before, IsReadable s) ∧ Dangling segment.toList) ∨
  (∀ s ∈ segments, IsReadable s) ∧ ∃ s ∈ segments, HasReversed s

section Segment

variable {segment : String} {items : List Item}

theorem Reads.unique {cs : List Char} {items' : List Item} (h : Reads cs items [])
    (h' : Reads cs items' []) : items = items' := by
  obtain ⟨stop, faults, heq, -⟩ := segmentItems_of_reads "" le_rfl 0 h
  obtain ⟨stop', faults', heq', -⟩ := segmentItems_of_reads "" le_rfl 0 h'
  cases heq.symm.trans heq'
  rfl

theorem Dangling.not_isReadable (h : Dangling segment.toList) : ¬ IsReadable segment := by
  rintro ⟨items, reads⟩
  obtain ⟨stop, faults, heq, -⟩ := segmentItems_of_reads "" le_rfl 0 reads
  cases heq.symm.trans (segmentItems_of_dangling "" le_rfl 0 h)

theorem Reads.not_hasReversed (h : Reads segment.toList items [])
    (hi : ∀ item ∈ items, ¬ item.IsReversed) : ¬ HasReversed segment := by
  rintro ⟨items', h', item, hm, reversed⟩
  exact hi item (h.unique h' ▸ hm) reversed

theorem reads_stars (n : Nat) : Reads (List.replicate n '*') (List.replicate n .run) [] := by
  induction n with
  | zero => exact .done []
  | succ n ih => exact .step (.run _) ih

theorem not_hasReversed_stars (n : Nat) : ¬ HasReversed (String.ofList (List.replicate n '*')) := by
  have reads : Reads (String.ofList (List.replicate n '*')).toList (List.replicate n .run) [] := by
    rw [String.toList_ofList]
    exact reads_stars n
  refine reads.not_hasReversed fun item hi => ?_
  rw [List.eq_of_mem_replicate hi]
  exact id

theorem Spells.forall_not_isReversed_iff (h : Spells segment items) :
    (∀ item ∈ items, ¬ item.IsReversed) ↔ ¬ HasReversed segment := by
  rw [Spells] at h
  split at h
  · next star =>
    have sound : ¬ HasReversed segment := star ▸ not_hasReversed_stars 1
    simp [h, sound, Item.IsReversed]
  · exact ⟨h.not_hasReversed, fun sound item hi reversed => sound ⟨items, h, item, hi, reversed⟩⟩

/-- Whether a segment names something. An empty one stands for no component, and two stars for any
number of them. -/
def isNamed (segment : String) : Bool :=
  segment != "" && segment != manyComponents

theorem of_isNamed_eq_false (h : isNamed segment = false) :
    IsReadable segment ∧ ¬ HasReversed segment := by
  have stars : segment = "" ∨ segment = manyComponents := by
    simpa [isNamed, Classical.or_iff_not_imp_left] using h
  obtain rfl | rfl := stars
  · exact ⟨⟨_, reads_stars 0⟩, not_hasReversed_stars 0⟩
  · exact ⟨⟨_, reads_stars 2⟩, not_hasReversed_stars 2⟩

end Segment

section Segments

variable (pattern : String) (first slash : Bool) (place : Nat) {segments before rest : List String}

/-- Segments that can be read do not keep those behind them from being read. -/
theorem exists_itemsOf_append_eq (hb : ∀ s ∈ before, IsReadable s) (hr : rest ≠ []) :
    ∃ first' slash' place' f, itemsOf pattern first slash place (before ++ rest) = do
      return (← itemsOf pattern first' slash' place' rest).map f := by
  induction before generalizing first slash place with
  | nil =>
    refine ⟨first, slash, place, id, ?_⟩
    rw [List.nil_append]
    cases itemsOf pattern first slash place rest with
    | error e => rfl
    | ok found => cases found <;> rfl
  | cons segment more ih =>
    obtain ⟨hs, hmore⟩ := List.forall_mem_cons.mp hb
    obtain ⟨first', slash', place', f, heq⟩ : ∃ first' slash' place' f,
        itemsOf pattern first slash place (segment :: (more ++ rest)) = do
          return (← itemsOf pattern first' slash' place' (more ++ rest)).map f := by
      by_cases hm : segment = manyComponents
      · subst hm
        cases first with
        | true => exact ⟨_, _, _, _, itemsOf_many_first ..⟩
        | false => exact ⟨_, _, _, _, itemsOf_many_inner _ _ _ _ (by simp [hr])⟩
      · obtain ⟨_, hs⟩ := hs
        obtain ⟨items, spells⟩ := hs.exists_spells
        obtain ⟨stop, faults, -, heq⟩ :=
          itemsOf_of_spells pattern first slash place (more ++ rest) hm spells
        exact ⟨_, _, _, _, heq⟩
    obtain ⟨first'', slash'', place'', g, hmore⟩ := ih first' slash' place' hmore
    refine ⟨first'', slash'', place'', f ∘ g, ?_⟩
    rw [List.cons_append, heq, hmore]
    cases itemsOf pattern first'' slash'' place'' rest with
    | error e => rfl
    | ok found => cases found <;> rfl

section Stuck

variable (hb : ∀ s ∈ before, IsReadable s) {segment : String} (after : List String)

include hb

theorem exists_itemsOf_append_eq_error (stuck : Dangling segment.toList) :
    ∃ e, itemsOf pattern first slash place (before ++ segment :: after) = .error e := by
  obtain ⟨first', slash', place', f, heq⟩ := exists_itemsOf_append_eq pattern first slash place hb
    (List.cons_ne_nil segment after)
  exact ⟨_, by rw [heq, itemsOf_of_dangling _ _ _ _ _ stuck]; rfl⟩

theorem itemsOf_append_eq_none (stuck : Unclosed segment.toList) :
    itemsOf pattern first slash place (before ++ segment :: after) = .ok none := by
  obtain ⟨first', slash', place', f, heq⟩ := exists_itemsOf_append_eq pattern first slash place hb
    (List.cons_ne_nil segment after)
  rw [heq, itemsOf_of_unclosed _ _ _ _ _ stuck]
  rfl

end Stuck

/-- Segments that can be read are spelled out. -/
theorem exists_itemsOf_eq_some (h : ∀ s ∈ segments, IsReadable s) :
    ∃ spelled, itemsOf pattern first slash place segments = .ok (some spelled) ∧
      (spelled.faults = [] ↔ ∀ s ∈ segments, ¬ HasReversed s) := by
  induction segments generalizing first slash place with
  | nil => exact ⟨_, rfl, by simp⟩
  | cons segment rest ih =>
    obtain ⟨hs, hrest⟩ := List.forall_mem_cons.mp h
    rw [List.forall_mem_cons]
    by_cases hm : segment = manyComponents
    · have sound : ¬ HasReversed segment := (of_isNamed_eq_false (by simp [isNamed, hm])).2
      subst hm
      rw [and_iff_right sound]
      cases first with
      | true =>
        obtain ⟨spelled, heq, faults⟩ := ih false false (place + 8) hrest
        exact ⟨spelled.after [.leading] [], by rw [itemsOf_many_first, heq]; rfl, faults⟩
      | false =>
        cases rest with
        | nil => exact ⟨_, itemsOf_many_last .., by simp⟩
        | cons next rest =>
          obtain ⟨spelled, heq, faults⟩ := ih false true (place + 8) hrest
          refine ⟨spelled.after [.inner] [], ?_, faults⟩
          rw [itemsOf_many_inner _ _ _ _ (List.cons_ne_nil next rest), heq]
          rfl
    · obtain ⟨_, hs⟩ := hs
      obtain ⟨items, spells⟩ := hs.exists_spells
      obtain ⟨stop, own, hown, heq⟩ := itemsOf_of_spells pattern first slash place rest hm spells
      obtain ⟨spelled, hrest, faults⟩ := ih false true stop hrest
      refine ⟨spelled.after (rowItems slash rest.isEmpty items) own, by rw [heq, hrest]; rfl, ?_⟩
      rw [Spelled.after, List.append_eq_nil_iff, hown, spells.forall_not_isReversed_iff, faults]

theorem readable_or_stuck (segments : List String) :
    (∀ s ∈ segments, IsReadable s) ∨
      ∃ before segment after, segments = before ++ segment :: after ∧
        (∀ s ∈ before, IsReadable s) ∧ (Dangling segment.toList ∨ Unclosed segment.toList) := by
  induction segments with
  | nil => exact .inl (List.forall_mem_nil _)
  | cons segment rest ih =>
    obtain stuck | stuck | readable := exists_reads segment.toList
    · exact .inr ⟨[], segment, rest, rfl, List.forall_mem_nil _, .inl stuck⟩
    · exact .inr ⟨[], segment, rest, rfl, List.forall_mem_nil _, .inr stuck⟩
    · obtain all | ⟨before, other, after, rfl, hb, stuck⟩ := ih
      · exact .inl (List.forall_mem_cons.mpr ⟨readable, all⟩)
      · exact .inr ⟨segment :: before, other, after, rfl,
          List.forall_mem_cons.mpr ⟨readable, hb⟩, stuck⟩

variable {pattern first slash place} in
theorem isReadable_of_itemsOf {spelled : Spelled}
    (h : itemsOf pattern first slash place segments = .ok (some spelled)) :
    ∀ s ∈ segments, IsReadable s := by
  obtain all | ⟨before, segment, after, rfl, hb, stuck | stuck⟩ := readable_or_stuck segments
  · exact all
  · obtain ⟨e, fault⟩ := exists_itemsOf_append_eq_error pattern first slash place hb after stuck
    cases fault.symm.trans h
  · cases (itemsOf_append_eq_none pattern first slash place hb after stuck).symm.trans h

theorem coverFrom_eq_error_iff {s : Spelled} :
    (∃ e, coverFrom (.ok (some s)) = .error e) ↔ s.faults ≠ [] := by
  obtain ⟨items, stop, faults⟩ := s
  cases faults with
  | nil => simp [coverFrom, bind, Except.bind, pure, Except.pure]
  | cons e faults => simp [coverFrom, bind, Except.bind]

theorem exists_coverFrom_eq_error_iff :
    (∃ e, coverFrom (itemsOf pattern first slash place segments) = .error e) ↔
      Broken segments := by
  constructor
  · intro fault
    obtain all | ⟨before, segment, after, rfl, hb, stuck | stuck⟩ := readable_or_stuck segments
    · obtain ⟨spelled, heq, faults⟩ := exists_itemsOf_eq_some pattern first slash place all
      rw [heq, coverFrom_eq_error_iff, Ne, faults] at fault
      exact .inr ⟨all, by simpa using fault⟩
    · exact .inl ⟨before, segment, after, rfl, hb, stuck⟩
    · -- an open bracket lets the whole pattern mean nothing, whatever comes behind it
      rw [itemsOf_append_eq_none pattern first slash place hb after stuck] at fault
      obtain ⟨e, ⟨⟩⟩ := fault
  · rintro (⟨before, segment, after, rfl, hb, stuck⟩ | ⟨all, reversed⟩)
    · obtain ⟨e, fault⟩ := exists_itemsOf_append_eq_error pattern first slash place hb after stuck
      exact ⟨e, by rw [fault]; rfl⟩
    · obtain ⟨spelled, heq, faults⟩ := exists_itemsOf_eq_some pattern first slash place all
      rw [heq, coverFrom_eq_error_iff, Ne, faults]
      simpa using reversed

theorem exists_coverOf_eq_error_iff (belowOnly : Bool) (hne : segments ≠ []) :
    (∃ e, coverOf pattern belowOnly segments = .error e) ↔ Broken segments := by
  rw [← exists_coverFrom_eq_error_iff pattern true false 1]
  by_cases h : segments ∈ unspelled
  · simp only [unspelled, List.mem_cons, List.not_mem_nil, or_false] at h
    obtain rfl | rfl | rfl | rfl := h
    · exact absurd rfl hne
    all_goals exact iff_of_false (by rintro ⟨e, ⟨⟩⟩) (by rintro ⟨e, ⟨⟩⟩)
  · rw [coverOf_eq _ _ h]

end Segments

/-! ## Malformed patterns -/

section Normalize

theorem filter_collapse (segments : List String) :
    (collapse segments).filter isNamed = segments.filter isNamed := by
  induction segments with
  | nil => rfl
  | cons segment rest ih =>
    rw [collapse]
    split
    · next many =>
      have unnamed : isNamed segment = false := by simp_all [isNamed]
      rw [ih, List.filter_cons_of_neg (by simp [unnamed])]
    · rw [List.filter_cons, List.filter_cons, ih]

theorem filter_closed (segments : List String) :
    (closed segments).filter isNamed = segments.filter isNamed := by
  unfold closed
  split
  · next last =>
    obtain ⟨front, rfl⟩ := List.getLast?_eq_some_iff.mp (beq_iff_eq.mp last)
    simp [isNamed, manyComponents]
  · rfl

/-- Normal segments have the same names. -/
theorem filter_normalize (segments : List String) :
    (normalize segments).filter isNamed = segments.filter isNamed := by
  unfold normalize
  dsimp only
  rw [← closed, filter_collapse, filter_closed]
  split
  · simp [isNamed]
  · split <;> simp_all [isNamed]
  · split <;> simp_all [isNamed]
  · rfl

theorem normalize_ne_nil {segments : List String} (hne : segments ≠ []) (h : segments ≠ [""]) :
    normalize segments ≠ [] := by
  unfold normalize
  dsimp only
  rw [← closed]
  refine collapse_ne_nil (closed_ne_nil ?_)
  split
  · rintro rfl
    exact h rfl
  · split <;> simp
  · split <;> simp
  · exact hne

theorem forall_isReadable_filter {segments : List String} :
    (∀ s ∈ segments.filter isNamed, IsReadable s) ↔ ∀ s ∈ segments, IsReadable s := by
  refine ⟨fun h s hs => ?_, fun h s hs => h s (List.mem_of_mem_filter hs)⟩
  by_cases hn : isNamed s
  · exact h s (List.mem_filter.mpr ⟨hs, hn⟩)
  · exact (of_isNamed_eq_false (by simpa using hn)).1

theorem exists_hasReversed_filter {segments : List String} :
    (∃ s ∈ segments.filter isNamed, HasReversed s) ↔ ∃ s ∈ segments, HasReversed s := by
  constructor
  · rintro ⟨s, hs, reversed⟩
    exact ⟨s, List.mem_of_mem_filter hs, reversed⟩
  · rintro ⟨s, hs, reversed⟩
    refine ⟨s, List.mem_filter.mpr ⟨hs, ?_⟩, reversed⟩
    by_contra hn
    exact (of_isNamed_eq_false (by simpa using hn)).2 reversed

/-- Segments that name nothing do not matter. -/
theorem broken_filter_iff {segments : List String} :
    Broken (segments.filter isNamed) ↔ Broken segments := by
  refine or_congr ⟨?_, ?_⟩ (and_congr forall_isReadable_filter exists_hasReversed_filter)
  · rintro ⟨before, segment, after, heq, hb, stuck⟩
    obtain ⟨front, back, rfl, rfl, hback⟩ := List.filter_eq_append_iff.mp heq
    obtain ⟨unnamed, after, rfl, hu, -, -⟩ := List.filter_eq_cons_iff.mp hback
    refine ⟨front ++ unnamed, segment, after, by simp, ?_, stuck⟩
    have none : unnamed.filter isNamed = [] := List.filter_eq_nil_iff.mpr hu
    rwa [← forall_isReadable_filter, List.filter_append, none, List.append_nil]
  · rintro ⟨before, segment, after, rfl, hb, stuck⟩
    have named : isNamed segment := by
      by_contra hn
      exact stuck.not_isReadable (of_isNamed_eq_false (by simpa using hn)).1
    refine ⟨before.filter isNamed, segment, after.filter isNamed, ?_,
      forall_isReadable_filter.mpr hb, stuck⟩
    rw [List.filter_append, List.filter_cons_of_pos named]

theorem broken_normalize_iff {segments : List String} :
    Broken (normalize segments) ↔ Broken segments := by
  rw [← broken_filter_iff, filter_normalize, broken_filter_iff]

end Normalize

/-- Every segment of a pattern can be read. -/
theorem isReadable_of_ofSegments {text : String} {keeps : Bool} {segments : List String}
    {p : Pattern} (h : ofSegments text keeps segments = .ok (some p)) :
    ∀ s ∈ segments, IsReadable s := by
  rw [ofSegments] at h
  obtain ⟨c, hc, -⟩ := exists_of_map_eq_ok h
  have spelled : ∃ s, itemsOf text true false 1 (normalize segments) = .ok (some s) := by
    by_cases hu : normalize segments ∈ unspelled
    · simp only [unspelled, List.mem_cons, List.not_mem_nil, or_false] at hu
      obtain hu | hu | hu | hu := hu
      · rw [hu] at hc
        cases hc
      all_goals exact ⟨_, by rw [hu]; rfl⟩
    · rw [coverOf_eq _ _ hu] at hc
      obtain ⟨s, hs, -⟩ := exists_of_coverFrom_eq_ok hc
      exact ⟨s, hs⟩
  obtain ⟨s, hs⟩ := spelled
  have normal := isReadable_of_itemsOf hs
  rwa [← forall_isReadable_filter, filter_normalize, forall_isReadable_filter] at normal

/-- A pattern that cannot be read: a mark that negates nothing, or segments one of which has a
backslash at its end or a range the wrong way round. -/
def Malformed (text : String) : Prop :=
  (significant text.toList).head? ≠ some '#' ∧
    (significant text.toList = ['!'] ∨
      Broken (Text.splitAt '/' (String.ofList (unsigned (significant text.toList)))))

theorem exists_ofSegments_eq_error_iff (text : String) (keeps : Bool) {segments : List String}
    (hne : segments ≠ []) :
    (∃ e, ofSegments text keeps segments = .error e) ↔ segments = [""] ∨ Broken segments := by
  have cover : (∃ e, ofSegments text keeps segments = .error e) ↔
      ∃ e, coverOf text (segments.getLast? == some "") (normalize segments) = .error e := by
    rw [ofSegments]
    cases coverOf text (segments.getLast? == some "") (normalize segments) with
    | error e => simp [bind, Except.bind]
    | ok found => simp [bind, Except.bind, pure, Except.pure]
  rw [cover]
  by_cases h : segments = [""]
  · subst h
    simp [normalize, collapse, coverOf]
  · rw [exists_coverOf_eq_error_iff text _ (normalize_ne_nil hne h), broken_normalize_iff]
    simp [h]

theorem not_broken_of_unnamed {segments : List String} (h : ∀ s ∈ segments, isNamed s = false) :
    ¬ Broken segments := by
  have none : segments.filter isNamed = [] :=
    List.filter_eq_nil_iff.mpr fun s hs => by simp [h s hs]
  rw [← broken_filter_iff, none]
  simp [Broken]

theorem unsigned_eq_nil_iff {cs : List Char} (hne : cs ≠ []) : unsigned cs = [] ↔ cs = ['!'] := by
  obtain ⟨c, cs, rfl⟩ := List.exists_cons_of_ne_nil hne
  by_cases hc : c = '!'
  · simp [unsigned, hc]
  · simp [unsigned, hc]

/-- The patterns that cannot be read are the malformed ones. -/
theorem exists_parse_eq_error_iff (text : String) :
    (∃ e, parse text = .error e) ↔ Malformed text := by
  unfold Malformed
  generalize hcs : significant text.toList = cs
  rw [parse_significant hcs]
  split
  · next nothing =>
    refine iff_of_false (by rintro ⟨e, ⟨⟩⟩) ?_
    rintro ⟨comment, broken⟩
    obtain rfl | h | rfl := nothing
    · exact not_broken_of_unnamed (by decide) (broken.resolve_left (by simp))
    · exact comment h
    · exact not_broken_of_unnamed (by decide) (broken.resolve_left (by decide))
  · next something =>
    simp only [not_or] at something
    obtain ⟨hne, comment, -⟩ := something
    rw [exists_ofSegments_eq_error_iff _ _ (splitAt_ne_nil _), splitAt_eq_empty_iff,
      unsigned_eq_nil_iff hne, and_iff_right comment]

/-! ## Malformed lines -/

section Lines

variable {top : Entry} {l : Location}

/-- The patterns of a folder are those of the ignore files below it that no folder on the way keeps
from counting. -/
theorem mem_patternsIn_iff {e : Entry} (proper : e.isProper = true) {here : List String}
    {text : String} :
    text ∈ patternsIn here e ↔ ∃ place, (∀ name ∈ place, name ∉ skippedFolders) ∧
      text ∈ fileTexts (here ++ place) (e.look (place ++ [fileName])) := by
  induction e using Entry.inductionOn generalizing here with
  | file bytes =>
    rw [patternsIn]
    refine iff_of_false List.not_mem_nil ?_
    rintro ⟨place, -, h⟩
    cases place <;> simp [fileTexts] at h
  | folder entries ih =>
    rw [Entry.isProper] at proper
    rw [patternsIn_folder, List.mem_append, List.mem_flatMap]
    constructor
    · rintro (own | ⟨entry, hm, inside⟩)
      · exact ⟨[], List.forall_mem_nil _, by simpa using own⟩
      · rw [entryTexts] at inside
        split at inside
        · cases inside
        · next kept =>
          obtain ⟨place, hp, h⟩ :=
            (ih entry hm (Entry.mem_of_allProper proper hm).2).mp inside
          refine ⟨entry.1 :: place, List.forall_mem_cons.mpr ⟨kept, hp⟩, ?_⟩
          simpa [Entry.lookup_of_mem proper hm] using h
    · rintro ⟨place, hp, h⟩
      cases place with
      | nil => exact .inl (by simpa using h)
      | cons name rest =>
        obtain ⟨kept, hrest⟩ := List.forall_mem_cons.mp hp
        rw [List.cons_append, Entry.look_folder_cons] at h
        cases he : entries.lookup name with
        | none => simp [he, fileTexts] at h
        | some inner =>
          have hm := Entry.mem_of_lookup he
          refine .inr ⟨(name, inner), hm, ?_⟩
          rw [entryTexts, if_neg kept]
          refine (ih _ hm (Entry.mem_of_allProper proper hm).2).mpr ⟨rest, hrest, ?_⟩
          simpa [he] using h

theorem mem_repositoryTexts_iff (proper : top.isProper = true) {text : String} :
    text ∈ repositoryTexts top l ↔ ∃ place, (∀ name ∈ place, name ∉ skippedFolders) ∧
      text ∈ fileTexts place (top.look (repositoryRoot top l ++ place ++ [fileName])) := by
  simp only [repositoryTexts, List.append_assoc, Entry.look_append (l := repositoryRoot top l)]
  cases he : top.at? (repositoryRoot top l) with
  | none => simp [fileTexts]
  | some repository => exact mem_patternsIn_iff (Entry.isProper_of_at? proper he)

/-- The ignore files of a repository that are not in a folder that is left out have no malformed
line. -/
def NoMalformedLine (top : Entry) (l : Location) : Prop :=
  ∀ place bytes, (∀ name ∈ place, name ∉ skippedFolders) →
    top.look (repositoryRoot top l ++ place ++ [fileName]) = some (.file bytes) →
    ∀ line ∈ fileLines bytes, ∀ text, rebase line ("/".intercalate place) = some text →
      ¬ Malformed text

theorem exists_rulesAt_iff_noMalformedLine (proper : top.isProper = true) :
    (∃ rules, rulesAt top l = .ok rules) ↔ NoMalformedLine top l := by
  have readable (text : String) : (∃ p, parse text = .ok p) ↔ ¬ Malformed text := by
    rw [← exists_parse_eq_error_iff]
    cases parse text <;> simp
  simp only [exists_rulesAt_eq_ok_iff, readable, mem_repositoryTexts_iff proper, mem_fileTexts]
  constructor
  · intro h place bytes kept file line hl text ht
    exact h text ⟨place, kept, bytes, file, line, hl, ht⟩
  · rintro h text ⟨place, kept, bytes, file, line, hl, ht⟩
    exact h place bytes kept file line hl text ht

end Lines

/-- **A scan fails for a malformed line** and for nothing else: the rules that hold at a path can be
read, and the scripts in the folder there can be listed, exactly if no ignore file of the repository
that counts has a line with a malformed pattern. -/
theorem listScripts_eq_ok_iff {w : World} (proper : w.top.isProper = true) (p : Path) :
    ((∃ rules, rulesAt w.top (w.resolve p) = .ok rules) ↔ NoMalformedLine w.top (w.resolve p)) ∧
      ((∃ found, listScripts w p = .ok found) ↔ NoMalformedLine w.top (w.resolve p)) := by
  have rules := exists_rulesAt_iff_noMalformedLine (l := w.resolve p) proper
  refine ⟨rules, ?_⟩
  rw [← rules, listScripts]
  cases rulesAt w.top (w.resolve p) with
  | error e => simp [bind, Except.bind]
  | ok rules => simp [bind, Except.bind, pure, Except.pure]

/-- A line with a mark, a set and an escaped blank at its end, in the ignore file of a folder. -/
theorem listScripts_eq_ok_iff_set :
    let w : World := { top := .folder [(".git", .file []), ("lib", .folder
      [(fileName, .file [33, 120, 91, 94, 98, 45, 99, 93, 92, 32]), ("x.js", .file [])])] }
    w.top.isProper = true ∧ (∃ found, listScripts w (.ofLocation ["lib"]) = .ok found) ∧
      NoMalformedLine w.top ["lib"] := by
  intro w
  have proper : w.top.isProper = true := by decide
  have listed : ∃ found, listScripts w (.ofLocation ["lib"]) = .ok found := ⟨_, rfl⟩
  exact ⟨proper, listed, (listScripts_eq_ok_iff proper (.ofLocation ["lib"])).2.mp listed⟩

/-- A backslash at the end, a range the wrong way round, and a mark in front of a slash alone, each
in the ignore file at the top. -/
theorem listScripts_malformed :
    let scan (line : List UInt8) := listScripts
      { top := .folder [(".git", .file []), (fileName, .file line), ("a.js", .file [])] }
      (.ofLocation [])
    scan [102, 111, 111, 92] = .error (.invalid "**/foo\\") ∧
      scan [91, 98, 45, 97, 93] = .error (.range 'b' 'a' 10) ∧
      scan [33, 47] = .error (.invalid "!") :=
  ⟨rfl, rfl, rfl⟩

end ScriptSurvey.Ignore
