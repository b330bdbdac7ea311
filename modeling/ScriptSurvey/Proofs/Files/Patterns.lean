import Mathlib.Data.List.TakeWhile
import Mathlib.Tactic.Common
import ScriptSurvey.Files.Ignore.Pattern

/-!
# What ignore patterns mean

What a pattern covers depends on its normalized segments only.

* `Alike` relates two ways to read something that fail together and give something together.
* `itemsOf_alike`: neither the text that a fault quotes nor the place where a segment is spelled out
  matters to the items.
* `coverOf_many`: two stars in front of other segments let them hold at every depth
  (`matchesFrom_leading_iff`).
* `Pattern.ofSegments_single`: a single segment without a slash in front covers at every depth what
  it covers at the top with it; `normalize_empty_cons`: that slash changes nothing in front of two.
-/

namespace ScriptSurvey.Ignore

/-! ## Runs of characters -/

section Runs

variable {p : Char → Bool} {rest : List Char → Bool} {cs : List Char}

theorem afterRun_iff :
    afterRun p rest cs ↔ ∃ front tail, cs = front ++ tail ∧ (∀ c ∈ front, p c) ∧ rest tail := by
  induction cs with
  | nil =>
    constructor
    · intro h
      exact ⟨[], [], rfl, by simp, h⟩
    · rintro ⟨front, tail, h, -, hrest⟩
      obtain ⟨rfl, rfl⟩ := List.append_eq_nil_iff.mp h.symm
      exact hrest
  | cons c cs ih =>
    rw [afterRun, Bool.or_eq_true, Bool.and_eq_true, ih]
    constructor
    · rintro (h | ⟨hc, front, tail, rfl, hfront, hrest⟩)
      · exact ⟨[], c :: cs, rfl, by simp, h⟩
      · exact ⟨c :: front, tail, rfl, by simpa [hc] using hfront, hrest⟩
    · rintro ⟨front, tail, h, hfront, hrest⟩
      cases front with
      | nil =>
        obtain rfl : c :: cs = tail := h
        exact .inl hrest
      | cons d front =>
        obtain ⟨rfl, rfl⟩ := List.cons.inj h
        simp only [List.mem_cons, forall_eq_or_imp] at hfront
        exact .inr ⟨hfront.1, front, tail, rfl, hfront.2, hrest⟩

theorem afterSome_iff :
    afterSome p rest cs ↔
      ∃ front tail, front ≠ [] ∧ cs = front ++ tail ∧ (∀ c ∈ front, p c) ∧ rest tail := by
  cases cs with
  | nil => simp [afterSome]
  | cons c cs =>
    rw [afterSome, Bool.and_eq_true, afterRun_iff]
    constructor
    · rintro ⟨hc, front, tail, rfl, hfront, hrest⟩
      exact ⟨c :: front, tail, by simp, rfl, by simpa [hc] using hfront, hrest⟩
    · rintro ⟨front, tail, hne, h, hfront, hrest⟩
      cases front with
      | nil => exact absurd rfl hne
      | cons d front =>
        obtain ⟨rfl, rfl⟩ := List.cons.inj h
        simp only [List.mem_cons, forall_eq_or_imp] at hfront
        exact ⟨hfront.1, front, tail, rfl, hfront.2, hrest⟩

theorem afterSlash_iff : afterSlash rest cs ↔ ∃ tail, cs = '/' :: tail ∧ rest tail := by
  unfold afterSlash
  split
  · simp
  · rename_i h
    simpa using fun tail htail => (h tail htail).elim

end Runs

/-- A path itself, or what follows one of its slashes. The folders in front of the slash are on one
line. -/
def IsTail (tail path : String) : Prop :=
  tail = path ∨ ∃ folders, folders ≠ "" ∧ '\n' ∉ folders.toList ∧ path = folders ++ "/" ++ tail

theorem IsTail.mem {tail path : String} (h : IsTail tail path) {c : Char} (hc : c ∈ tail.toList) :
    c ∈ path.toList := by
  obtain rfl | ⟨folders, -, -, rfl⟩ := h
  · exact hc
  · simp [hc]

/-- Components at the start let the other items hold at every depth. -/
theorem matchesFrom_leading_iff {items : List Item} {path : String} :
    matchesFrom (.leading :: items) path.toList ↔
      ∃ tail, IsTail tail path ∧ matchesFrom items tail.toList := by
  rw [matchesFrom, Bool.or_eq_true, afterSome_iff]
  constructor
  · rintro (h | ⟨folders, rest, hne, hpath, hline, h⟩)
    · exact ⟨path, .inl rfl, h⟩
    · obtain ⟨tail, rfl, h⟩ := afterSlash_iff.mp h
      refine ⟨.ofList tail, .inr ⟨.ofList folders, by simpa using hne, fun hn => ?_, ?_⟩,
        by simpa [afterSlash] using h⟩
      · rw [String.toList_ofList] at hn
        exact absurd (hline _ hn) (by decide)
      · exact String.toList_injective (by simp [hpath])
  · rintro ⟨tail, rfl | ⟨folders, hne, hline, rfl⟩, h⟩
    · exact .inl h
    · have line : ∀ c ∈ folders.toList, onLine c := fun c hc => by
        simpa [onLine] using ne_of_mem_of_not_mem hc hline
      exact .inr ⟨folders.toList, '/' :: tail.toList, by simpa using hne, by simp, line, h⟩

/-- A component reaches to the first slash, or to the end. -/
theorem matchesFrom_component_iff {items : List Item} {path : List Char} :
    matchesFrom (.component :: items) path ↔
      ∃ front tail, front ≠ [] ∧ path = front ++ tail ∧ '/' ∉ front ∧ matchesFrom items tail := by
  rw [matchesFrom, afterSome_iff]
  refine exists₂_congr fun front tail => and_congr_right' (and_congr_right' (and_congr_left' ?_))
  simp only [inComponent, bne_iff_ne, ne_eq, List.forall_mem_ne']

/-- Characters that do not start with a slash start with a component. -/
theorem exists_component {c : Char} (hc : c ≠ '/') (cs : List Char) :
    ∃ front tail, front ≠ [] ∧ c :: cs = front ++ tail ∧ '/' ∉ front ∧
      (tail = [] ∨ ∃ below, tail = '/' :: below) := by
  refine ⟨(c :: cs).takeWhile (· != '/'), (c :: cs).dropWhile (· != '/'), by simp [hc],
    List.takeWhile_append_dropWhile.symm, fun hs => ?_, ?_⟩
  · simpa using List.mem_takeWhile_imp hs
  · cases hd : (c :: cs).dropWhile (· != '/') with
    | nil => exact .inl rfl
    | cons d below =>
      have hd' := List.head_dropWhile_not (· != '/') (hd ▸ List.cons_ne_nil d below)
      obtain rfl : d = '/' := by simpa [hd] using hd'
      exact .inr ⟨below, rfl⟩

/-! ## Readings that come out alike -/

/-- Two readings that both fail, both give nothing, or give two things that are related. -/
inductive Alike {α β : Type} (R : α → β → Prop) :
    Except PatternFault (Option α) → Except PatternFault (Option β) → Prop
  | fault (e e' : PatternFault) : Alike R (.error e) (.error e')
  | nothing : Alike R (.ok none) (.ok none)
  | found {a : α} {b : β} (h : R a b) : Alike R (.ok (some a)) (.ok (some b))

namespace Alike

variable {α β γ δ : Type} {R : α → β → Prop} {S : γ → δ → Prop}
  {x : Except PatternFault (Option α)} {y : Except PatternFault (Option β)}

theorem bind {f : Option α → Except PatternFault (Option γ)}
    {g : Option β → Except PatternFault (Option δ)} (h : Alike R x y)
    (hnone : Alike S (f none) (g none))
    (hsome : ∀ a b, R a b → Alike S (f (some a)) (g (some b))) : Alike S (x >>= f) (y >>= g) := by
  cases h with
  | fault e e' => exact .fault e e'
  | nothing => exact hnone
  | found h => exact hsome _ _ h

theorem map {f : α → γ} {g : β → δ} (h : Alike R x y) (hfg : ∀ a b, R a b → S (f a) (g b)) :
    Alike S (do return (← x).map f) (do return (← y).map g) :=
  h.bind .nothing fun _ _ h => .found (hfg _ _ h)

theorem map_left {S : γ → β → Prop} {f : α → γ} (h : Alike R x y) (hf : ∀ a b, R a b → S (f a) b) :
    Alike S (do return (← x).map f) y := by
  cases h with
  | fault e e' => exact .fault e e'
  | nothing => exact .nothing
  | found h => exact .found (hf _ _ h)

theorem mono {S : α → β → Prop} (h : Alike R x y) (hRS : ∀ a b, R a b → S a b) : Alike S x y := by
  cases h with
  | fault e e' => exact .fault e e'
  | nothing => exact .nothing
  | found h => exact .found (hRS _ _ h)

theorem symm (h : Alike R x y) : Alike (fun b a => R a b) y x := by
  cases h with
  | fault e e' => exact .fault e' e
  | nothing => exact .nothing
  | found h => exact .found h

theorem trans {S : β → γ → Prop} {z : Except PatternFault (Option γ)} (h : Alike R x y)
    (h' : Alike S y z) : Alike (fun a c => ∃ b, R a b ∧ S b c) x z := by
  cases h with
  | fault e e' =>
    cases h' with
    | fault _ e'' => exact .fault e e''
  | nothing =>
    cases h' with
    | nothing => exact .nothing
  | found h =>
    cases h' with
    | found h' => exact .found ⟨_, h, h'⟩

theorem exists_right (h : Alike R x y) {a : α} (hx : x = .ok (some a)) :
    ∃ b, y = .ok (some b) ∧ R a b := by
  cases h with
  | fault e e' => cases hx
  | nothing => cases hx
  | found h =>
    cases hx
    exact ⟨_, rfl, h⟩

end Alike

theorem exists_of_map_eq_ok {α β : Type} {x : Except PatternFault (Option α)} {f : α → β} {b : β}
    (h : (do return (← x).map f) = Except.ok (some b)) : ∃ a, x = .ok (some a) ∧ f a = b := by
  cases x with
  | error e => cases h
  | ok found =>
    cases found with
    | none => cases h
    | some a =>
      cases h
      exact ⟨a, rfl, rfl⟩

/-! ## Items -/

theorem rangeFaults_eq_nil_iff (place place' : Nat) (cs : List Char) :
    rangeFaults place cs = [] ↔ rangeFaults place' cs = [] := by
  fun_induction rangeFaults place cs generalizing place' with
  | case1 => simp [rangeFaults]
  | case2 place low high rest later h ih => simp [rangeFaults, h]
  | case3 place low high rest later h ih =>
    simp only [rangeFaults, h, if_false]
    exact ih _
  | case4 place c rest h ih =>
    rw [rangeFaults.eq_3 place' c rest h]
    exact ih _

/-- Two spelled-out forms that cover the same paths: one has the items of the other, and its ranges
are the right way round if those of the other are. -/
def Spelled.Same (s s' : Spelled) : Prop :=
  s.items = s'.items ∧ (s.faults = [] ↔ s'.faults = [])

theorem Spelled.Same.after {s s' : Spelled} (h : s.Same s') (items : List Item)
    {faults faults' : List PatternFault} (hf : faults = [] ↔ faults' = []) :
    (s.after items faults).Same (s'.after items faults') := by
  refine ⟨congrArg (items ++ ·) h.1, ?_⟩
  rw [Spelled.after, Spelled.after, List.append_eq_nil_iff, List.append_eq_nil_iff, hf, h.2]

section Spelling

variable (pattern pattern' : String)

theorem segmentItems_alike (fuel place place' : Nat) (cs : List Char) :
    Alike Spelled.Same (segmentItems pattern fuel place cs)
      (segmentItems pattern' fuel place' cs) := by
  induction fuel generalizing place place' cs with
  | zero => exact .found ⟨rfl, Iff.rfl⟩
  | succ fuel ih =>
    cases cs with
    | nil => exact .found ⟨rfl, Iff.rfl⟩
    | cons c rest =>
      unfold segmentItems
      split
      · exact (ih _ _ rest).map fun _ _ h => h.after _ Iff.rfl
      · exact (ih _ _ rest).map fun _ _ h => h.after _ Iff.rfl
      · cases rest with
        | nil => exact .fault _ _
        | cons escaped rest => exact (ih _ _ rest).map fun _ _ h => h.after _ Iff.rfl
      · dsimp only
        split
        · exact .nothing
        · exact (ih _ _ _).map fun _ _ h => h.after _ (rangeFaults_eq_nil_iff _ _ _)
      · exact (ih _ _ rest).map fun _ _ h => h.after _ Iff.rfl

/-- The items of segments depend on the segments and not on where they are spelled out. Being the
first matters to two stars alone. -/
theorem itemsOf_alike {first first' : Bool} (slash : Bool) (place place' : Nat)
    {segments : List String} (h : segments.head? = some manyComponents → first = first') :
    Alike Spelled.Same (itemsOf pattern first slash place segments)
      (itemsOf pattern' first' slash place' segments) := by
  induction segments generalizing first first' slash place place' with
  | nil => exact .found ⟨rfl, Iff.rfl⟩
  | cons segment rest ih =>
    unfold itemsOf
    dsimp only
    split
    case isTrue many =>
      obtain rfl := h (congrArg some many)
      split
      · exact (ih _ _ _ fun _ => rfl).map fun _ _ h => h.after _ Iff.rfl
      · split
        · exact .found ⟨rfl, Iff.rfl⟩
        · exact (ih _ _ _ fun _ => rfl).map fun _ _ h => h.after _ Iff.rfl
    case isFalse =>
      split
      · exact (ih _ _ _ fun _ => rfl).map fun _ _ h => h.after _ Iff.rfl
      · refine (segmentItems_alike pattern pattern' _ _ _ _).bind .nothing ?_
        rintro ⟨middle, stop, faults⟩ ⟨middle', stop', faults'⟩ ⟨items, faulty⟩
        obtain rfl : middle = middle' := items
        exact (ih _ _ _ fun _ => rfl).map fun _ _ h => h.after _ faulty

end Spelling

/-! ## Covers -/

/-- What a spelled-out form covers, if its ranges are the right way round. -/
def coverFrom (spelled : Except PatternFault (Option Spelled)) :
    Except PatternFault (Option Cover) := do
  match ← spelled with
  | none => return none
  | some spelled =>
    match spelled.faults with
    | fault :: _ => .error fault
    | [] => return some (.items spelled.items)

theorem coverFrom_alike {x y : Except PatternFault (Option Spelled)} {f : List Item → List Item}
    (h : Alike (fun s s' => s.items = f s'.items ∧ (s.faults = [] ↔ s'.faults = [])) x y) :
    Alike (fun c c' => ∃ items, c = .items (f items) ∧ c' = .items items)
      (coverFrom x) (coverFrom y) := by
  refine h.bind .nothing ?_
  rintro ⟨items, stop, faults⟩ ⟨items', stop', faults'⟩ ⟨rfl, faulty⟩
  cases faults with
  | nil =>
    obtain rfl : faults' = [] := faulty.mp rfl
    exact .found ⟨items', rfl, rfl⟩
  | cons e faults =>
    cases faults' with
    | nil => exact absurd (faulty.mpr rfl) (List.cons_ne_nil e faults)
    | cons e' faults' => exact .fault e e'

theorem exists_of_coverFrom_eq_ok {x : Except PatternFault (Option Spelled)} {c : Cover}
    (h : coverFrom x = .ok (some c)) :
    ∃ s, x = .ok (some s) ∧ s.faults = [] ∧ c = .items s.items := by
  cases x with
  | error e => cases h
  | ok found =>
    cases found with
    | none => cases h
    | some s =>
      obtain ⟨items, stop, faults⟩ := s
      cases faults with
      | nil =>
        cases h
        exact ⟨_, rfl, rfl, rfl⟩
      | cons e faults => cases h

/-- The segments that are not spelled out. -/
def unspelled : List (List String) :=
  [[], ["**"], ["**", "*"], ["**", "*", "**"]]

section Covers

variable (pattern pattern' : String) (belowOnly belowOnly' : Bool) {segments : List String}

theorem coverOf_eq (h : segments ∉ unspelled) :
    coverOf pattern belowOnly segments = coverFrom (itemsOf pattern true false 1 segments) := by
  unfold coverOf
  split
  case h_5 => rfl
  all_goals simp [unspelled] at h

/-- What segments cover does not depend on the text that a fault quotes. -/
theorem coverOf_alike :
    Alike Eq (coverOf pattern belowOnly segments) (coverOf pattern' belowOnly segments) := by
  by_cases h : segments ∈ unspelled
  · simp only [unspelled, List.mem_cons, List.not_mem_nil, or_false] at h
    obtain rfl | rfl | rfl | rfl := h
    · exact .fault _ _
    all_goals exact .found rfl
  · rw [coverOf_eq _ _ h, coverOf_eq _ _ h]
    refine (coverFrom_alike (f := id) (itemsOf_alike _ _ _ _ _ fun _ => rfl)).mono ?_
    rintro c c' ⟨items, rfl, rfl⟩
    rfl

/-- Two stars in front let segments hold at every depth. A segment of one star is not spelled out
there. -/
theorem coverOf_many {segment : String} (hm : segment ≠ manyComponents) (hs : segment ≠ "*")
    (rest : List String) :
    Alike (fun c c' => ∃ items, c = .items (.leading :: items) ∧ c' = .items items)
      (coverOf pattern belowOnly (manyComponents :: segment :: rest))
      (coverOf pattern' belowOnly' (segment :: rest)) := by
  have spelled : manyComponents :: segment :: rest ∉ unspelled := by
    simp [unspelled, manyComponents, hs]
  have spelled' : segment :: rest ∉ unspelled := by
    simp [unspelled, show segment ≠ "**" from hm]
  have items : Alike Spelled.Same (itemsOf pattern false false 9 (segment :: rest))
      (itemsOf pattern' true false 1 (segment :: rest)) :=
    itemsOf_alike _ _ _ _ _ fun h => absurd (Option.some.inj h) hm
  rw [coverOf_eq _ _ spelled, coverOf_eq _ _ spelled']
  exact coverFrom_alike (items.map_left fun _ _ h => ⟨congrArg _ h.1, h.2⟩)

end Covers

/-! ## Segments -/

/-- Segments that are a single one, with or without a slash at its end. -/
def IsSingle (segment : String) (segments : List String) : Prop :=
  segment ≠ "" ∧ (segments = [segment] ∨ segments = [segment, ""])

section Normalize

variable {x y : String} {segments : List String}

/-- Two segments hold at their place, with or without a slash in front. -/
theorem normalize_empty_cons {more : List String} (hx : x ≠ "") (hy : y ≠ "" ∨ more ≠ []) :
    normalize ("" :: x :: y :: more) = normalize (x :: y :: more) := by
  cases more with
  | nil => simp [normalize, hx, hy.resolve_right (by simp)]
  | cons z more => simp [normalize, hx]

/-- A single segment holds at every depth, unless a slash stands in front. -/
theorem normalize_single (h : IsSingle x segments) (hm : x ≠ manyComponents) :
    ∃ rest, normalize ("" :: segments) = x :: rest ∧
      normalize segments = manyComponents :: x :: rest := by
  obtain ⟨hx, rfl | rfl⟩ := h
  · exact ⟨[], by simp [normalize, collapse, hx, hm]⟩
  · exact ⟨[manyComponents], by simp [normalize, collapse, hm]⟩

theorem normalize_many_cons (h : IsSingle x segments) :
    normalize (manyComponents :: segments) = normalize segments := by
  obtain ⟨hx, rfl | rfl⟩ := h
  all_goals
    rw [← normalize_empty_cons (by decide) (.inl hx)]
    by_cases hm : x = manyComponents
    · subst hm
      rfl
    · simp [normalize, collapse, hx, hm]

end Normalize

namespace Pattern

/-- The pattern of the segments of a text. -/
def ofSegments (text : String) (keeps : Bool) (segments : List String) :
    Except PatternFault (Option Pattern) := do
  return (← coverOf text (segments.getLast? == some "") (normalize segments)).map
    ({ keeps, cover := · })

/-- A path that does not start at the top: it has a character, and the first is not a slash. -/
def IsRelative (path : String) : Prop :=
  ∃ c cs, path.toList = c :: cs ∧ c ≠ '/'

/-- `p` covers, at every depth, what `q` covers at the top. -/
def AtEveryDepth (p q : Pattern) : Prop :=
  p.keeps = q.keeps ∧ ∀ path, IsRelative path →
    (p.covers path ↔ ∃ tail, IsTail tail path ∧ q.covers tail)

theorem atEveryDepth_leading (keeps : Bool) (items : List Item) :
    AtEveryDepth ⟨keeps, .items (.leading :: items)⟩ ⟨keeps, .items items⟩ :=
  ⟨rfl, fun _ _ => matchesFrom_leading_iff⟩

theorem atEveryDepth_everything (keeps : Bool) :
    AtEveryDepth ⟨keeps, .everything⟩ ⟨keeps, .everything⟩ :=
  ⟨rfl, fun path _ => ⟨fun _ => ⟨path, .inl rfl, rfl⟩, fun _ => rfl⟩⟩

theorem atEveryDepth_nested (keeps : Bool) : AtEveryDepth ⟨keeps, .nested⟩ ⟨keeps, .nested⟩ := by
  refine ⟨rfl, fun path _ => ⟨fun h => ⟨path, .inl rfl, h⟩, ?_⟩⟩
  rintro ⟨tail, ht, h⟩
  simp only [covers, List.contains_iff_mem] at h ⊢
  exact ht.mem h

theorem atEveryDepth_component (keeps : Bool) :
    AtEveryDepth ⟨keeps, .everything⟩ ⟨keeps, .items [.component, .finish]⟩ := by
  refine ⟨rfl, fun path hp => ⟨fun _ => ⟨path, .inl rfl, ?_⟩, fun _ => rfl⟩⟩
  obtain ⟨c, cs, hpath, hc⟩ := hp
  obtain ⟨front, tail, hne, hcs, hfront, htail⟩ := exists_component hc cs
  refine matchesFrom_component_iff.mpr ⟨front, tail, hne, hpath.trans hcs, hfront, ?_⟩
  obtain rfl | ⟨below, rfl⟩ := htail
  · rfl
  · rfl

theorem atEveryDepth_component_slash (keeps : Bool) :
    AtEveryDepth ⟨keeps, .nested⟩ ⟨keeps, .items [.component, .exactly '/']⟩ := by
  refine ⟨rfl, fun path hp => ⟨fun h => ⟨path, .inl rfl, ?_⟩, ?_⟩⟩
  · obtain ⟨c, cs, hpath, hc⟩ := hp
    obtain ⟨front, tail, hne, hcs, hfront, htail⟩ := exists_component hc cs
    refine matchesFrom_component_iff.mpr ⟨front, tail, hne, hpath.trans hcs, hfront, ?_⟩
    obtain rfl | ⟨below, rfl⟩ := htail
    · simp [covers, hpath.trans hcs, hfront] at h
    · rfl
  · rintro ⟨tail, ht, h⟩
    obtain ⟨front, rest, -, htail, -, h⟩ := matchesFrom_component_iff.mp h
    cases rest with
    | nil => cases h
    | cons d rest =>
      obtain rfl : '/' = d := by simpa [matchesFrom] using h
      simp only [covers, List.contains_iff_mem]
      exact ht.mem (by simp [htail])

section OfSegments

variable (text text' : String) (keeps : Bool) {segments segments' : List String}

/-- Segments that normalize alike make the same pattern. -/
theorem ofSegments_alike (hn : normalize segments = normalize segments')
    (hl : segments.getLast? = segments'.getLast?) :
    Alike Eq (ofSegments text keeps segments) (ofSegments text' keeps segments') := by
  rw [ofSegments, ofSegments, hn, hl]
  exact (coverOf_alike text text' _).map fun _ _ h => congrArg _ h

/-- A slash in front of a single segment is what keeps it at the top. -/
theorem ofSegments_single {x : String} (h : IsSingle x segments) :
    Alike AtEveryDepth (ofSegments text keeps segments)
      (ofSegments text' keeps ("" :: segments)) := by
  -- segments of stars only are not spelled out, one by one
  by_cases hm : x = manyComponents
  · subst hm
    obtain ⟨-, rfl | rfl⟩ := h
    · exact .found (atEveryDepth_everything keeps)
    · exact .found (atEveryDepth_nested keeps)
  by_cases hs : x = "*"
  · subst hs
    obtain ⟨-, rfl | rfl⟩ := h
    · exact .found (atEveryDepth_component keeps)
    · exact .found (atEveryDepth_component_slash keeps)
  obtain ⟨rest, top, anywhere⟩ := normalize_single h hm
  rw [ofSegments, ofSegments, anywhere, top]
  refine (coverOf_many text text' _ _ hm hs rest).map ?_
  rintro c c' ⟨items, rfl, rfl⟩
  exact atEveryDepth_leading keeps items

end OfSegments

end Pattern

end ScriptSurvey.Ignore
