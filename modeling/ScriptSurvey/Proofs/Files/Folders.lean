import ScriptSurvey.Proofs.Files.IgnoreLines
import ScriptSurvey.Proofs.Files.Segments

/-!
# Patterns below a folder

The path of a folder is put in front of a pattern as it is, so it must not mean anything there
(`PlainFolder`). Then a pattern below the folder covers in it what the pattern covers at the top.

* `itemsOf_names`: names that mean nothing are spelled out as their characters.
* `normalize_append`: below a folder segments hold as they hold behind a slash.
* `PlainFolder.ofSegments_inside`: what is below the folder is matched as if the folder were the
  top. The components on the way below the folder are those at the start of the rest
  (`matchesFrom_inner_slash`).
* `PlainFolder.exists_below`: nothing but what is below the folder is matched.
-/

namespace ScriptSurvey.Ignore

open Pattern

/-! ## Names that stand for themselves -/

/-- The characters that mean something wherever they stand in a pattern. -/
def wildChars : List Char :=
  ['/', '*', '?', '[', '\\']

/-- A name that stands for itself in a pattern. -/
def IsLiteral (name : String) : Prop :=
  name ≠ "" ∧ ∀ c ∈ name.toList, c ∉ wildChars

instance (name : String) : Decidable (IsLiteral name) :=
  decidable_of_iff (name ≠ "" ∧ name.toList.all (!wildChars.contains ·)) (by simp [IsLiteral])

/-- A folder whose path stands for itself in front of a pattern: it is not the top, its names stand
for themselves, and the first does not start with the mark that negates. -/
structure PlainFolder (here : List String) : Prop where
  ne_nil : here ≠ []
  names : ∀ name ∈ here, IsLiteral name
  sign : ("/".intercalate here).toList.head? ≠ some '!'

theorem reads_literal {cs : List Char} (h : ∀ c ∈ cs, c ∉ wildChars) :
    Reads cs (cs.map .exactly) [] := by
  induction cs with
  | nil => exact .done []
  | cons c cs ih =>
    obtain ⟨hc, hcs⟩ := List.forall_mem_cons.mp h
    refine .step (.char (fun hmem => hc ?_) cs) (ih hcs)
    simp only [List.mem_cons, List.not_mem_nil, or_false] at hmem
    obtain rfl | rfl | rfl | rfl := hmem <;> decide

section Name

variable {name : String} (h : IsLiteral name)

include h

theorem ne_stars_of_literal : name ≠ manyComponents ∧ name ≠ "*" := by
  obtain ⟨c, cs, hname⟩ : ∃ c cs, name.toList = c :: cs :=
    List.exists_cons_of_ne_nil (by simpa using h.1)
  have hc : c ∈ name.toList := by simp [hname]
  exact ne_stars_of_mem hc fun hs => h.2 c hc (by simp [hs, wildChars])

theorem spells_literal : Spells name (name.toList.map .exactly) := by
  rw [Spells, if_neg (ne_stars_of_literal h).2]
  exact reads_literal h.2

end Name

/-- The form `s` is the form `s'` with items in front, the ranges of which are the right way
round. -/
def Spelled.Behind (front : List Item) (s s' : Spelled) : Prop :=
  s.items = front ++ s'.items ∧ (s.faults = [] ↔ s'.faults = [])

theorem Spelled.Behind.after {front : List Item} {s s' : Spelled} (h : s.Behind front s')
    (items : List Item) : (s.after items []).Behind (items ++ front) s' := by
  refine ⟨?_, h.2⟩
  rw [List.append_assoc, ← h.1]
  rfl

theorem Spelled.Same.behind {s s' : Spelled} (h : s.Same s') : s.Behind [] s' :=
  h

/-- Names that stand for themselves are spelled out as their characters. -/
theorem itemsOf_names {here : List String} (h : ∀ name ∈ here, IsLiteral name) (hne : here ≠ [])
    {rest : List String} (hr : rest ≠ []) (pattern pattern' : String) (first slash : Bool)
    (place place' : Nat) :
    Alike (Spelled.Behind ((mark '/' slash ++ ("/".intercalate here).toList).map .exactly))
      (itemsOf pattern first slash place (here ++ rest))
      (itemsOf pattern' false true place' rest) := by
  induction here generalizing first slash place with
  | nil => exact absurd rfl hne
  | cons name more ih =>
    obtain ⟨hname, hmore⟩ := List.forall_mem_cons.mp h
    obtain ⟨stop, faults, hf, heq⟩ := itemsOf_of_spells pattern first slash place (more ++ rest)
      (ne_stars_of_literal hname).1 (spells_literal hname)
    obtain rfl : faults = [] := hf.mpr (by simp [Item.IsReversed])
    have onward : (more ++ rest).isEmpty = false := by simp [hr]
    have items : rowItems slash false (name.toList.map .exactly) =
        (mark '/' slash ++ name.toList).map .exactly := by
      cases slash <;> simp [rowItems, mark]
    rw [List.cons_append, heq, onward, items]
    cases more with
    | nil =>
      rw [String.intercalate_singleton]
      refine (itemsOf_alike pattern pattern' true stop place' fun _ => rfl).map_left ?_
      exact fun s s' h => by simpa using h.behind.after _
    | cons next more =>
      refine (ih hmore (List.cons_ne_nil next more) false true stop).map_left fun s s' h => ?_
      rw [String.intercalate_cons_of_ne_nil (List.cons_ne_nil next more)]
      simpa [mark] using h.after ((mark '/' slash ++ name.toList).map .exactly)

theorem exists_of_matchesFrom_exactly {c : Char} {items : List Item} {path : List Char}
    (h : matchesFrom (.exactly c :: items) path) : ∃ tail, path = c :: tail := by
  cases path with
  | nil => cases h
  | cons d tail =>
    obtain ⟨rfl, -⟩ : c = d ∧ matchesFrom items tail := by simpa [matchesFrom] using h
    exact ⟨tail, rfl⟩

/-- What stands behind other segments starts with a slash. -/
theorem exists_slash_of_itemsOf {pattern : String} {place : Nat} {rest : List String} {s : Spelled}
    (hr : rest ≠ []) (hs : itemsOf pattern false true place rest = .ok (some s)) {path : List Char}
    (hp : matchesFrom s.items path) : ∃ tail, path = '/' :: tail := by
  induction rest generalizing place s path with
  | nil => exact absurd rfl hr
  | cons segment rest ih =>
    by_cases hm : segment = manyComponents
    · subst hm
      cases rest with
      | nil =>
        rw [itemsOf_many_last] at hs
        cases hs
        exact exists_of_matchesFrom_exactly hp
      | cons next rest =>
        rw [itemsOf_many_inner _ _ _ _ (List.cons_ne_nil next rest)] at hs
        obtain ⟨s, hrest, rfl⟩ := exists_of_map_eq_ok hs
        obtain hp | hp := (Bool.or_eq_true _ _).mp hp
        · exact ih (List.cons_ne_nil next rest) hrest hp
        · obtain ⟨tail, rfl, -⟩ := afterSlash_iff.mp hp
          exact ⟨tail, rfl⟩
    · obtain ⟨items, _, s', -, -, hitems⟩ := exists_spells_of_itemsOf hm hs
      rw [hitems] at hp
      exact exists_of_matchesFrom_exactly hp

/-- A slash in front of segments is all that other segments before them change. -/
theorem itemsOf_slash {segment : String} (hm : segment ≠ manyComponents) (rest : List String)
    (pattern pattern' : String) (place place' : Nat) :
    Alike (Spelled.Behind [.exactly '/']) (itemsOf pattern false true place (segment :: rest))
      (itemsOf pattern' true false place' (segment :: rest)) := by
  obtain h | h | ⟨items, h⟩ := exists_spells segment
  · rw [itemsOf_of_dangling _ _ _ _ _ h, itemsOf_of_dangling _ _ _ _ _ h]
    exact .fault _ _
  · rw [itemsOf_of_unclosed _ _ _ _ _ h, itemsOf_of_unclosed _ _ _ _ _ h]
    exact .nothing
  · obtain ⟨stop, faults, hf, heq⟩ := itemsOf_of_spells pattern false true place rest hm h
    obtain ⟨stop', faults', hf', heq'⟩ := itemsOf_of_spells pattern' true false place' rest hm h
    rw [heq, heq']
    refine (itemsOf_alike pattern pattern' true stop stop' fun _ => rfl).map fun s s' same => ?_
    refine ⟨?_, ?_⟩
    · simp [Spelled.after, rowItems, same.1]
    · simp only [Spelled.after, List.append_eq_nil_iff, hf, hf', same.2]

/-! ## Segments below a folder -/

theorem collapse_cons {segment : String} (hm : segment ≠ manyComponents) (rest : List String) :
    collapse (segment :: rest) = segment :: collapse rest := by
  simp [collapse, hm]

theorem collapse_append {here : List String} (h : manyComponents ∉ here) (rest : List String) :
    collapse (here ++ rest) = here ++ collapse rest := by
  induction here with
  | nil => rfl
  | cons name more ih =>
    obtain ⟨hname, hmore⟩ := List.ne_and_not_mem_of_not_mem_cons h
    rw [List.cons_append, collapse_cons hname.symm, ih hmore, List.cons_append]

theorem collapse_ne_nil {segments : List String} (h : segments ≠ []) : collapse segments ≠ [] := by
  induction segments with
  | nil => exact absurd rfl h
  | cons segment rest ih =>
    rw [collapse]
    split
    · next many =>
      refine ih ?_
      rintro rfl
      simp at many
    · exact List.cons_ne_nil _ _

/-- Segments with two stars in place of nothing at their end. -/
def closed (segments : List String) : List String :=
  if segments.getLast? == some "" then segments.dropLast ++ [manyComponents] else segments

theorem normalize_empty (segments : List String) :
    normalize ("" :: segments) = collapse (closed segments) :=
  rfl

theorem closed_cons {segment : String} {rest : List String} (h : segment ≠ "" ∨ rest ≠ []) :
    closed (segment :: rest) = segment :: closed rest := by
  cases rest with
  | nil => simp [closed, h.resolve_right (by simp)]
  | cons next rest =>
    rw [closed, closed, List.getLast?_cons_cons, List.dropLast_cons_cons]
    split <;> rfl

theorem closed_append (here : List String) {segments : List String} (hs : segments ≠ []) :
    closed (here ++ segments) = here ++ closed segments := by
  induction here with
  | nil => rfl
  | cons name more ih =>
    rw [List.cons_append, closed_cons (.inr (by simp [hs])), ih, List.cons_append]

theorem closed_ne_nil {segments : List String} (hs : segments ≠ []) : closed segments ≠ [] := by
  unfold closed
  split
  · simp
  · exact hs

/-- Below a folder segments hold as they hold behind a slash. A name with nothing but a slash after
it is a single segment, though. -/
theorem normalize_append {here : List String} (hn : "" ∉ here) (hm : manyComponents ∉ here)
    (hne : here ≠ []) {segments : List String} (hs : segments ≠ [])
    (slash : here.length = 1 → segments ≠ [""]) :
    normalize (here ++ segments) = here ++ normalize ("" :: segments) := by
  have anchored : normalize ("" :: (here ++ segments)) = normalize (here ++ segments) := by
    obtain ⟨name, more, rfl⟩ := List.exists_cons_of_ne_nil hne
    obtain ⟨hname, hmore⟩ := List.ne_and_not_mem_of_not_mem_cons hn
    cases more with
    | nil =>
      obtain ⟨next, rest, rfl⟩ := List.exists_cons_of_ne_nil hs
      refine normalize_empty_cons hname.symm ?_
      simpa [Classical.or_iff_not_imp_left] using slash rfl
    | cons next more =>
      exact normalize_empty_cons hname.symm (.inl (List.ne_of_not_mem_cons hmore).symm)
  rw [← anchored, normalize_empty, closed_append here hs, collapse_append hm, normalize_empty]

section Cons

variable {x : String} (hx : x ≠ "") (hm : x ≠ manyComponents) (more : List String)

include hx hm

theorem normalize_cons : normalize ("" :: x :: more) = x :: collapse (closed more) := by
  rw [normalize_empty, closed_cons (.inl hx), collapse_cons hm]

theorem normalize_many_cons_cons :
    normalize ("" :: manyComponents :: x :: more) =
      manyComponents :: x :: collapse (closed more) := by
  rw [normalize_empty, closed_cons (.inr (List.cons_ne_nil x more)), closed_cons (.inl hx),
    ← collapse_cons hm]
  simp [collapse, hm]

end Cons

section Path

variable {here : List String} (hne : here ≠ [])

include hne

theorem exists_intercalate_eq_cons (h : ∀ name ∈ here, name ≠ "") :
    ∃ c cs, ("/".intercalate here).toList = c :: cs := by
  obtain ⟨name, more, rfl⟩ := List.exists_cons_of_ne_nil hne
  have hname : name.toList ≠ [] := by simpa using h name List.mem_cons_self
  refine List.exists_cons_of_ne_nil ?_
  cases more with
  | nil => rwa [String.intercalate_singleton]
  | cons next more =>
    rw [String.intercalate_cons_of_ne_nil (List.cons_ne_nil next more)]
    simp [hname]

/-- The path of a folder is cut into its names. -/
theorem splitAt_intercalate (h : ∀ name ∈ here, '/' ∉ name.toList) :
    Text.splitAt '/' ("/".intercalate here) = here := by
  have cut := splitOn_intercalate hne h
  rw [List.splitOn] at cut
  rw [Text.splitAt, Text.pieces_eq_splitOnP, cut]
  simp

theorem splitAt_intercalate_append (h : ∀ name ∈ here, '/' ∉ name.toList) (rest : List Char) :
    Text.splitAt '/' (String.ofList (("/".intercalate here).toList ++ '/' :: rest)) =
      here ++ Text.splitAt '/' (String.ofList rest) := by
  have names := splitAt_intercalate hne h
  simp only [Text.splitAt, Text.pieces_eq_splitOnP, String.toList_ofList] at names ⊢
  rw [List.splitOnP_append_cons _ _ (by rfl), List.map_append, names]

end Path

namespace PlainFolder

variable {here : List String} (folder : PlainFolder here)

include folder

theorem not_mem_empty : "" ∉ here :=
  fun h => (folder.names "" h).1 rfl

theorem not_mem_many : manyComponents ∉ here :=
  fun h => (ne_stars_of_literal (folder.names _ h)).1 rfl

theorem exists_text_eq : ∃ c cs, ("/".intercalate here).toList = c :: cs :=
  exists_intercalate_eq_cons folder.ne_nil fun name hn => (folder.names name hn).1

theorem splitAt_append (rest : List Char) :
    Text.splitAt '/' (String.ofList (("/".intercalate here).toList ++ '/' :: rest)) =
      here ++ Text.splitAt '/' (String.ofList rest) :=
  splitAt_intercalate_append folder.ne_nil
    (fun name hn hs => (folder.names name hn).2 '/' hs (by simp [wildChars])) rest

theorem coverOf_append (pattern pattern' : String) (belowOnly : Bool) (place : Nat)
    {rest : List String} (hr : rest ≠ []) :
    Alike (fun c c' => ∃ items,
        c = .items (("/".intercalate here).toList.map .exactly ++ items) ∧ c' = .items items)
      (coverOf pattern belowOnly (here ++ rest))
      (coverFrom (itemsOf pattern' false true place rest)) := by
  have spelled : here ++ rest ∉ unspelled := by
    obtain ⟨name, more, hmore⟩ := List.exists_cons_of_ne_nil folder.ne_nil
    have hname : name ≠ "**" := fun h => folder.not_mem_many (by simp [hmore, h, manyComponents])
    simp [unspelled, hmore, hname]
  rw [coverOf_eq _ _ spelled]
  exact coverFrom_alike (f := (("/".intercalate here).toList.map Item.exactly ++ ·))
    (itemsOf_names folder.names folder.ne_nil hr pattern pattern' true false 1 place)

end PlainFolder

/-! ## Matching below a folder -/

theorem matchesFrom_exactly_append (cs : List Char) (items : List Item) (tail : List Char) :
    matchesFrom (cs.map .exactly ++ items) (cs ++ tail) = matchesFrom items tail := by
  induction cs with
  | nil => rfl
  | cons c cs ih => simp [matchesFrom, ih]

theorem exists_of_matchesFrom_append {cs : List Char} {items : List Item} {path : List Char}
    (h : matchesFrom (cs.map .exactly ++ items) path) :
    ∃ tail, path = cs ++ tail ∧ matchesFrom items tail := by
  induction cs generalizing path with
  | nil => exact ⟨path, rfl, h⟩
  | cons c cs ih =>
    obtain ⟨path, rfl⟩ := exists_of_matchesFrom_exactly h
    obtain ⟨tail, rfl, ht⟩ := ih (by simpa [matchesFrom] using h)
    exact ⟨tail, rfl, ht⟩

theorem matchesFrom_slash (items : List Item) :
    matchesFrom (.exactly '/' :: items) = afterSlash (matchesFrom items) := by
  funext path
  cases path with
  | nil => rfl
  | cons c path =>
    by_cases hc : c = '/'
    · subst hc
      simp [matchesFrom, afterSlash]
    · simp [matchesFrom, afterSlash, hc, Ne.symm hc]

/-- Components on the way below a folder are components at the start of what is below. -/
theorem matchesFrom_inner_slash (items : List Item) (path : List Char) :
    matchesFrom (.inner :: .exactly '/' :: items) ('/' :: path) =
      matchesFrom (.leading :: items) path := by
  rw [matchesFrom, matchesFrom, matchesFrom_slash]
  rfl

/-! ## Patterns below a folder -/

section Slash

variable {x : String} (hm : x ≠ manyComponents) (rest : List String) (pattern pattern' : String)
  (place : Nat) (belowOnly : Bool)

include hm

theorem coverFrom_slash :
    Alike (fun c c' => ∃ items, c = .items (.exactly '/' :: items) ∧ c' = .items items)
      (coverFrom (itemsOf pattern false true place (x :: rest)))
      (coverOf pattern' belowOnly (x :: rest)) := by
  have spelled : x :: rest ∉ unspelled := by simp [unspelled, show x ≠ "**" from hm]
  rw [coverOf_eq _ _ spelled]
  exact coverFrom_alike (f := (Item.exactly '/' :: ·)) (itemsOf_slash hm rest _ _ _ _)

theorem coverFrom_inner :
    Alike (fun c c' => ∃ items, c = .items (.inner :: .exactly '/' :: items) ∧ c' = .items items)
      (coverFrom (itemsOf pattern false true place (manyComponents :: x :: rest)))
      (coverOf pattern' belowOnly (x :: rest)) := by
  have spelled : x :: rest ∉ unspelled := by simp [unspelled, show x ≠ "**" from hm]
  rw [coverOf_eq _ _ spelled, itemsOf_many_inner _ _ _ _ (List.cons_ne_nil x rest)]
  refine coverFrom_alike (f := (Item.inner :: Item.exactly '/' :: ·)) ?_
  exact (itemsOf_slash hm rest pattern pattern' _ 1).map_left fun s s' h => h.after [.inner]

end Slash

/-- The part of a path that a place is held against: all of it, or, for a place that holds at every
depth, also what follows a slash. -/
def IsPart (deep : Bool) (part path : String) : Prop :=
  if deep then IsTail part path else part = path

theorem isPart_empty {deep : Bool} {part : String} : IsPart deep part "" ↔ part = "" := by
  cases deep with
  | false => simp [IsPart]
  | true =>
    simp only [IsPart, if_true, IsTail, or_iff_left_iff_imp]
    rintro ⟨folders, -, -, h⟩
    simpa using congrArg String.toList h

/-- `p` covers in the folder `base`, at its place or at every depth, what `q` covers at the top. -/
def Pattern.Inside (base : String) (deep : Bool) (p q : Pattern) : Prop :=
  p.keeps = q.keeps ∧
    ∀ path, p.covers (base ++ "/" ++ path) ↔ ∃ part, IsPart deep part path ∧ q.covers part

/-- The segments in front of a place that let it hold at every depth. -/
def depth (deep : Bool) : List String :=
  if deep then [manyComponents] else []

theorem Pattern.covers_below (keeps : Bool) (base : String) (items : List Item) (path : String) :
    covers ⟨keeps, .items (base.toList.map .exactly ++ items)⟩ (base ++ "/" ++ path) =
      matchesFrom items ('/' :: path.toList) := by
  dsimp only [covers]
  rw [String.toList_append, String.toList_append, List.append_assoc, matchesFrom_exactly_append]
  rfl

theorem PlainFolder.ofSegments_inside {here : List String} (folder : PlainFolder here) {x : String}
    (hx : x ≠ "") (hm : x ≠ manyComponents) (more : List String) (text text' : String)
    (keeps deep : Bool) :
    Alike (Inside ("/".intercalate here) deep)
      (ofSegments text keeps (here ++ (depth deep ++ x :: more)))
      (ofSegments text' keeps ("" :: x :: more)) := by
  have single : here.length = 1 → depth deep ++ x :: more ≠ [""] := by
    rintro -
    cases deep <;> simp [depth, hx]
  rw [ofSegments, ofSegments, normalize_append folder.not_mem_empty folder.not_mem_many
    folder.ne_nil (by simp) single, normalize_cons hx hm]
  cases deep with
  | false =>
    rw [depth, if_neg Bool.false_ne_true, List.nil_append, normalize_cons hx hm]
    refine ((folder.coverOf_append text text' _ 1 (List.cons_ne_nil _ _)).trans
      (coverFrom_slash hm _ text' text' 1 _)).map ?_
    rintro c c' ⟨_, ⟨items, rfl, rfl⟩, items', ⟨⟩, rfl⟩
    refine ⟨rfl, fun path => ?_⟩
    rw [covers_below, matchesFrom_slash]
    simp [IsPart, afterSlash, covers]
  | true =>
    rw [depth, if_pos rfl, List.singleton_append, normalize_many_cons_cons hx hm]
    refine ((folder.coverOf_append text text' _ 1 (List.cons_ne_nil _ _)).trans
      (coverFrom_inner hm _ text' text' 1 _)).map ?_
    rintro c c' ⟨_, ⟨items, rfl, rfl⟩, items', ⟨⟩, rfl⟩
    refine ⟨rfl, fun path => ?_⟩
    rw [covers_below, matchesFrom_inner_slash, matchesFrom_leading_iff]
    rfl

/-- What a pattern below a folder covers is below the folder. -/
theorem PlainFolder.exists_below {here : List String} (folder : PlainFolder here)
    {segments : List String} (hs : segments ≠ []) (slash : here.length = 1 → segments ≠ [""])
    {text : String} {keeps : Bool} {p : Pattern}
    (hp : ofSegments text keeps (here ++ segments) = .ok (some p)) {path : String}
    (hc : p.covers path) : ∃ below, path = "/".intercalate here ++ "/" ++ below := by
  have rest : normalize ("" :: segments) ≠ [] := by
    rw [normalize_empty]
    exact collapse_ne_nil (closed_ne_nil hs)
  rw [ofSegments, normalize_append folder.not_mem_empty folder.not_mem_many folder.ne_nil hs
    slash] at hp
  obtain ⟨c, hcover, rfl⟩ := exists_of_map_eq_ok hp
  obtain ⟨_, hrest, items, rfl, rfl⟩ :=
    (folder.coverOf_append text text _ 1 rest).exists_right hcover
  obtain ⟨s, hs, -, ⟨⟩⟩ := exists_of_coverFrom_eq_ok hrest
  obtain ⟨tail, hpath, htail⟩ := exists_of_matchesFrom_append hc
  obtain ⟨below, rfl⟩ := exists_slash_of_itemsOf rest hs htail
  exact ⟨.ofList below, String.toList_injective (by simp [hpath])⟩

end ScriptSurvey.Ignore
