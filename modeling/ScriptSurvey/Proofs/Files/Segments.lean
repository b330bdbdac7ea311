import Mathlib.Data.List.TakeDrop
import ScriptSurvey.Proofs.Files.Patterns

/-!
# How a segment is read

`Token` says what one item of a segment looks like, and `Reads` what the items of a segment are, up
to some character. A reading goes on to the end, or to what cannot be read (`exists_reads`): a
backslash with nothing behind it (`Dangling`) or a bracket that is not closed (`Unclosed`).

* `Reads.segmentItems_eq`: the items of a segment are those that it is read as, with a fault for
  each range that is the wrong way round.
* `itemsOf_of_spells`, `itemsOf_of_dangling` and `itemsOf_of_unclosed`: what the first of several
  segments contributes.
-/

namespace ScriptSurvey.Ignore

/-! ## Brackets -/

/-- What follows an opening bracket: whether the set is a complement, its body, and the characters
after the closing bracket. The body has a first character, which may be a closing bracket too. -/
structure Bracket (cs : List Char) (negated : Bool) (body after : List Char) : Prop where
  sign : negated = (cs.head? == some '!' || cs.head? == some '^')
  text : (if negated then cs.drop 1 else cs) = body ++ ']' :: after
  body : ∃ c others, body = c :: others ∧ ']' ∉ others

theorem close_eq_some_iff {cs body after : List Char} :
    setBody?.close cs = some (body, after) ↔ cs = body ++ ']' :: after ∧ ']' ∉ body := by
  rw [setBody?.close, List.span_eq_takeWhile_dropWhile]
  constructor
  · intro h
    cases hd : cs.dropWhile (· != ']') with
    | nil => simp [hd] at h
    | cons c rest =>
      have hc := List.head_dropWhile_not (· != ']') (hd ▸ List.cons_ne_nil c rest)
      obtain rfl : c = ']' := by simpa [hd] using hc
      simp only [hd, Option.some.injEq, Prod.mk.injEq] at h
      obtain ⟨rfl, rfl⟩ := h
      refine ⟨by rw [← hd, List.takeWhile_append_dropWhile], fun hm => ?_⟩
      simpa using List.mem_takeWhile_imp hm
  · rintro ⟨rfl, hb⟩
    have inside : ∀ c ∈ body, (c != ']') = true := fun c hc => by
      simpa using ne_of_mem_of_not_mem hc hb
    rw [List.takeWhile_append_of_pos inside, List.dropWhile_append_of_pos inside]
    simp

theorem setBody?_eq_some_iff {cs body after : List Char} :
    setBody? cs = some (body, after) ↔
      cs = body ++ ']' :: after ∧ ∃ c others, body = c :: others ∧ ']' ∉ others := by
  rw [setBody?.eq_def]
  split
  · -- a closing bracket at the start belongs to the body
    next rest =>
    simp only [Option.map_eq_some_iff, Prod.exists, Prod.mk.injEq, close_eq_some_iff]
    constructor
    · rintro ⟨body, after, ⟨rfl, hb⟩, rfl, rfl⟩
      exact ⟨rfl, ']', body, rfl, hb⟩
    · rintro ⟨h, c, others, rfl, ho⟩
      obtain ⟨rfl, rfl⟩ := List.cons.inj h
      exact ⟨others, after, ⟨rfl, ho⟩, rfl, rfl⟩
  · next cs first =>
    rw [close_eq_some_iff]
    constructor
    · rintro ⟨rfl, hb⟩
      cases body with
      | nil => exact absurd rfl (first after)
      | cons c others => exact ⟨rfl, c, others, rfl, List.not_mem_of_not_mem_cons hb⟩
    · rintro ⟨rfl, c, others, rfl, ho⟩
      refine ⟨rfl, List.not_mem_cons_of_ne_of_not_mem ?_ ho⟩
      rintro rfl
      exact first (others ++ ']' :: after) rfl

/-! ## Tokens -/

/-- The first item of a segment, and the characters behind it. -/
inductive Token : List Char → Item → List Char → Prop
  | run (cs : List Char) : Token ('*' :: cs) .run cs
  | any (cs : List Char) : Token ('?' :: cs) .any cs
  | escaped (c : Char) (cs : List Char) : Token ('\\' :: c :: cs) (.exactly c) cs
  | set {cs body after : List Char} {negated : Bool} (h : Bracket cs negated body after) :
    Token ('[' :: cs) (.oneOf ⟨negated, ranges body⟩) after
  | char {c : Char} (h : c ∉ ['*', '?', '\\', '[']) (cs : List Char) :
    Token (c :: cs) (.exactly c) cs

/-- A set with a range the wrong way round. -/
def Item.IsReversed : Item → Prop
  | .oneOf set => ∃ range ∈ set.ranges, range.2 < range.1
  | _ => False

theorem rangeFaults_eq_nil_iff_ranges (place : Nat) (cs : List Char) :
    rangeFaults place cs = [] ↔ ∀ range ∈ ranges cs, ¬ range.2 < range.1 := by
  fun_induction rangeFaults place cs with
  | case1 => simp [ranges]
  | case2 place low high rest later h ih =>
    rw [ranges, List.forall_mem_cons]
    exact iff_of_false (List.cons_ne_nil _ _) fun all => all.1 h
  | case3 place low high rest later h ih =>
    rw [ranges, List.forall_mem_cons]
    exact ih.trans (and_iff_right h).symm
  | case4 place c rest h ih =>
    rw [ranges.eq_3 c rest h, List.forall_mem_cons]
    exact ih.trans (and_iff_right (Char.lt_irrefl c)).symm

section Reading

variable {cs mid rest : List Char} {item : Item} {items : List Item}

/-- A token has a character. -/
theorem Token.exists_append (h : Token cs item rest) : ∃ c front, cs = c :: front ++ rest := by
  cases h with
  | run | any | char => exact ⟨_, [], rfl⟩
  | escaped c cs => exact ⟨_, [c], rfl⟩
  | @set cs body after negated h =>
    obtain ⟨front, hfront⟩ : (if negated then cs.drop 1 else cs) <:+ cs := by
      split
      · exact List.drop_suffix 1 cs
      · exact List.suffix_rfl
    rw [h.text] at hfront
    exact ⟨'[', front ++ body ++ [']'], by rw [← hfront]; simp⟩

theorem Token.length_lt (h : Token cs item rest) : rest.length < cs.length := by
  obtain ⟨c, front, rfl⟩ := h.exists_append
  simp only [List.cons_append, List.length_cons, List.length_append]
  omega

/-- One token is one item. -/
theorem Token.segmentItems_eq (h : Token cs item rest) (pattern : String) (fuel place : Nat) :
    ∃ onward faults, (faults = [] ↔ ¬ item.IsReversed) ∧
      segmentItems pattern (fuel + 1) place cs =
        do return (← segmentItems pattern fuel onward rest).map (·.after [item] faults) := by
  cases h with
  | run cs => exact ⟨place + 5, [], by simp [Item.IsReversed], rfl⟩
  | any cs => exact ⟨place + 4, [], by simp [Item.IsReversed], rfl⟩
  | escaped c cs => exact ⟨place + charWidth c, [], by simp [Item.IsReversed], rfl⟩
  | @set cs body after negated h =>
    refine ⟨place + ((if negated then 2 else 1) + body.foldl (· + setWidth ·) 0 + 1),
      rangeFaults (place + if negated then 2 else 1) body, ?_, ?_⟩
    · rw [rangeFaults_eq_nil_iff_ranges]
      simp [Item.IsReversed]
    · rw [segmentItems]
      dsimp only
      rw [← h.sign, setBody?_eq_some_iff.mpr ⟨h.text, h.body⟩]
  | @char c h cs =>
    simp only [List.mem_cons, List.not_mem_nil, or_false, not_or] at h
    obtain ⟨star, mark, slash, bracket⟩ := h
    refine ⟨place + charWidth c, [], by simp [Item.IsReversed], ?_⟩
    rw [segmentItems] <;> assumption

/-- A start of a segment and the items that it is read as; `rest` is what has not been read yet. -/
inductive Reads : List Char → List Item → List Char → Prop
  | done (cs : List Char) : Reads cs [] cs
  | step {cs mid rest : List Char} {item : Item} {items : List Item} (h : Token cs item mid)
    (h' : Reads mid items rest) : Reads cs (item :: items) rest

theorem Reads.suffix (h : Reads cs items rest) : rest <:+ cs := by
  induction h with
  | done cs => exact List.suffix_rfl
  | step token _ ih =>
    obtain ⟨c, front, rfl⟩ := token.exists_append
    exact ih.trans (List.suffix_append _ _)

theorem Spelled.after_after (s : Spelled) (items items' : List Item)
    (faults faults' : List PatternFault) :
    (s.after items' faults').after items faults =
      s.after (items ++ items') (faults ++ faults') := by
  simp [Spelled.after]

theorem Reads.segmentItems_eq (h : Reads cs items rest) (pattern : String) {fuel : Nat}
    (hf : cs.length ≤ fuel) (place : Nat) :
    ∃ fuel' onward faults, rest.length ≤ fuel' ∧
      (faults = [] ↔ ∀ item ∈ items, ¬ item.IsReversed) ∧
      segmentItems pattern fuel place cs =
        do return (← segmentItems pattern fuel' onward rest).map (·.after items faults) := by
  induction h generalizing fuel place with
  | done cs =>
    refine ⟨fuel, place, [], hf, by simp, ?_⟩
    cases segmentItems pattern fuel place cs with
    | error e => rfl
    | ok spelled => cases spelled <;> rfl
  | @step cs mid rest item items token _ ih =>
    have shorter := token.length_lt
    obtain ⟨fuel, rfl⟩ := Nat.exists_eq_add_one_of_ne_zero (show fuel ≠ 0 by omega)
    obtain ⟨onward, faults, hfaults, heq⟩ := token.segmentItems_eq pattern fuel place
    obtain ⟨fuel', onward', faults', hf', hfaults', heq'⟩ := @ih fuel (by omega) onward
    refine ⟨fuel', onward', faults ++ faults', hf', ?_, ?_⟩
    · rw [List.append_eq_nil_iff, hfaults, hfaults', List.forall_mem_cons]
    · rw [heq, heq']
      cases segmentItems pattern fuel' onward' rest with
      | error e => rfl
      | ok spelled =>
        cases spelled with
        | none => rfl
        | some s => exact congrArg (fun s => Except.ok (some s)) (s.after_after [item] items _ _)

/-! ## How a reading ends -/

/-- A segment with a backslash at its end that has no character to stand for. -/
def Dangling (cs : List Char) : Prop :=
  ∃ items, Reads cs items ['\\']

/-- A segment with a bracket that is not closed. -/
def Unclosed (cs : List Char) : Prop :=
  ∃ items rest, Reads cs items ('[' :: rest) ∧
    ∀ negated body after, ¬ Bracket rest negated body after

theorem exists_token (cs : List Char) :
    cs = [] ∨ cs = ['\\'] ∨
      (∃ rest, cs = '[' :: rest ∧ ∀ negated body after, ¬ Bracket rest negated body after) ∨
      ∃ item rest, Token cs item rest := by
  cases cs with
  | nil => exact .inl rfl
  | cons c cs =>
    refine .inr ?_
    by_cases hc : c ∈ ['*', '?', '\\', '[']
    · simp only [List.mem_cons, List.not_mem_nil, or_false] at hc
      obtain rfl | rfl | rfl | rfl := hc
      · exact .inr (.inr ⟨_, _, .run cs⟩)
      · exact .inr (.inr ⟨_, _, .any cs⟩)
      · cases cs with
        | nil => exact .inl rfl
        | cons escaped cs => exact .inr (.inr ⟨_, _, .escaped escaped cs⟩)
      · by_cases h : ∃ negated body after, Bracket cs negated body after
        · obtain ⟨negated, body, after, h⟩ := h
          exact .inr (.inr ⟨_, _, .set h⟩)
        · exact .inr (.inl ⟨cs, rfl, by simpa using h⟩)
    · exact .inr (.inr ⟨_, _, .char hc cs⟩)

/-- A segment is read to its end, or to what cannot be read. -/
theorem exists_reads (cs : List Char) :
    Dangling cs ∨ Unclosed cs ∨ ∃ items, Reads cs items [] := by
  induction hn : cs.length using Nat.strong_induction_on generalizing cs with
  | _ n ih =>
    obtain rfl | rfl | ⟨rest, rfl, h⟩ | ⟨item, mid, token⟩ := exists_token cs
    · exact .inr (.inr ⟨[], .done _⟩)
    · exact .inl ⟨[], .done _⟩
    · exact .inr (.inl ⟨[], rest, .done _, h⟩)
    · obtain ⟨items, h⟩ | ⟨items, rest, h, open_⟩ | ⟨items, h⟩ :=
        ih mid.length (hn ▸ token.length_lt) mid rfl
      · exact .inl ⟨item :: items, .step token h⟩
      · exact .inr (.inl ⟨item :: items, rest, .step token h, open_⟩)
      · exact .inr (.inr ⟨item :: items, .step token h⟩)

section Results

variable (pattern : String) {fuel : Nat} (hf : cs.length ≤ fuel) (place : Nat)

include hf

theorem segmentItems_of_dangling (h : Dangling cs) :
    segmentItems pattern fuel place cs = .error (.invalid pattern) := by
  obtain ⟨items, h⟩ := h
  obtain ⟨fuel', onward, faults, hf', -, heq⟩ := h.segmentItems_eq pattern hf place
  obtain ⟨fuel', rfl⟩ := Nat.exists_eq_add_one_of_ne_zero (Nat.ne_zero_of_lt hf')
  rw [heq]
  rfl

theorem segmentItems_of_unclosed (h : Unclosed cs) :
    segmentItems pattern fuel place cs = .ok none := by
  obtain ⟨items, rest, h, unclosed⟩ := h
  obtain ⟨fuel', onward, faults, hf', -, heq⟩ := h.segmentItems_eq pattern hf place
  obtain ⟨fuel', rfl⟩ := Nat.exists_eq_add_one_of_ne_zero (Nat.ne_zero_of_lt hf')
  have open_ : segmentItems pattern (fuel' + 1) onward ('[' :: rest) = .ok none := by
    rw [segmentItems]
    dsimp only
    split
    · rfl
    · next body after hbody =>
      obtain ⟨text, hbody⟩ := setBody?_eq_some_iff.mp hbody
      exact absurd ⟨rfl, text, hbody⟩ (unclosed _ body after)
  rw [heq, open_]
  rfl

theorem segmentItems_of_reads (h : Reads cs items []) :
    ∃ stop faults, segmentItems pattern fuel place cs = .ok (some ⟨items, stop, faults⟩) ∧
      (faults = [] ↔ ∀ item ∈ items, ¬ item.IsReversed) := by
  obtain ⟨fuel', onward, faults, -, hfaults, heq⟩ := h.segmentItems_eq pattern hf place
  refine ⟨onward, faults, ?_, hfaults⟩
  have empty : segmentItems pattern fuel' onward [] = .ok (some ⟨[], onward, []⟩) := by
    cases fuel' <;> rfl
  rw [heq, empty]
  simp [Spelled.after, bind, Except.bind, pure, Except.pure]

end Results

end Reading

/-! ## Segments in a row -/

/-- The items that a segment is spelled out as. A star alone stands for a whole component. -/
def Spells (segment : String) (items : List Item) : Prop :=
  if segment = "*" then items = [.component] else Reads segment.toList items []

theorem Reads.exists_spells {segment : String} {items : List Item}
    (h : Reads segment.toList items []) : ∃ items, Spells segment items := by
  by_cases star : segment = "*"
  · exact ⟨[.component], by rw [Spells, if_pos star]⟩
  · exact ⟨items, by rwa [Spells, if_neg star]⟩

/-- A segment can be spelled out, or it has a backslash at its end or an open bracket. -/
theorem exists_spells (segment : String) :
    Dangling segment.toList ∨ Unclosed segment.toList ∨ ∃ items, Spells segment items := by
  obtain h | h | ⟨items, h⟩ := exists_reads segment.toList
  · exact .inl h
  · exact .inr (.inl h)
  · exact .inr (.inr h.exists_spells)

section Row

variable {segment : String} {items : List Item} (pattern : String) (first slash : Bool)
  (place : Nat) (rest : List String)

/-- The items of a segment, with the slash in front and the end behind. -/
def rowItems (slash last : Bool) (items : List Item) : List Item :=
  (if slash then [.exactly '/'] else []) ++ items ++ if last then [.finish] else []

theorem itemsOf_of_spells (hm : segment ≠ manyComponents) (h : Spells segment items) :
    ∃ stop faults, (faults = [] ↔ ∀ item ∈ items, ¬ item.IsReversed) ∧
      itemsOf pattern first slash place (segment :: rest) = do
        return (← itemsOf pattern false true stop rest).map
          (·.after (rowItems slash rest.isEmpty items) faults) := by
  rw [itemsOf]
  simp only [if_neg hm]
  by_cases star : segment = "*"
  · rw [Spells, if_pos star] at h
    subst h
    refine ⟨place + (if slash then [Item.exactly '/'] else []).length + 5, [],
      by simp [Item.IsReversed], ?_⟩
    rw [if_pos star]
    rfl
  · rw [Spells, if_neg star] at h
    obtain ⟨stop, faults, heq, hfaults⟩ := segmentItems_of_reads pattern String.length_toList.le
      (place + (if slash then [Item.exactly '/'] else []).length) h
    refine ⟨stop, faults, hfaults, ?_⟩
    rw [if_neg star, heq]
    rfl

/-- Stars alone can be spelled out. -/
theorem ne_stars_of_mem {c : Char} (hc : c ∈ segment.toList) (hs : c ≠ '*') :
    segment ≠ manyComponents ∧ segment ≠ "*" := by
  constructor
  · rintro rfl
    simp [manyComponents, hs] at hc
  · rintro rfl
    simp [hs] at hc

theorem itemsOf_of_dangling (h : Dangling segment.toList) :
    itemsOf pattern first slash place (segment :: rest) = .error (.invalid pattern) := by
  obtain ⟨items, reads⟩ := id h
  obtain ⟨hm, star⟩ := ne_stars_of_mem (reads.suffix.mem List.mem_cons_self) (by decide)
  rw [itemsOf]
  simp only [if_neg hm, if_neg star]
  rw [segmentItems_of_dangling pattern String.length_toList.le _ h]
  rfl

theorem itemsOf_of_unclosed (h : Unclosed segment.toList) :
    itemsOf pattern first slash place (segment :: rest) = .ok none := by
  obtain ⟨items, after, reads, -⟩ := id h
  obtain ⟨hm, star⟩ := ne_stars_of_mem (reads.suffix.mem List.mem_cons_self) (by decide)
  rw [itemsOf]
  simp only [if_neg hm, if_neg star]
  rw [segmentItems_of_unclosed pattern String.length_toList.le _ h]
  rfl

variable {pattern first slash place rest} in
/-- The items of segments start with those of the first one. -/
theorem exists_spells_of_itemsOf {s : Spelled} (hm : segment ≠ manyComponents)
    (hs : itemsOf pattern first slash place (segment :: rest) = .ok (some s)) :
    ∃ items stop s', Spells segment items ∧ itemsOf pattern false true stop rest = .ok (some s') ∧
      s.items = rowItems slash rest.isEmpty items ++ s'.items := by
  obtain h | h | ⟨items, h⟩ := exists_spells segment
  · rw [itemsOf_of_dangling _ _ _ _ _ h] at hs
    cases hs
  · rw [itemsOf_of_unclosed _ _ _ _ _ h] at hs
    cases hs
  · obtain ⟨stop, faults, -, heq⟩ := itemsOf_of_spells pattern first slash place rest hm h
    obtain ⟨s', hs', rfl⟩ := exists_of_map_eq_ok (heq.symm.trans hs)
    exact ⟨items, stop, s', h, hs', rfl⟩

theorem itemsOf_many_first :
    itemsOf pattern true slash place (manyComponents :: rest) =
      do return (← itemsOf pattern false false (place + 8) rest).map (·.after [.leading] []) := by
  rw [itemsOf]
  rfl

theorem itemsOf_many_last :
    itemsOf pattern false slash place [manyComponents] =
      .ok (some ⟨[.exactly '/'], place + 1, []⟩) := by
  rw [itemsOf]
  rfl

theorem itemsOf_many_inner (hr : rest ≠ []) :
    itemsOf pattern false slash place (manyComponents :: rest) =
      do return (← itemsOf pattern false true (place + 8) rest).map (·.after [.inner] []) := by
  rw [itemsOf]
  cases rest with
  | nil => exact absurd rfl hr
  | cons next rest => rfl

end Row

end ScriptSurvey.Ignore
