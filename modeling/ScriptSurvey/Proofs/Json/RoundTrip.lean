import Mathlib.Tactic.IntervalCases
import ScriptSurvey.Json.Write
import ScriptSurvey.Proofs.Json.Number

/-!
# Values that are read back

What is written is read back: a text character by character (`textFrom_escapeChar`,
`textFrom_flatMap_escapeChar`), a value of any kind by induction on how it is nested
(`readsBack`), and so the whole text of a value (`read_write`). The values are those of
`Fits`: their doubles are finite, the names in an object differ, and lists and objects are nested no
deeper than the reader goes. The reader's bound on its calls never tells, since a value takes no
more calls than twice the characters of its text.
-/

namespace ScriptSurvey

/-- A new key comes last. -/
theorem Ledger.put_of_not_mem {κ ν : Type} [DecidableEq κ] {l : Ledger κ ν} {key : κ} {value : ν}
    (h : key ∉ l.keys) : l.put key value = l ++ [(key, value)] := by
  induction l with
  | nil => rfl
  | cons entry rest ih =>
    obtain ⟨k, v⟩ := entry
    simp only [keys, List.map_cons, List.mem_cons, not_or] at h
    rw [put, alter, if_neg (Ne.symm h.1)]
    exact congrArg ((k, v) :: ·) (ih h.2)

namespace Json

/-! ## Texts -/

section Texts

variable (reading : Reading) (opening done : List Char)

/-- The four hexadecimal digits of a control character. -/
theorem codeUnit?_hex {n : Nat} (hn : n < 0x20) :
    ∃ a b c d, (Text.hex 4 n).toList = [a, b, c, d] ∧ codeUnit? a b c d = some n := by
  rw [Text.hex, String.toList_ofList]
  interval_cases n <;> exact ⟨_, _, _, _, rfl, rfl⟩

/-- A code escape below the surrogates stands for its character, whatever follows. -/
theorem textFrom_code {a b c d : Char} {unit : Nat} (hu : codeUnit? a b c d = some unit)
    (hs : unit < 0xD800) (next : Char) (rest : List Char) :
    textFrom reading opening done ('\\' :: 'u' :: a :: b :: c :: d :: next :: rest) =
      textFrom reading opening (Char.ofNat unit :: done) (next :: rest) := by
  have high : isHighSurrogate unit = false := by
    simp only [isHighSurrogate, Bool.and_eq_false_iff, decide_eq_false_iff_not]
    omega
  have low : isLowSurrogate unit = false := by
    simp only [isLowSurrogate, Bool.and_eq_false_iff, decide_eq_false_iff_not]
    omega
  have char : unitChar? reading unit = some (Char.ofNat unit) := by
    rw [unitChar?, high, low]
    rfl
  rw [textFrom.eq_def]
  split
  case h_4 heq =>
    -- a second code escape follows, which matters to surrogates only
    simp only [List.cons.injEq, true_and] at heq
    obtain ⟨rfl, rfl, rfl, rfl, rfl, rfl⟩ := heq
    simp [hu, high, char]
  case h_5 heq =>
    simp only [List.cons.injEq, true_and] at heq
    obtain ⟨rfl, rfl, rfl, rfl, rfl, rfl⟩ := heq
    simp [hu, char]
  case h_6 other heq =>
    simp only [List.cons.injEq, true_and] at heq
    exact absurd heq.symm (other _ _ _ _ _ _)
  case h_7 other heq =>
    simp only [List.cons.injEq, true_and] at heq
    exact absurd heq.1.symm other
  case h_8 other heq =>
    simp only [List.cons.injEq] at heq
    exact absurd heq.2.symm (other _ _ heq.1.symm)
  all_goals simp_all

/-- One character, escaped or not, is read back in one step. -/
theorem textFrom_escapeChar (c next : Char) (rest : List Char) :
    textFrom reading opening done (escapeChar c ++ next :: rest) =
      textFrom reading opening (c :: done) (next :: rest) := by
  unfold escapeChar
  split
  case h_8 c hquote hslash _ _ _ _ _ =>
    split
    case isTrue hc =>
      obtain ⟨a, b, c₁, d, hex, unit⟩ := codeUnit?_hex hc
      rw [hex]
      have read := textFrom_code reading opening done unit (by omega) next rest
      rwa [Char.ofNat_toNat] at read
    case isFalse hc =>
      rw [List.singleton_append, textFrom.eq_8 _ _ _ _ _ hquote (fun h => absurd h hslash)
        (fun _ _ _ _ _ _ _ _ _ _ h => absurd h hslash) (fun _ _ _ _ _ _ h => absurd h hslash)
        (fun _ h => absurd h hslash) (fun _ _ h => absurd h hslash), if_neg hc]
  all_goals simp [textFrom, simpleEscape?]

/-- The characters of a text are read back up to the closing quote. -/
theorem textFrom_flatMap_escapeChar (cs rest : List Char) :
    textFrom reading opening done (cs.flatMap escapeChar ++ '"' :: rest) =
      .ok (String.ofList (done.reverse ++ cs), rest) := by
  induction cs generalizing done with
  | nil => rw [List.flatMap_nil, List.nil_append, textFrom, List.append_nil]
  | cons c cs ih =>
    obtain ⟨next, tail, hnext⟩ : ∃ next tail, cs.flatMap escapeChar ++ '"' :: rest = next :: tail :=
      List.exists_cons_of_ne_nil (by simp)
    have step := textFrom_escapeChar reading opening done c next tail
    rw [List.flatMap_cons, List.append_assoc, hnext, step, ← hnext, ih, List.reverse_cons,
      List.append_assoc, List.singleton_append]

end Texts

/-! ## Blanks and scalars -/

theorem skipBlanks_append {blanks cs : List Char} (hb : ∀ c ∈ blanks, isBlank c = true)
    (hc : ∀ c ∈ cs.head?, isBlank c = false) : skipBlanks (blanks ++ cs) = cs := by
  rw [skipBlanks, List.dropWhile_append_of_pos hb]
  cases cs with
  | nil => rfl
  | cons c cs => exact List.dropWhile_cons_of_neg (by simp [hc c rfl])

theorem skipBlanks_of_head {cs : List Char} (hc : ∀ c ∈ cs.head?, isBlank c = false) :
    skipBlanks cs = cs :=
  skipBlanks_append (List.forall_mem_nil _) hc

theorem isBlank_of_mem_lineBreak {style : Style} {level : Nat} {c : Char}
    (h : c ∈ style.lineBreak level) : isBlank c = true := by
  unfold Style.lineBreak at h
  split at h
  · cases h
  · rcases List.mem_cons.mp h with rfl | h
    · rfl
    · rw [(List.mem_replicate.mp h).2]
      rfl

/-- Blanks, and what closes or goes on with a list or an object, end a number. -/
theorem stops_append {blanks : List Char} (hb : ∀ c ∈ blanks, isBlank c = true) {mark : Char}
    (hm : mark = ',' ∨ mark = ']' ∨ mark = '}') (rest : List Char) :
    Stops (blanks ++ mark :: rest) := by
  have blank : ∀ c, isBlank c = true → c.isDigit = false ∧ c ≠ '.' ∧ c ≠ 'e' ∧ c ≠ 'E' := by
    intro c hc
    simp only [isBlank, Bool.or_eq_true, beq_iff_eq] at hc
    rcases hc with ((rfl | rfl) | rfl) | rfl <;> decide
  intro c hc
  cases blanks with
  | nil =>
    obtain rfl : mark = c := by simpa using hc
    rcases hm with rfl | rfl | rfl <;> decide
  | cons b bs =>
    obtain rfl : b = c := by simpa using hc
    exact blank b (hb b List.mem_cons_self)

/-- A scalar starts with a letter, a sign or a digit. -/
theorem head_of_scalar {cs : List Char} {found : Json × List Char} (h : scalar cs = .ok found) :
    ∃ c tail, cs = c :: tail ∧ (c ∈ ['n', 't', 'f', 'N', 'I', '-'] ∨ c.isDigit = true) := by
  cases cs with
  | nil => cases h
  | cons c tail =>
    refine ⟨c, tail, rfl, Classical.byContradiction fun hc => ?_⟩
    simp only [List.mem_cons, List.not_mem_nil, or_false, not_or] at hc
    obtain ⟨⟨hn, ht, hf, hN, hI, hm⟩, hd⟩ := hc
    have others : ∀ entry ∈ words, entry.1.toList.isPrefixOf (c :: tail) = false := by
      intro entry he
      simp only [words, List.mem_cons, List.not_mem_nil, or_false] at he
      rcases he with rfl | rfl | rfl | rfl | rfl | rfl <;>
        simp [List.isPrefixOf, Ne.symm hn, Ne.symm ht, Ne.symm hf, Ne.symm hN, Ne.symm hI,
          Ne.symm hm]
    have noWord := findSome?_words_eq_none others
    have number : number? false (c :: tail) = none := by
      have zero : c ≠ '0' := by
        rintro rfl
        exact hd rfl
      have whole : wholePart? (c :: tail) = none := by
        rw [wholePart?.eq_2 _ fun _ h => zero (List.cons.inj h).1, digits,
          List.span_eq_takeWhile_dropWhile, List.takeWhile_cons_of_neg hd]
      rw [number?, whole]
      rfl
    unfold scalar at h
    simp [noWord, number, hm] at h

/-- The first character of a value: neither a blank nor the end of a list or an object. -/
def StartsValue (cs : List Char) : Prop :=
  ∃ c tail, cs = c :: tail ∧ isBlank c = false ∧ c ≠ ']' ∧ c ≠ '}'

theorem StartsValue.append {cs : List Char} (h : StartsValue cs) (rest : List Char) :
    StartsValue (cs ++ rest) := by
  obtain ⟨c, tail, rfl, hc⟩ := h
  exact ⟨c, tail ++ rest, rfl, hc⟩

theorem StartsValue.head {cs : List Char} (h : StartsValue cs) :
    ∀ c ∈ cs.head?, isBlank c = false := by
  obtain ⟨c, tail, rfl, hc, -⟩ := h
  rintro d ⟨⟩
  exact hc

section Scalars

variable {cs : List Char} {found : Json × List Char}

/-- No scalar starts like a value of another kind. -/
theorem head_of_scalar_ne (h : scalar cs = .ok found) :
    StartsValue cs ∧ ∀ c ∈ cs.head?, c ≠ '"' ∧ c ≠ '[' ∧ c ≠ '{' := by
  obtain ⟨c, tail, rfl, hc⟩ := head_of_scalar h
  have other : ∀ d : Char, d ∉ ['n', 't', 'f', 'N', 'I', '-'] → d.isDigit = false → c ≠ d := by
    rintro d hd hdigit rfl
    rcases hc with hc | hc
    · exact hd hc
    · rw [hdigit] at hc
      cases hc
  refine ⟨⟨c, tail, rfl, ?_, other _ (by decide) rfl, other _ (by decide) rfl⟩, ?_⟩
  · simp only [isBlank, Bool.or_eq_false_iff, beq_eq_false_iff_ne]
    exact ⟨⟨⟨other _ (by decide) rfl, other _ (by decide) rfl⟩, other _ (by decide) rfl⟩,
      other _ (by decide) rfl⟩
  · rintro d ⟨⟩
    exact ⟨other _ (by decide) rfl, other _ (by decide) rfl, other _ (by decide) rfl⟩

theorem valueFrom_of_scalar (h : scalar cs = .ok found) (reading : Reading) (fuel depth : Nat) :
    valueFrom reading (fuel + 1) depth cs = .ok found := by
  obtain ⟨-, hc⟩ := head_of_scalar_ne h
  rw [valueFrom]
  · exact h
  · rintro rest rfl
    exact (hc _ rfl).1 rfl
  · rintro rest rfl
    exact (hc _ rfl).2.1 rfl
  · rintro rest rfl
    exact (hc _ rfl).2.2 rfl

end Scalars

/-! ## Values -/

/-- The values that are read back: their doubles are finite, the names in an object differ, and
lists and objects are nested at most `depth` deep. -/
inductive Fits : Nat → Json → Prop where
  | null {depth : Nat} : Fits depth .null
  | bool {depth : Nat} (value : Bool) : Fits depth (.bool value)
  | int {depth : Nat} (value : Int) : Fits depth (.int value)
  | real {depth : Nat} {value : Double} (finite : value.isFinite = true) : Fits depth (.real value)
  | text {depth : Nat} (value : String) : Fits depth (.text value)
  | list {depth : Nat} {items : List Json} (all : ∀ item ∈ items, Fits depth item) :
      Fits (depth + 1) (.list items)
  | object {depth : Nat} {members : List (String × Json)} (differ : (members.map Prod.fst).Nodup)
      (all : ∀ member ∈ members, Fits depth member.2) : Fits (depth + 1) (.object members)

/-- The texts that a style gives to finite doubles are read back. -/
def Style.Reads (style : Style) : Prop :=
  ∀ x : Double, x.isFinite = true → ∀ rest, Stops rest →
    scalar ((style.real x).toList ++ rest) = .ok (.real x, rest)

section Values

variable {reading : Reading} {style : Style} {depth level : Nat} {shift blanks rest : List Char}

/-- The text of a value at a level is read back, given two calls for each of its characters. -/
structure ReadsBack (reading : Reading) (style : Style) (depth level : Nat) (value : Json) :
    Prop where
  starts : StartsValue (writeAt style level value)
  reads : ∀ fuel rest, Stops rest → 2 * (writeAt style level value).length ≤ fuel →
    valueFrom reading fuel depth (writeAt style level value ++ rest) = .ok (value, rest)

theorem readsBack_of_scalar {value : Json}
    (h : ∀ rest, Stops rest → scalar (writeAt style level value ++ rest) = .ok (value, rest)) :
    ReadsBack reading style depth level value := by
  have starts : StartsValue (writeAt style level value) := by
    have ended := h [] (by simp [Stops])
    rw [List.append_nil] at ended
    exact (head_of_scalar_ne ended).1
  refine ⟨starts, fun fuel rest hr hf => ?_⟩
  obtain ⟨c, tail, hc, -⟩ := starts
  obtain ⟨fuel, rfl⟩ : ∃ n, fuel = n + 1 := by
    refine ⟨fuel - 1, ?_⟩
    rw [hc, List.length_cons] at hf
    omega
  exact valueFrom_of_scalar (h rest hr) reading fuel depth

theorem readsBack_text (value : String) : ReadsBack reading style depth level (.text value) := by
  refine ⟨⟨'"', _, rfl, rfl, by decide, by decide⟩, fun fuel rest _ hf => ?_⟩
  obtain ⟨fuel, rfl⟩ : ∃ n, fuel = n + 1 := by
    refine ⟨fuel - 1, ?_⟩
    rw [writeAt, writeText, List.cons_append, List.length_cons] at hf
    omega
  rw [writeAt, writeText, List.append_assoc, List.cons_append, valueFrom, List.singleton_append,
    textFrom_flatMap_escapeChar]
  simp

theorem exists_flatten_intersperse (sep item : List Char) (items : List (List Char)) :
    ∃ tail, ((item :: items).intersperse sep).flatten = item ++ tail := by
  cases items with
  | nil => exact ⟨[], rfl⟩
  | cons next items => exact ⟨_, by rw [List.intersperse_cons_cons, List.flatten_cons]⟩

theorem stops_comma (rest : List Char) : Stops (',' :: rest) :=
  stops_append (List.forall_mem_nil _) (.inl rfl) rest

theorem skipBlanks_comma (rest : List Char) : skipBlanks (',' :: rest) = ',' :: rest :=
  skipBlanks_of_head (by rintro c ⟨⟩; rfl)

section Items

variable {fuel : Nat} {item : Json} {items : List Json} {cs tail : List Char}

theorem itemsFrom_close (hb : ∀ c ∈ blanks, isBlank c = true)
    (h : valueFrom reading fuel depth cs = .ok (item, blanks ++ ']' :: rest)) :
    itemsFrom reading (fuel + 1) depth cs = .ok ([item], rest) := by
  have close : skipBlanks (blanks ++ ']' :: rest) = ']' :: rest :=
    skipBlanks_append hb (by rintro c ⟨⟩; rfl)
  rw [itemsFrom, h]
  simp only [bind, Except.bind, close]
  rfl

theorem itemsFrom_comma (h : valueFrom reading fuel depth cs = .ok (item, ',' :: tail))
    (ht : itemsFrom reading fuel depth (skipBlanks tail) = .ok (items, rest)) :
    itemsFrom reading (fuel + 1) depth cs = .ok (item :: items, rest) := by
  rw [itemsFrom, h]
  simp only [bind, Except.bind, skipBlanks_comma, ht]
  rfl

/-- The items of a list are read back one after the other. -/
theorem itemsFrom_writeItems (hs : ∀ c ∈ shift, isBlank c = true)
    (hb : ∀ c ∈ blanks, isBlank c = true) (hne : items ≠ [])
    (hi : ∀ item ∈ items, ReadsBack reading style depth level item)
    (hf : 2 * ((writeItems style level items).intersperse (',' :: shift)).flatten.length < fuel) :
    itemsFrom reading fuel depth (((writeItems style level items).intersperse
        (',' :: shift)).flatten ++ (blanks ++ ']' :: rest)) = .ok (items, rest) := by
  induction items generalizing fuel with
  | nil => exact absurd rfl hne
  | cons item others ih =>
    obtain ⟨fuel, rfl⟩ : ∃ n, fuel = n + 1 := ⟨fuel - 1, by omega⟩
    have one := (hi item List.mem_cons_self).reads fuel
    cases others with
    | nil =>
      simp only [writeItems, List.intersperse_singleton, List.flatten_cons, List.flatten_nil,
        List.append_nil] at hf ⊢
      exact itemsFrom_close hb (one _ (stops_append hb (.inr (.inl rfl)) rest) (by omega))
    | cons next others =>
      have left := @ih fuel (List.cons_ne_nil _ _) fun i h => hi i (List.mem_cons_of_mem _ h)
      simp only [writeItems, List.intersperse_cons_cons, List.flatten_cons, List.append_assoc,
        List.cons_append, List.length_append, List.length_cons] at hf left ⊢
      obtain ⟨tail, joined⟩ := exists_flatten_intersperse (',' :: shift) (writeAt style level next)
        (writeItems style level others)
      rw [joined] at hf left ⊢
      refine itemsFrom_comma (one _ (stops_comma _) (by omega)) ?_
      rw [skipBlanks_append hs (((hi next (by simp)).starts.append tail).append _).head]
      exact left (by omega)

end Items

section Members

variable {fuel : Nat} {value : Json} {done members : List (String × Json)} {name : String}
  {cs tail : List Char}

/-- A name and its value are read back, and what follows them decides how to go on. -/
theorem membersFrom_writeText (hc : ∀ c ∈ cs.head?, isBlank c = false)
    (h : valueFrom reading fuel depth cs = .ok (value, tail)) :
    membersFrom reading (fuel + 1) depth done (writeText name ++ (style.colon ++ cs)) =
      match skipBlanks tail with
      | '}' :: rest => .ok (Ledger.put done name value, rest)
      | ',' :: rest => membersFrom reading fuel depth (Ledger.put done name value) (skipBlanks rest)
      | rest => .error ⟨.expectedComma, rest⟩ := by
  obtain ⟨blanks, colon, hb⟩ : ∃ blanks, style.colon = ':' :: blanks ∧
      ∀ c ∈ blanks, isBlank c = true := by
    unfold Style.colon
    split
    · exact ⟨[' '], rfl, by simp [isBlank]⟩
    · exact ⟨[], rfl, by simp⟩
  have past := skipBlanks_append hb hc
  have stays : skipBlanks (':' :: (blanks ++ cs)) = ':' :: (blanks ++ cs) :=
    skipBlanks_of_head (by rintro c ⟨⟩; rfl)
  simp only [colon, writeText, List.append_assoc, List.cons_append, List.nil_append]
  rw [membersFrom, textFrom_flatMap_escapeChar, List.reverse_nil, List.nil_append,
    String.ofList_toList]
  simp only [bind, Except.bind, stays, past, h]
  rfl

theorem membersFrom_close (hb : ∀ c ∈ blanks, isBlank c = true)
    (hc : ∀ c ∈ cs.head?, isBlank c = false)
    (h : valueFrom reading fuel depth cs = .ok (value, blanks ++ '}' :: rest)) :
    membersFrom reading (fuel + 1) depth done (writeText name ++ (style.colon ++ cs)) =
      .ok (Ledger.put done name value, rest) := by
  rw [membersFrom_writeText hc h, skipBlanks_append hb (by rintro c ⟨⟩; rfl)]
  rfl

theorem membersFrom_comma (hc : ∀ c ∈ cs.head?, isBlank c = false)
    (h : valueFrom reading fuel depth cs = .ok (value, ',' :: tail)) :
    membersFrom reading (fuel + 1) depth done (writeText name ++ (style.colon ++ cs)) =
      membersFrom reading fuel depth (Ledger.put done name value) (skipBlanks tail) := by
  rw [membersFrom_writeText hc h, skipBlanks_comma]
  rfl

/-- The members of an object, whose names differ, are read back one after the other. -/
theorem membersFrom_writeMembers (hs : ∀ c ∈ shift, isBlank c = true)
    (hb : ∀ c ∈ blanks, isBlank c = true) (hne : members ≠ [])
    (hn : ((done ++ members).map Prod.fst).Nodup)
    (hm : ∀ member ∈ members, ReadsBack reading style depth level member.2)
    (hf : 2 * ((writeMembers style level members).intersperse (',' :: shift)).flatten.length <
      fuel) :
    membersFrom reading fuel depth done (((writeMembers style level members).intersperse
        (',' :: shift)).flatten ++ (blanks ++ '}' :: rest)) = .ok (done ++ members, rest) := by
  induction members generalizing fuel done with
  | nil => exact absurd rfl hne
  | cons member others ih =>
    obtain ⟨name, value⟩ := member
    obtain ⟨fuel, rfl⟩ : ∃ n, fuel = n + 1 := ⟨fuel - 1, by omega⟩
    have one : ReadsBack reading style depth level value := hm (name, value) List.mem_cons_self
    have new : Ledger.put done name value = done ++ [(name, value)] := by
      rw [List.map_append, List.nodup_append] at hn
      exact Ledger.put_of_not_mem fun h => hn.2.2 name h name List.mem_cons_self rfl
    cases others with
    | nil =>
      simp only [writeMembers, List.intersperse_singleton, List.flatten_cons, List.flatten_nil,
        List.append_nil, List.append_assoc, List.length_append] at hf ⊢
      rw [← new]
      exact membersFrom_close hb (one.starts.append _).head
        (one.reads fuel _ (stops_append hb (.inr (.inr rfl)) rest) (by omega))
    | cons next others =>
      have left := @ih fuel (done ++ [(name, value)]) (List.cons_ne_nil _ _)
        (by simpa using hn) fun i h => hm i (List.mem_cons_of_mem _ h)
      obtain ⟨nextName, nextValue⟩ := next
      simp only [writeMembers, List.intersperse_cons_cons, List.flatten_cons, List.append_assoc,
        List.cons_append, List.length_append, List.length_cons, List.nil_append] at hf left ⊢
      obtain ⟨tail, joined⟩ := exists_flatten_intersperse (',' :: shift)
        (writeText nextName ++ (style.colon ++ writeAt style level nextValue))
        (writeMembers style level others)
      rw [joined] at hf left ⊢
      rw [membersFrom_comma (one.starts.append _).head
        (one.reads fuel _ (stops_comma _) (by omega)), new,
        skipBlanks_append hs (by rintro c ⟨⟩; rfl)]
      exact left (by omega)

end Members

/-! ### Lists and objects -/

theorem enclose_append {items : List (List Char)} (hne : items ≠ []) (opening closing : Char)
    (rest : List Char) :
    style.enclose level opening closing items ++ rest =
      opening :: (style.lineBreak (level + 1) ++
        ((items.intersperse (',' :: style.lineBreak (level + 1))).flatten ++
          (style.lineBreak level ++ closing :: rest))) := by
  rw [Style.enclose, if_neg (by simpa using hne)]
  simp only [List.cons_append, List.append_assoc, List.nil_append]

theorem enclose_nil (opening closing : Char) :
    style.enclose level opening closing [] = [opening, closing] :=
  rfl

theorem enclose_startsValue {opening : Char} (h : opening = '[' ∨ opening = '{') (closing : Char)
    (items : List (List Char)) : StartsValue (style.enclose level opening closing items) := by
  have first : isBlank opening = false ∧ opening ≠ ']' ∧ opening ≠ '}' := by
    rcases h with rfl | rfl <;> decide
  unfold Style.enclose
  split
  · exact ⟨opening, _, rfl, first⟩
  · exact ⟨opening, _, rfl, first⟩

/-- A list with an item, or an object with a member, is read from its first one on. -/
theorem valueFrom_list {fuel : Nat} {items : List Json} {cs : List Char}
    (hs : ∀ c ∈ shift, isBlank c = true) (hc : StartsValue cs)
    (h : itemsFrom reading fuel depth cs = .ok (items, rest)) :
    valueFrom reading (fuel + 1) (depth + 1) ('[' :: (shift ++ cs)) = .ok (.list items, rest) := by
  have past := skipBlanks_append hs hc.head
  obtain ⟨c, tail, rfl, -, hn, -⟩ := hc
  rw [valueFrom]
  dsimp only
  rw [past]
  split
  · next heq => exact absurd (List.cons.inj heq).1 hn
  · rw [h]
    rfl

@[inherit_doc valueFrom_list]
theorem valueFrom_object {fuel : Nat} {members : List (String × Json)} {cs : List Char}
    (hs : ∀ c ∈ shift, isBlank c = true) (hc : StartsValue cs)
    (h : membersFrom reading fuel depth [] cs = .ok (members, rest)) :
    valueFrom reading (fuel + 1) (depth + 1) ('{' :: (shift ++ cs)) =
      .ok (.object members, rest) := by
  have past := skipBlanks_append hs hc.head
  obtain ⟨c, tail, rfl, -, -, hn⟩ := hc
  rw [valueFrom]
  dsimp only
  rw [past]
  split
  · next heq => exact absurd (List.cons.inj heq).1 hn
  · rw [h]
    rfl

theorem readsBack_list {items : List Json}
    (hi : ∀ item ∈ items, ReadsBack reading style depth (level + 1) item) :
    ReadsBack reading style (depth + 1) level (.list items) := by
  refine ⟨?_, fun fuel rest hr hf => ?_⟩
  · rw [writeAt]
    exact enclose_startsValue (.inl rfl) _ _
  · rw [writeAt] at hf ⊢
    cases items with
    | nil =>
      rw [writeItems, enclose_nil] at hf ⊢
      obtain ⟨fuel, rfl⟩ : ∃ n, fuel = n + 1 := ⟨fuel - 1, by simp at hf; omega⟩
      simp [valueFrom, skipBlanks, isBlank]
    | cons item others =>
      have hne : writeItems style (level + 1) (item :: others) ≠ [] := by simp [writeItems]
      have length : (style.enclose level _ _ _ ++ []).length = _ :=
        congrArg List.length (enclose_append hne '[' ']' [])
      obtain ⟨tail, joined⟩ := exists_flatten_intersperse (',' :: style.lineBreak (level + 1))
        (writeAt style (level + 1) item) (writeItems style (level + 1) others)
      have starts := (hi item List.mem_cons_self).starts.append tail
      rw [enclose_append hne]
      simp only [List.append_nil, List.length_cons, List.length_append] at length
      obtain ⟨fuel, rfl⟩ : ∃ n, fuel = n + 1 := ⟨fuel - 1, by omega⟩
      refine valueFrom_list (fun c => isBlank_of_mem_lineBreak) ?_
        (itemsFrom_writeItems (fun c => isBlank_of_mem_lineBreak)
          (fun c => isBlank_of_mem_lineBreak) (List.cons_ne_nil _ _) hi (by omega))
      rw [writeItems, joined]
      exact starts.append _

theorem readsBack_object {members : List (String × Json)} (hn : (members.map Prod.fst).Nodup)
    (hm : ∀ member ∈ members, ReadsBack reading style depth (level + 1) member.2) :
    ReadsBack reading style (depth + 1) level (.object members) := by
  refine ⟨?_, fun fuel rest hr hf => ?_⟩
  · rw [writeAt]
    exact enclose_startsValue (.inr rfl) _ _
  · rw [writeAt] at hf ⊢
    cases members with
    | nil =>
      rw [writeMembers, enclose_nil] at hf ⊢
      obtain ⟨fuel, rfl⟩ : ∃ n, fuel = n + 1 := ⟨fuel - 1, by simp at hf; omega⟩
      simp [valueFrom, skipBlanks, isBlank]
    | cons member others =>
      obtain ⟨name, value⟩ := member
      have hne : writeMembers style (level + 1) ((name, value) :: others) ≠ [] := by
        simp [writeMembers]
      have length : (style.enclose level _ _ _ ++ []).length = _ :=
        congrArg List.length (enclose_append hne '{' '}' [])
      obtain ⟨tail, joined⟩ := exists_flatten_intersperse (',' :: style.lineBreak (level + 1))
        (writeText name ++ style.colon ++ writeAt style (level + 1) value)
        (writeMembers style (level + 1) others)
      rw [enclose_append hne]
      simp only [List.append_nil, List.length_cons, List.length_append] at length
      obtain ⟨fuel, rfl⟩ : ∃ n, fuel = n + 1 := ⟨fuel - 1, by omega⟩
      refine valueFrom_object (fun c => isBlank_of_mem_lineBreak) ?_
        (membersFrom_writeMembers (fun c => isBlank_of_mem_lineBreak)
          (fun c => isBlank_of_mem_lineBreak) (List.cons_ne_nil _ _) hn hm (by omega))
      rw [writeMembers, joined]
      exact ⟨'"', _, rfl, rfl, by decide, by decide⟩

/-- **Every value that fits** is read back from its text, at every level and whatever ends it. -/
theorem readsBack (hs : style.Reads) {value : Json} (h : Fits depth value) (level : Nat) :
    ReadsBack reading style depth level value := by
  induction h generalizing level with
  | null => exact readsBack_of_scalar fun rest _ => rfl
  | bool value =>
    cases value with
    | true => exact readsBack_of_scalar fun rest _ => rfl
    | false => exact readsBack_of_scalar fun rest _ => rfl
  | int value => exact readsBack_of_scalar fun rest hr => by rw [writeAt, scalar_toString value hr]
  | real finite => exact readsBack_of_scalar fun rest hr => by rw [writeAt, hs _ finite rest hr]
  | text value => exact readsBack_text value
  | list _ ih => exact readsBack_list fun item h => ih item h (level + 1)
  | object differ _ ih => exact readsBack_object differ fun member h => ih member h (level + 1)

end Values

/-- **The text of a value** is read as that value. -/
theorem read_write {reading : Reading} {style : Style} (hs : style.Reads) {value : Json}
    (h : Fits reading.depth value) : read reading (value.write style) = .ok value := by
  have back : ReadsBack reading style reading.depth 0 value := readsBack hs h 0
  have whole := back.reads (2 * (writeAt style 0 value).length + 2) [] (by simp [Stops]) (by omega)
  rw [List.append_nil] at whole
  rw [read, write, String.toList_ofList, skipBlanks_of_head back.starts.head, whole]
  rfl

end Json

end ScriptSurvey
