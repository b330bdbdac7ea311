import ScriptSurvey.Json.Finite
import ScriptSurvey.Json.Read
import ScriptSurvey.Proofs.Numeric.Shortest

/-!
# Numbers that are read back

An integer is written as its decimal digits, a double as a numeral in one of several layouts: with
the point among the digits, with zeros before or after them, or with an exponent. In each layout the
digits before and after the point and the exponent have the value of the shortest digits of the
double (`positional_spec`, `scientific_spec`), so that the reader gives the double back whatever
follows the numeral, as long as that does not go on with it (`scalar_write`, `scalar_toString`).
-/

namespace ScriptSurvey

namespace Decimal

/-! ## Digit strings -/

theorem digitsValue_eq (ds : List Char) : digitsValue ds = Nat.ofDigitChars 10 ds 0 := by
  rw [Nat.ofDigitChars_eq_foldl]
  rfl

theorem digitsValue_append (ds es : List Char) :
    digitsValue (ds ++ es) = digitsValue ds * 10 ^ es.length + digitsValue es := by
  simp only [digitsValue_eq]
  rw [Nat.ofDigitChars_append, Nat.ofDigitChars_eq_ofDigitChars_zero, Nat.mul_comm]

theorem digitsValue_replicate_zero (n : Nat) : digitsValue (List.replicate n '0') = 0 := by
  rw [digitsValue_eq, Nat.ofDigitChars_replicate_zero, Nat.mul_zero]

theorem digitsValue_zeros_append (n : Nat) (ds : List Char) :
    digitsValue (List.replicate n '0' ++ ds) = digitsValue ds := by
  rw [digitsValue_append, digitsValue_replicate_zero, Nat.zero_mul, Nat.zero_add]

theorem digitsValue_append_zeros (ds : List Char) (n : Nat) :
    digitsValue (ds ++ List.replicate n '0') = digitsValue ds * 10 ^ n := by
  rw [digitsValue_append, digitsValue_replicate_zero, List.length_replicate, Nat.add_zero]

theorem digitsValue_toString (n : Nat) : digitsValue (toString n).toList = n := by
  rw [digitsValue_eq, Nat.toString_eq_repr, Nat.toList_repr, Nat.ofDigitChars_ten_toDigits]

theorem isDigit_of_mem_toString {n : Nat} {c : Char} (h : c ∈ (toString n).toList) :
    c.isDigit = true := by
  rw [Nat.toString_eq_repr, Nat.toList_repr] at h
  exact Nat.isDigit_of_mem_toDigits (by decide) (by decide) h

/-- A number other than zero is written with another first digit. -/
theorem exists_toString_eq_cons {n : Nat} (h : 0 < n) :
    ∃ c ds, (toString n).toList = c :: ds ∧ c ≠ '0' := by
  rw [Nat.toString_eq_repr, Nat.toList_repr]
  induction n using Nat.strongRecOn with
  | _ n ih =>
    rcases Nat.lt_or_ge n 10 with hn | hn
    · rw [Nat.toDigits_of_lt_base hn]
      exact ⟨_, _, rfl, fun h0 => by rw [Nat.digitChar_eq_zero] at h0; omega⟩
    · obtain ⟨c, ds, hd, hc⟩ := ih (n / 10) (by omega) (by omega)
      rw [Nat.toDigits_of_base_le (by decide) hn, hd]
      exact ⟨c, _, rfl, hc⟩

end Decimal

namespace Json

/-! ## Parts of numerals -/

/-- A text that does not go on with a number that stands before it. -/
def Stops (rest : List Char) : Prop :=
  ∀ c ∈ rest.head?, c.isDigit = false ∧ c ≠ '.' ∧ c ≠ 'e' ∧ c ≠ 'E'

/-- A string of digits with no needless zero in front. -/
def IsWhole (ds : List Char) : Prop :=
  ds = ['0'] ∨ ∃ c cs, ds = c :: cs ∧ c ≠ '0' ∧ ∀ d ∈ ds, d.isDigit = true

section Parts

variable {ds rest : List Char}

theorem digits_append (hd : ∀ c ∈ ds, c.isDigit = true)
    (hr : ∀ c ∈ rest.head?, c.isDigit = false) : digits (ds ++ rest) = (ds, rest) := by
  have taken : rest.takeWhile Char.isDigit = [] ∧ rest.dropWhile Char.isDigit = rest := by
    cases rest with
    | nil => exact ⟨rfl, rfl⟩
    | cons c cs =>
      have hc := hr c rfl
      exact ⟨List.takeWhile_cons_of_neg (by simp [hc]), List.dropWhile_cons_of_neg (by simp [hc])⟩
  rw [digits, List.span_eq_takeWhile_dropWhile, List.takeWhile_append_of_pos hd,
    List.dropWhile_append_of_pos hd, taken.1, taken.2, List.append_nil]

theorem wholePart?_append (hd : IsWhole ds) (hr : ∀ c ∈ rest.head?, c.isDigit = false) :
    wholePart? (ds ++ rest) = some (ds, rest) := by
  obtain rfl | ⟨c, cs, rfl, hc, hall⟩ := hd
  · rfl
  · have read := digits_append hall hr
    rw [List.cons_append] at read ⊢
    rw [wholePart?.eq_2 _ fun _ h => hc (List.cons.inj h).1, read]

theorem fractionPart_of_stops (hr : Stops rest) : fractionPart rest = ([], rest) := by
  cases rest with
  | nil => rfl
  | cons c cs => rw [fractionPart.eq_2 _ fun _ h => (hr c rfl).2.1 (List.cons.inj h).1]

theorem fractionPart_cons (hd : ∀ c ∈ ds, c.isDigit = true) (hne : ds ≠ [])
    (hr : ∀ c ∈ rest.head?, c.isDigit = false) :
    fractionPart ('.' :: (ds ++ rest)) = (ds, rest) := by
  rw [fractionPart, digits_append hd hr]
  cases ds with
  | nil => exact absurd rfl hne
  | cons c cs => rfl

theorem exponentPart?_of_stops (hr : Stops rest) : exponentPart? rest = none := by
  cases rest with
  | nil => rfl
  | cons c cs =>
    obtain ⟨-, -, he, hE⟩ := hr c rfl
    simp [exponentPart?, he, hE]

theorem exponentDigits_append (negative : Bool) (hd : ∀ c ∈ ds, c.isDigit = true) (hne : ds ≠ [])
    (hr : ∀ c ∈ rest.head?, c.isDigit = false) :
    exponentDigits negative (ds ++ rest) =
      some (if negative then -(Decimal.digitsValue ds : Int) else Decimal.digitsValue ds,
        rest) := by
  rw [exponentDigits, digits_append hd hr]
  cases ds with
  | nil => exact absurd rfl hne
  | cons c cs => rfl

end Parts

/-! ## Numerals -/

section Numerals

variable {whole fraction exponent rest : List Char}

/-- Digits alone are an integer. -/
theorem number?_whole (negative : Bool) (hw : IsWhole whole) (hr : Stops rest) :
    number? negative (whole ++ rest) =
      some (.int (if negative then -(Decimal.digitsValue whole : Int)
        else Decimal.digitsValue whole), rest) := by
  unfold number?
  rw [wholePart?_append hw fun c hc => (hr c hc).1]
  simp only [Option.bind_eq_bind, Option.bind_some, fractionPart_of_stops hr,
    exponentPart?_of_stops hr]
  rfl

/-- Digits on both sides of a point are a double. -/
theorem number?_positional (negative : Bool) (hw : IsWhole whole) (hne : fraction ≠ [])
    (hf : ∀ c ∈ fraction, c.isDigit = true) (hr : Stops rest) :
    number? negative (whole ++ '.' :: (fraction ++ rest)) =
      some (.real (Decimal.ofNumeral negative whole fraction 0), rest) := by
  unfold number?
  rw [wholePart?_append hw (by rintro c ⟨⟩; rfl)]
  simp only [Option.bind_eq_bind, Option.bind_some,
    fractionPart_cons hf hne fun c hc => (hr c hc).1, exponentPart?_of_stops hr]
  rw [if_neg (by simpa using hne)]
  rfl

/-- Digits with an exponent are a double, with or without a point among them. -/
theorem number?_scientific (negative below : Bool) (hw : IsWhole whole)
    (hf : ∀ c ∈ fraction, c.isDigit = true) (hne : exponent ≠ [])
    (he : ∀ c ∈ exponent, c.isDigit = true) (hr : Stops rest) :
    number? negative (whole ++ ((if fraction.isEmpty then [] else '.' :: fraction) ++
        'e' :: (if below then '-' else '+') :: (exponent ++ rest))) =
      some (.real (Decimal.ofNumeral negative whole fraction
        (if below then -(Decimal.digitsValue exponent : Int) else Decimal.digitsValue exponent)),
        rest) := by
  have power : exponentPart? ('e' :: (if below then '-' else '+') :: (exponent ++ rest)) =
      some (if below then -(Decimal.digitsValue exponent : Int) else Decimal.digitsValue exponent,
        rest) := by
    have found := fun negative => exponentDigits_append negative he hne fun c hc => (hr c hc).1
    cases below with
    | true => exact found true
    | false => exact found false
  have part : fractionPart ((if fraction.isEmpty then [] else '.' :: fraction) ++
        'e' :: (if below then '-' else '+') :: (exponent ++ rest)) =
      (fraction, 'e' :: (if below then '-' else '+') :: (exponent ++ rest)) := by
    cases fraction with
    | nil => rfl
    | cons c cs => exact fractionPart_cons hf (List.cons_ne_nil c cs) (by rintro d ⟨⟩; rfl)
  unfold number?
  rw [wholePart?_append hw (by
    cases fraction with
    | nil => rintro d ⟨⟩; rfl
    | cons c cs => rintro d ⟨⟩; rfl)]
  simp only [Option.bind_eq_bind, Option.bind_some, part, power]
  rfl

end Numerals

/-! ## Scalars -/

theorem findSome?_words_eq_none {cs : List Char}
    (h : ∀ entry ∈ words, entry.1.toList.isPrefixOf cs = false) :
    (words.findSome? fun (word, value) => (after? word cs).map (value, ·)) = none := by
  rw [List.findSome?_eq_none_iff]
  rintro ⟨word, value⟩ he
  dsimp only
  rw [after?, h _ he]
  rfl

/-- No word starts like a numeral. -/
theorem isPrefixOf_numeral {c : Char} (hc : c.isDigit = true) (negative : Bool) (cs : List Char) :
    ∀ entry ∈ words,
      entry.1.toList.isPrefixOf ((if negative then ['-'] else []) ++ c :: cs) = false := by
  have hne : ∀ d : Char, d.isDigit = false → (d == c) = false := by
    rintro d hd
    rw [beq_eq_false_iff_ne]
    rintro rfl
    rw [hc] at hd
    cases hd
  intro entry he
  simp only [words, List.mem_cons, List.not_mem_nil, or_false] at he
  rcases he with rfl | rfl | rfl | rfl | rfl | rfl <;> cases negative <;>
    simp [List.isPrefixOf, hne]

/-- A numeral with its sign in front is read as that number. -/
theorem scalar_signed (negative : Bool) {whole rest : List Char} (hw : IsWhole whole)
    {found : Json × List Char} (hn : number? negative (whole ++ rest) = some found) :
    scalar ((if negative then ['-'] else []) ++ (whole ++ rest)) = .ok found := by
  obtain ⟨c, cs, rfl, hc⟩ : ∃ c cs, whole = c :: cs ∧ c.isDigit = true := by
    obtain rfl | ⟨c, cs, rfl, -, hall⟩ := hw
    · exact ⟨_, _, rfl, rfl⟩
    · exact ⟨_, _, rfl, hall c List.mem_cons_self⟩
  rw [List.cons_append] at hn ⊢
  have none := findSome?_words_eq_none (isPrefixOf_numeral hc negative (cs ++ rest))
  unfold scalar
  rw [none]
  cases negative with
  | true => simp only [if_true, List.cons_append, List.nil_append, hn]
  | false =>
    have hm : c ≠ '-' := by
      rintro rfl
      cases hc
    simp [hm, hn]

theorem isWhole_toString (n : Nat) : IsWhole (toString n).toList := by
  rcases Nat.eq_zero_or_pos n with rfl | hn
  · exact .inl rfl
  · obtain ⟨c, ds, hd, hc⟩ := Decimal.exists_toString_eq_cons hn
    exact .inr ⟨c, ds, hd, hc, fun d => Decimal.isDigit_of_mem_toString⟩

/-- **An integer** is read back from its decimal text. -/
theorem scalar_toString (value : Int) {rest : List Char} (hr : Stops rest) :
    scalar ((toString value).toList ++ rest) = .ok (.int value, rest) := by
  have read : ∀ (negative : Bool) (n : Nat),
      scalar ((if negative then ['-'] else []) ++ ((toString n).toList ++ rest)) =
        .ok (.int (if negative then -(n : Int) else n), rest) := by
    intro negative n
    have found := number?_whole negative (isWhole_toString n) hr
    rw [Decimal.digitsValue_toString] at found
    exact scalar_signed negative (isWhole_toString n) found
  cases value with
  | ofNat n => exact read false n
  | negSucc n =>
    have text : (toString (Int.negSucc n)).toList = ['-'] ++ (toString (n + 1)).toList := by
      rw [show toString (Int.negSucc n) = "-" ++ toString (n + 1) from rfl, String.toList_append]
      rfl
    rw [text, List.append_assoc]
    exact read true (n + 1)

/-! ## Doubles -/

section Layouts

variable {ds : List Char}

theorem isDigit_of_mem_replicate_zero {n : Nat} {c : Char} (h : c ∈ List.replicate n '0') :
    c.isDigit = true := by
  rw [(List.mem_replicate.mp h).2]
  rfl

/-- A text of digits, a point and more digits, of the given value. -/
def Pointed (text : List Char) (value : ℚ) : Prop :=
  ∃ whole fraction, text = whole ++ '.' :: fraction ∧ IsWhole whole ∧ fraction ≠ [] ∧
    (∀ c ∈ fraction, c.isDigit = true) ∧
    (Decimal.digitsValue (whole ++ fraction) : ℚ) * 10 ^ (0 - fraction.length : Int) = value

/-- Zeros stand between the point and the digits. -/
theorem pointed_zeros_digits (hd : ∀ c ∈ ds, c.isDigit = true) (hne : ds ≠ []) (n : Nat) :
    Pointed ('0' :: '.' :: (List.replicate n '0' ++ ds))
      (Decimal.digitsValue ds * 10 ^ (-n - ds.length : Int)) := by
  refine ⟨['0'], List.replicate n '0' ++ ds, rfl, .inl rfl, by simp [hne], ?_, ?_⟩
  · exact List.forall_mem_append.mpr ⟨fun _ => isDigit_of_mem_replicate_zero, hd⟩
  · have value : Decimal.digitsValue (['0'] ++ (List.replicate n '0' ++ ds)) =
        Decimal.digitsValue ds := Decimal.digitsValue_zeros_append (n + 1) ds
    rw [value, List.length_append, List.length_replicate]
    congr 2
    push_cast
    omega

/-- The point stands among the digits. -/
theorem pointed_take_drop (hd : ∀ c ∈ ds, c.isDigit = true) (h0 : ∃ c cs, ds = c :: cs ∧ c ≠ '0')
    {n : Nat} (hn : 0 < n) (hlt : n < ds.length) :
    Pointed (ds.take n ++ '.' :: ds.drop n)
      (Decimal.digitsValue ds * 10 ^ (n - ds.length : Int)) := by
  obtain ⟨c, cs, hcs, hc⟩ := h0
  refine ⟨ds.take n, ds.drop n, rfl, ?_, ?_, fun d h => hd d (List.mem_of_mem_drop h), ?_⟩
  · refine .inr ⟨c, cs.take (n - 1), ?_, hc, fun d h => hd d (List.mem_of_mem_take h)⟩
    rw [hcs, List.take_cons hn]
  · rw [ne_eq, List.drop_eq_nil_iff]
    omega
  · rw [List.take_append_drop, List.length_drop]
    congr 2
    omega

/-- Zeros stand between the digits and the point, and one after it. -/
theorem pointed_digits_zeros (hd : ∀ c ∈ ds, c.isDigit = true)
    (h0 : ∃ c cs, ds = c :: cs ∧ c ≠ '0') (n : Nat) :
    Pointed (ds ++ List.replicate n '0' ++ ['.', '0'])
      (Decimal.digitsValue ds * 10 ^ (n : Int)) := by
  obtain ⟨c, cs, hcs, hc⟩ := h0
  refine ⟨ds ++ List.replicate n '0', ['0'], rfl, ?_, by simp, by simp, ?_⟩
  · refine .inr ⟨c, cs ++ List.replicate n '0', by rw [hcs]; rfl, hc, ?_⟩
    exact List.forall_mem_append.mpr ⟨hd, fun _ => isDigit_of_mem_replicate_zero⟩
  · have value : Decimal.digitsValue (ds ++ List.replicate n '0' ++ ['0']) =
        Decimal.digitsValue ds * 10 ^ (n + 1) := by
      rw [List.append_assoc, ← List.replicate_succ', Decimal.digitsValue_append_zeros]
    rw [value, List.length_singleton]
    push_cast
    rw [mul_assoc, ← zpow_natCast, ← zpow_add₀ (by norm_num)]
    congr 2
    push_cast
    omega

/-- In positional notation the digits before and after the point have the value that the place of
the point gives the digit string. -/
theorem positional_spec (hd : ∀ c ∈ ds, c.isDigit = true) (h0 : ∃ c cs, ds = c :: cs ∧ c ≠ '0')
    (point : Int) :
    Pointed (Decimal.positional ds point)
      (Decimal.digitsValue ds * 10 ^ (point - ds.length)) := by
  have hne : ds ≠ [] := by
    obtain ⟨c, cs, rfl, -⟩ := h0
    exact List.cons_ne_nil c cs
  unfold Decimal.positional
  split_ifs with hp
  · have before := pointed_zeros_digits hd hne (-point).toNat
    rwa [show (-((-point).toNat : Int)) = point by omega] at before
  · obtain ⟨n, rfl⟩ := Int.eq_ofNat_of_zero_le (not_le.mp hp).le
    simp only [Int.toNat_natCast]
    rcases Nat.lt_or_ge n ds.length with hn | hn
    · have among := pointed_take_drop hd h0 (by omega) hn
      rwa [List.length_take, Nat.min_eq_left hn.le, Nat.sub_self, List.replicate_zero,
        List.append_nil, if_neg (by simpa using hn)]
    · have after := pointed_digits_zeros hd h0 (n - ds.length)
      rw [List.take_of_length_le hn, List.drop_of_length_le hn]
      rwa [Nat.cast_sub hn] at after

/-- In scientific notation one digit stands before the point. -/
theorem scientific_spec (hd : ∀ c ∈ ds, c.isDigit = true) (h0 : ∃ c cs, ds = c :: cs ∧ c ≠ '0')
    (width : Nat) (power : Int) :
    ∃ whole fraction exponent, Decimal.scientific width ds power =
        whole ++ ((if fraction.isEmpty then [] else '.' :: fraction) ++
          'e' :: (if power < 0 then '-' else '+') :: exponent) ∧
      IsWhole whole ∧ (∀ c ∈ fraction, c.isDigit = true) ∧ exponent ≠ [] ∧
      (∀ c ∈ exponent, c.isDigit = true) ∧ Decimal.digitsValue exponent = power.natAbs ∧
      whole ++ fraction = ds ∧ whole.length = 1 := by
  obtain ⟨c, cs, rfl, hc⟩ := h0
  refine ⟨[c], cs, List.replicate (width - (toString power.natAbs).toList.length) '0' ++
    (toString power.natAbs).toList, by simp [Decimal.scientific], ?_, ?_, ?_, ?_, ?_, rfl, rfl⟩
  · exact .inr ⟨c, [], rfl, hc, by simpa using hd c List.mem_cons_self⟩
  · exact fun d h => hd d (List.mem_cons_of_mem c h)
  · intro h
    have := (List.append_eq_nil_iff.mp h).2
    simp at this
  · exact List.forall_mem_append.mpr
      ⟨fun _ => isDigit_of_mem_replicate_zero, fun _ => Decimal.isDigit_of_mem_toString⟩
  · rw [Decimal.digitsValue_zeros_append, Decimal.digitsValue_toString]

end Layouts

/-- A numeral with the value of the shortest digits of a double is that double. -/
theorem ofNumeral_eq_finite {m : Nat} {e : Int} (hc : Canonical m e) (hm : 0 < m) (negative : Bool)
    {whole fraction : List Char} {exponent : Int}
    (h : (Decimal.digitsValue (whole ++ fraction) : ℚ) * 10 ^ (exponent - fraction.length) =
      (Decimal.shortest m e).1 * 10 ^ (Decimal.shortest m e).2) :
    Decimal.ofNumeral negative whole fraction exponent = .finite negative m e hc :=
  Decimal.ofScientific_eq_finite hc hm
    ((Decimal.reading_congr h).trans (Decimal.reading_shortest hc hm)) negative

theorem shortest_pos {m : Nat} {e : Int} (hc : Canonical m e) (hm : 0 < m) :
    0 < (Decimal.shortest m e).1 := by
  refine Nat.pos_of_ne_zero fun h0 => ?_
  have read := Decimal.reading_shortest hc hm
  rw [h0, Decimal.reading_zero, Double.ofParts_eq hc] at read
  injection read with _ hm0
  omega

section Notations

variable {m : Nat} {e : Int} (hc : Canonical m e) (hm : 0 < m) (negative : Bool)
  {ds rest : List Char} (hd : ∀ c ∈ ds, c.isDigit = true) (h0 : ∃ c cs, ds = c :: cs ∧ c ≠ '0')
  (value : Decimal.digitsValue ds = (Decimal.shortest m e).1) (hr : Stops rest)

include hm hd h0 value hr

/-- The shortest digits of a double, in positional notation, are read as that double. -/
theorem scalar_positional :
    scalar ((if negative then ['-'] else []) ++
        (Decimal.positional ds ((Decimal.shortest m e).2 + ds.length) ++ rest)) =
      .ok (.real (.finite negative m e hc), rest) := by
  obtain ⟨whole, fraction, text, hw, hne, hf, equal⟩ :=
    positional_spec hd h0 ((Decimal.shortest m e).2 + ds.length)
  rw [text, List.append_assoc, List.cons_append]
  rw [value, add_sub_cancel_right] at equal
  have found := number?_positional negative hw hne hf hr
  rw [ofNumeral_eq_finite hc hm negative equal] at found
  exact scalar_signed negative hw found

/-- The shortest digits of a double, in scientific notation, are read as that double. -/
theorem scalar_scientific (width : Nat) :
    scalar ((if negative then ['-'] else []) ++
        (Decimal.scientific width ds ((Decimal.shortest m e).2 + ds.length - 1) ++ rest)) =
      .ok (.real (.finite negative m e hc), rest) := by
  obtain ⟨whole, fraction, exponent, text, hw, hf, hne, he, power, split, one⟩ :=
    scientific_spec hd h0 width ((Decimal.shortest m e).2 + ds.length - 1)
  have signed : (if (Decimal.shortest m e).2 + ds.length - 1 < 0 then
      -(Decimal.digitsValue exponent : Int) else Decimal.digitsValue exponent) =
        (Decimal.shortest m e).2 + ds.length - 1 := by
    rw [power]
    split_ifs <;> omega
  have length : ds.length = 1 + fraction.length := by
    rw [← split, List.length_append, one]
  have equal : (Decimal.digitsValue (whole ++ fraction) : ℚ) *
      10 ^ ((Decimal.shortest m e).2 + ds.length - 1 - fraction.length) =
        (Decimal.shortest m e).1 * 10 ^ (Decimal.shortest m e).2 := by
    rw [split, value]
    congr 2
    omega
  have found := number?_scientific negative
    (decide ((Decimal.shortest m e).2 + ds.length - 1 < 0)) hw hf hne he hr
  simp only [decide_eq_true_eq] at found
  rw [signed, ofNumeral_eq_finite hc hm negative equal] at found
  rw [text]
  simp only [List.append_assoc, List.cons_append] at found ⊢
  exact scalar_signed negative hw found

end Notations

/-- The text of a double other than zero, in either notation, is read back. -/
theorem scalar_write_pos (layout : Decimal.Layout) (negative : Bool) {m : Nat} {e : Int}
    (hc : Canonical m e) (hm : 0 < m) {rest : List Char} (hr : Stops rest) :
    scalar ((Decimal.write layout (.finite negative m e hc)).toList ++ rest) =
      .ok (.real (.finite negative m e hc), rest) := by
  have sign : (if negative then "-" else "").toList = if negative then ['-'] else [] := by
    cases negative <;> rfl
  have hd : ∀ c ∈ (toString (Decimal.shortest m e).1).toList, c.isDigit = true :=
    fun c => Decimal.isDigit_of_mem_toString
  have h0 := Decimal.exists_toString_eq_cons (shortest_pos hc hm)
  have value := Decimal.digitsValue_toString (Decimal.shortest m e).1
  unfold Decimal.write
  dsimp only
  rw [if_neg hm.ne', String.toList_append, String.toList_ofList, sign, List.append_assoc]
  generalize (toString (Decimal.shortest m e).1).toList = ds at hd h0 value ⊢
  rcases Classical.em (layout.above < (Decimal.shortest m e).2 + ds.length ∧
    (Decimal.shortest m e).2 + ds.length ≤ layout.upTo) with near | far
  · rw [if_pos near]
    exact scalar_positional hc hm negative hd h0 value hr
  · rw [if_neg far]
    exact scalar_scientific hc hm negative hd h0 value hr layout.exponentWidth

/-- The text of a zero keeps its sign. -/
theorem scalar_write_zero (layout : Decimal.Layout) (negative : Bool) {rest : List Char}
    (hr : Stops rest) :
    scalar ((Decimal.write layout (.zero negative)).toList ++ rest) =
      .ok (.real (.zero negative), rest) := by
  have text : (Decimal.write layout (.zero negative)).toList ++ rest =
      (if negative then ['-'] else []) ++ (['0'] ++ '.' :: (['0'] ++ rest)) := by
    cases negative <;> simp [Decimal.write, Double.zero]
  have found := number?_positional negative (.inl rfl) (List.cons_ne_nil '0' []) (by simp) hr
  rw [text]
  exact scalar_signed negative (.inl rfl) found

/-- **A finite double** is read back from its text in every layout. -/
theorem scalar_write (layout : Decimal.Layout) {x : Double} (hx : x.isFinite = true)
    {rest : List Char} (hr : Stops rest) :
    scalar ((Decimal.write layout x).toList ++ rest) = .ok (.real x, rest) := by
  cases x with
  | nan => cases hx
  | infinite negative => cases hx
  | finite negative m e hc =>
    rcases Nat.eq_zero_or_pos m with rfl | hm
    · obtain rfl : e = -1074 := hc.2.2.2.resolve_left (by decide)
      exact scalar_write_zero layout negative hr
    · exact scalar_write_pos layout negative hc hm hr

end Json

end ScriptSurvey
