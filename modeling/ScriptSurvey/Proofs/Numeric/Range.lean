import Mathlib.Algebra.Order.Field.Power
import Mathlib.Data.Nat.Log
import Mathlib.Data.Rat.Cast.Order
import Mathlib.Tactic.Linarith
import Mathlib.Tactic.NormNum
import Mathlib.Tactic.Ring
import ScriptSurvey.Numeric.Number

/-!
# The range of doubles

A quotient has a nearest double unless it reaches `2 ^ 1024 - 2 ^ 970`, half a step above the
greatest double (`Double.nearest_isFinite_iff`). A half may be added to any double and the sum cut
down to an integer (`Double.roundHalfUp_ok`), so that rounding a mean fails only if the mean itself
is out of range, and rounding a double that is held between two bounds never fails
(`Number.roundHalfUp_clamp_ok`).
-/

namespace ScriptSurvey

/-! ## Rounded quotients -/

section RoundDiv

variable {num den k : Nat}

theorem le_roundDiv (hd : 0 < den) (h : k * den ≤ num) : k ≤ roundDiv num den := by
  have hq : k ≤ num / den := (Nat.le_div_iff_mul_le hd).mpr h
  unfold roundDiv
  dsimp only
  split_ifs <;> omega

theorem roundDiv_le (hd : 0 < den) (h : num ≤ k * den) : roundDiv num den ≤ k := by
  have hn := Nat.div_add_mod num den
  have hr := Nat.mod_lt num hd
  have hq : num / den ≤ k := Nat.div_le_of_le_mul (by rwa [Nat.mul_comm])
  rcases Nat.lt_or_eq_of_le hq with hq | hq
  · unfold roundDiv
    dsimp only
    split_ifs <;> omega
  · -- nothing is left over, so that the quotient is exact
    rw [hq, Nat.mul_comm] at hn
    have h0 : num % den = 0 := by omega
    simp only [roundDiv, h0, hq, Nat.mul_zero, hd, if_true, Nat.le_refl]

/-- A tie goes to the even one of two neighbours. -/
theorem roundDiv_lt_iff_of_even (hd : 0 < den) (hk : k % 2 = 0) :
    roundDiv num den < k ↔ 2 * num + den < 2 * (k * den) := by
  have hn := Nat.div_add_mod num den
  have hr := Nat.mod_lt num hd
  unfold roundDiv
  dsimp only
  generalize num / den = q at hn ⊢
  generalize num % den = r at hn hr ⊢
  rcases Nat.lt_trichotomy (q + 1) k with hq | rfl | hq
  · have := Nat.mul_le_mul_left den (show q + 2 ≤ k by omega)
    rw [Nat.mul_add] at this
    rw [Nat.mul_comm k den]
    split_ifs <;> omega
  · rw [Nat.mul_comm (q + 1) den, Nat.mul_add]
    split_ifs <;> omega
  · have := Nat.mul_le_mul_left den (show k ≤ q by omega)
    rw [Nat.mul_comm k den]
    split_ifs <;> omega

end RoundDiv

/-! ## Powers -/

theorem zpow_eq_pow_div_pow (b : ℚ) (e : Int) : b ^ e = b ^ e.toNat / b ^ (-e).toNat := by
  rcases Int.le_total 0 e with h | h
  · obtain ⟨n, rfl⟩ := Int.eq_ofNat_of_zero_le h
    simp
  · obtain ⟨n, hn⟩ := Int.eq_ofNat_of_zero_le (Int.neg_nonneg.mpr h)
    obtain rfl : e = -n := by omega
    simp

/-- A quotient may be compared after both its parts were scaled. -/
theorem le_scaled_iff (num : Nat) {den : Nat} (hd : 0 < den) (e : Int) (k : Nat) :
    k * (den * 2 ^ e.toNat) ≤ num * 2 ^ (-e).toNat ↔ (k : ℚ) * 2 ^ e ≤ num / den := by
  have hd' : (0 : ℚ) < den := by exact_mod_cast hd
  have hp : (0 : ℚ) < 2 ^ (-e).toNat := by positivity
  rw [zpow_eq_pow_div_pow, mul_div_assoc', div_le_div_iff₀ hp hd', ← Nat.mul_assoc, Nat.mul_right_comm]
  exact_mod_cast Iff.rfl

namespace Double

/-- The binary lengths of two numbers enclose their quotient. -/
theorem zpow_log2_sub_lt {num den : Nat} (hn : 0 < num) (hd : 0 < den) :
    (2 : ℚ) ^ ((num.log2 : Int) - den.log2 - 1) < num / den ∧
      (num / den : ℚ) < 2 ^ ((num.log2 : Int) - den.log2 + 1) := by
  have hd' : (0 : ℚ) < den := by exact_mod_cast hd
  have hnum_lo : (2 : ℚ) ^ (num.log2 : Int) ≤ num := by
    rw [zpow_natCast]
    exact_mod_cast Nat.log2_self_le hn.ne'
  have hnum_hi : (num : ℚ) < 2 ^ ((num.log2 : Int) + 1) := by
    exact_mod_cast Nat.lt_log2_self
  have hden_lo : (2 : ℚ) ^ (den.log2 : Int) ≤ den := by
    rw [zpow_natCast]
    exact_mod_cast Nat.log2_self_le hd.ne'
  have hden_hi : (den : ℚ) < 2 ^ ((den.log2 : Int) + 1) := by
    exact_mod_cast Nat.lt_log2_self
  constructor
  · rw [lt_div_iff₀ hd']
    calc (2 : ℚ) ^ ((num.log2 : Int) - den.log2 - 1) * den
        < 2 ^ ((num.log2 : Int) - den.log2 - 1) * 2 ^ ((den.log2 : Int) + 1) := by
          exact mul_lt_mul_of_pos_left hden_hi (by positivity)
      _ = 2 ^ (num.log2 : Int) := by
          rw [← zpow_add₀ two_ne_zero]
          congr 1
          omega
      _ ≤ num := hnum_lo
  · rw [div_lt_iff₀ hd']
    calc (num : ℚ) < 2 ^ ((num.log2 : Int) + 1) := hnum_hi
      _ = 2 ^ ((num.log2 : Int) - den.log2 + 1) * 2 ^ (den.log2 : Int) := by
          rw [← zpow_add₀ two_ne_zero]
          congr 1
          omega
      _ ≤ 2 ^ ((num.log2 : Int) - den.log2 + 1) * den := by
          exact mul_le_mul_of_nonneg_left hden_lo (by positivity)

/-- The scale at which a quotient is rounded: its mantissa has at most 53 bits, and exactly 53
unless the scale is the least. -/
theorem scaleOf_spec {num den : Nat} (hn : 0 < num) (hd : 0 < den) :
    (num / den : ℚ) < 2 ^ (scaleOf num den + 53) ∧ -1074 ≤ scaleOf num den ∧
      (scaleOf num den = -1074 ∨ (2 : ℚ) ^ (scaleOf num den + 52) ≤ num / den) := by
  obtain ⟨lower, upper⟩ := zpow_log2_sub_lt hn hd
  have reach := le_scaled_iff num hd ((num.log2 : Int) - den.log2) 1
  rw [Nat.one_mul, Nat.cast_one, one_mul] at reach
  unfold scaleOf
  simp only [Nat.pow_eq, reach]
  generalize (num.log2 : Int) - den.log2 = top at lower upper
  generalize (num / den : ℚ) = x at lower upper
  have mono : ∀ {a b : Int}, a ≤ b → (2 : ℚ) ^ a ≤ 2 ^ b := zpow_le_zpow_right₀ one_le_two
  split_ifs with h
  · refine ⟨upper.trans_le (mono (by omega)), le_max_right _ _, ?_⟩
    rcases le_total (top - 52) (-1074) with hs | hs
    · exact .inl (max_eq_right hs)
    · exact .inr ((mono (by omega)).trans h)
  · refine ⟨(not_le.mp h).trans_le (mono (by omega)), le_max_right _ _, ?_⟩
    rcases le_total (top - 53) (-1074) with hs | hs
    · exact .inl (max_eq_right hs)
    · exact .inr ((mono (by omega)).trans lower.le)

/-! ## Finite doubles -/

/-- A double that is a number with a finite value. -/
def IsFinite (x : Double) : Prop :=
  ∃ negative mantissa exponent h, x = .finite negative mantissa exponent h

/-- The least number that is too great for a double, `2 ^ 1024 - 2 ^ 970`. -/
def limit : Nat := (2 ^ 54 - 1) * 2 ^ 970

theorem lt_limit_of_le_hundred {n : Nat} (h : n ≤ 100) : n < limit := by
  have : 0 < 2 ^ 970 := by positivity
  unfold limit
  omega

theorem natAbs_lt_limit_of_percent {value : Int} (h₀ : 0 ≤ value) (h₁ : value ≤ 100) :
    value.natAbs < limit :=
  lt_limit_of_le_hundred (by omega)

theorem ofParts_isFinite_iff {negative : Bool} {mantissa : Nat} {exponent : Int} :
    (ofParts negative mantissa exponent).IsFinite ↔ Canonical mantissa exponent := by
  unfold ofParts
  split_ifs with h
  · exact ⟨fun _ => h, fun _ => ⟨_, _, _, h, rfl⟩⟩
  · exact ⟨fun ⟨_, _, _, _, he⟩ => (nomatch he), fun hc => absurd hc h⟩

theorem limit_le_iff (num : Nat) {den : Nat} (hd : 0 < den) :
    limit * den ≤ num ↔ ((2 ^ 54 - 1 : Nat) : ℚ) * 2 ^ (970 : Int) ≤ num / den := by
  have hd' : (0 : ℚ) < den := by exact_mod_cast hd
  rw [le_div_iff₀ hd', limit]
  exact_mod_cast Iff.rfl

/-- At the greatest scale, a quotient fills the mantissa if it reaches the limit. -/
theorem roundDiv_top_lt_iff (num : Nat) {den : Nat} (hd : 0 < den) :
    roundDiv (num * 2 ^ (-971 : Int).toNat) (den * 2 ^ (971 : Int).toNat) < 2 ^ 53 ↔
      num < limit * den := by
  rw [roundDiv_lt_iff_of_even (by positivity) (by norm_num), limit,
    show (-971 : Int).toNat = 0 from rfl, show (971 : Int).toNat = 970 + 1 from rfl, pow_zero,
    Nat.mul_one, pow_succ 2 970]
  generalize 2 ^ 970 = p
  rw [show (2 ^ 54 - 1) * p * den = 2 ^ 54 * (den * p) - den * p by
    rw [Nat.mul_assoc, Nat.sub_one_mul, Nat.mul_comm p]]
  rw [show den * (p * 2) = 2 * (den * p) by ring]
  omega

/-- A quotient that is rounded above the greatest scale reaches the limit, and one that is rounded
below it does not. -/
theorem limit_le_of_scaleOf {num den : Nat} (hn : 0 < num) (hd : 0 < den) :
    (971 < scaleOf num den → limit * den ≤ num) ∧ (scaleOf num den < 971 → num < limit * den) := by
  obtain ⟨upper, -, lower⟩ := scaleOf_spec hn hd
  have mono : ∀ {a b : Int}, a ≤ b → (2 : ℚ) ^ a ≤ 2 ^ b := zpow_le_zpow_right₀ one_le_two
  have hp : (0 : ℚ) < 2 ^ (970 : Int) := by positivity
  constructor
  · intro h
    rw [limit_le_iff num hd]
    have reached := lower.resolve_left (by omega)
    calc ((2 ^ 54 - 1 : Nat) : ℚ) * 2 ^ (970 : Int)
        ≤ 2 ^ (54 : Int) * 2 ^ (970 : Int) := by
          refine mul_le_mul_of_nonneg_right ?_ hp.le
          norm_num
      _ = 2 ^ (1024 : Int) := by rw [← zpow_add₀ two_ne_zero]; norm_num
      _ ≤ 2 ^ (scaleOf num den + 52) := mono (by omega)
      _ ≤ num / den := reached
  · intro h
    rw [← not_le, limit_le_iff num hd, not_le]
    calc (num / den : ℚ) < 2 ^ (scaleOf num den + 53) := upper
      _ ≤ 2 ^ (1023 : Int) := mono (by omega)
      _ = 2 ^ (53 : Int) * 2 ^ (970 : Int) := by rw [← zpow_add₀ two_ne_zero]; norm_num
      _ ≤ ((2 ^ 54 - 1 : Nat) : ℚ) * 2 ^ (970 : Int) := by
          refine mul_le_mul_of_nonneg_right ?_ hp.le
          norm_num

/-- The mantissa that a quotient gets has 53 bits, unless it is rounded up to the next power of two
or the scale is the least. -/
theorem roundDiv_scaleOf {num den : Nat} (hn : 0 < num) (hd : 0 < den) :
    let m := roundDiv (num * 2 ^ (-scaleOf num den).toNat) (den * 2 ^ (scaleOf num den).toNat)
    m ≤ 2 ^ 53 ∧ (2 ^ 52 ≤ m ∨ scaleOf num den = -1074) := by
  obtain ⟨upper, -, lower⟩ := scaleOf_spec hn hd
  have scaled := le_scaled_iff num hd (scaleOf num den)
  generalize scaleOf num den = e at *
  have hpos : 0 < den * 2 ^ e.toNat := by positivity
  rw [zpow_add₀ two_ne_zero] at upper lower
  refine ⟨roundDiv_le hpos (Nat.le_of_not_le fun h => ?_), ?_⟩
  · have reached := (scaled (2 ^ 53)).mp h
    norm_num at reached upper
    linarith
  · refine lower.symm.imp_left fun h => le_roundDiv hpos ((scaled (2 ^ 52)).mpr ?_)
    norm_num at h ⊢
    linarith

/-- **Overflow.** A quotient has a nearest double unless it reaches the limit. -/
theorem nearest_isFinite_iff (negative : Bool) (num : Nat) {den : Nat} (hd : 0 < den) :
    (nearest negative num den).IsFinite ↔ num < limit * den := by
  unfold nearest
  rcases Nat.eq_zero_or_pos num with rfl | hn
  · simp only [if_true]
    exact iff_of_true ⟨_, _, _, _, rfl⟩ (Nat.mul_pos (by unfold limit; positivity) hd)
  obtain ⟨above, below⟩ := limit_le_of_scaleOf hn hd
  obtain ⟨hle, hge⟩ := roundDiv_scaleOf hn hd
  have least := (scaleOf_spec hn hd).2.1
  have top := roundDiv_top_lt_iff num hd
  simp only [if_neg hn.ne', Nat.pow_eq]
  generalize scaleOf num den = e at *
  have htop : e = 971 → (roundDiv (num * 2 ^ (-e).toNat) (den * 2 ^ e.toNat) < 2 ^ 53 ↔
      num < limit * den) := by
    rintro rfl
    exact top
  generalize roundDiv (num * 2 ^ (-e).toNat) (den * 2 ^ e.toNat) = m at *
  generalize limit * den = bound at *
  split_ifs with hm
  · rw [ofParts_isFinite_iff, Canonical]
    simp only [Nat.pow_eq]
    omega
  · rw [ofParts_isFinite_iff, Canonical]
    simp only [Nat.pow_eq]
    omega

theorem nearest_isFinite_or_infinite (negative : Bool) (num den : Nat) :
    (nearest negative num den).IsFinite ∨ nearest negative num den = .infinite negative := by
  have parts : ∀ m e, (ofParts negative m e).IsFinite ∨
      ofParts negative m e = .infinite negative := by
    intro m e
    unfold ofParts
    split_ifs with h
    · exact .inl ⟨_, _, _, h, rfl⟩
    · exact .inr rfl
  unfold nearest
  dsimp only
  split_ifs
  · exact .inl ⟨_, _, _, _, rfl⟩
  · exact parts _ _
  · exact parts _ _

theorem lt_of_nearest_ne_infinite (negative : Bool) {num den : Nat} (hd : 0 < den)
    (h : nearest negative num den ≠ .infinite negative) : num < limit * den := by
  rw [← nearest_isFinite_iff negative num hd]
  exact (nearest_isFinite_or_infinite negative num den).resolve_right h

/-- An integer below the limit has a nearest double. -/
theorem ofInt?_ok {value : Int} (h : value.natAbs < limit) :
    ∃ x, ofInt? value = .ok x ∧ x.IsFinite := by
  rw [← Nat.mul_one limit, ← nearest_isFinite_iff (value < 0) value.natAbs Nat.one_pos] at h
  obtain ⟨n, m, e, hc, hx⟩ := h
  exact ⟨_, by rw [ofInt?, ofInt, hx], _, _, _, hc, rfl⟩

theorem natAbs_lt_of_ofInt?_eq_ok {value : Int} {x : Double} (h : ofInt? value = .ok x) :
    value.natAbs < limit := by
  rw [← Nat.mul_one limit]
  refine lt_of_nearest_ne_infinite (value < 0) Nat.one_pos fun hx => ?_
  rw [ofInt?, ofInt, hx] at h
  cases h

theorem ofQuotient_ok {num : Int} {den : Nat} (hd : 0 < den) (h : num.natAbs < limit * den) :
    ∃ x, ofQuotient num den = .ok x ∧ x.IsFinite := by
  obtain ⟨n, m, e, hc, hx⟩ := (nearest_isFinite_iff (num < 0) num.natAbs hd).mpr h
  exact ⟨_, by rw [ofQuotient, hx], _, _, _, hc, rfl⟩

theorem natAbs_lt_of_ofQuotient_eq_ok {num : Int} {den : Nat} {x : Double} (hd : 0 < den)
    (h : ofQuotient num den = .ok x) : num.natAbs < limit * den := by
  refine lt_of_nearest_ne_infinite (num < 0) hd fun hx => ?_
  rw [ofQuotient, hx] at h
  cases h

/-! ## Sums with a half -/

/-- The greatest double. -/
def greatest : Nat := (2 ^ 53 - 1) * 2 ^ 971

theorem greatest_add_eq_limit : greatest + 2 ^ 970 = limit := by
  rw [greatest, limit, pow_succ 2 970]
  generalize 2 ^ 970 = p
  omega

theorem natAbs_ratio_le (negative : Bool) {mantissa : Nat} {exponent : Int}
    (h : Canonical mantissa exponent) :
    (ratio negative mantissa exponent).1.natAbs ≤
      greatest * (ratio negative mantissa exponent).2 := by
  obtain ⟨hm, -, he, -⟩ := h
  have hm' : mantissa ≤ 2 ^ 53 - 1 := Nat.le_sub_one_of_lt hm
  have he' : exponent.toNat ≤ 971 := by omega
  have hnum : mantissa * 2 ^ exponent.toNat ≤ greatest := by
    rw [greatest]
    generalize 971 = top at he' ⊢
    exact Nat.mul_le_mul hm' (Nat.pow_le_pow_right Nat.two_pos he')
  have hcast : (ratio negative mantissa exponent).1.natAbs = mantissa * 2 ^ exponent.toNat := by
    simp only [ratio, quotient, Nat.pow_eq]
    split_ifs
    · rw [Int.natAbs_neg, Int.natAbs_natCast]
    · rw [Int.natAbs_natCast]
  rw [hcast]
  exact hnum.trans (Nat.le_mul_of_pos_right _ (Nat.two_pow_pos _))

theorem half_eq : half = .finite false (2 ^ 52) (-53) (by decide) := rfl

/-- A half may be added to any finite double. -/
theorem add_half_isFinite {x : Double} (hx : x.IsFinite) : (x + half).IsFinite := by
  obtain ⟨negative, mantissa, exponent, hc, rfl⟩ := hx
  have hp := natAbs_ratio_le negative hc
  have hq : 0 < (ratio negative mantissa exponent).2 := Nat.two_pow_pos _
  rw [half_eq]
  change (add _ _).IsFinite
  simp only [add]
  generalize (ratio negative mantissa exponent).1 = p at hp ⊢
  generalize (ratio negative mantissa exponent).2 = q at hp hq ⊢
  split_ifs with h
  · exact ⟨_, _, _, _, rfl⟩
  have hr : ratio false (2 ^ 52) (-53) = ((2 ^ 52 : Int), 2 ^ 53) := rfl
  rw [hr, nearest_isFinite_iff _ _ (Nat.mul_pos hq (by norm_num)), ← greatest_add_eq_limit]
  -- half a unit is less than the step above the greatest double
  have hstep : 0 < 2 ^ 970 := by positivity
  generalize 2 ^ 970 = step at hstep ⊢
  calc (p * ((2 ^ 53 : Nat) : Int) + 2 ^ 52 * q).natAbs
      ≤ (p * ((2 ^ 53 : Nat) : Int)).natAbs + (2 ^ 52 * (q : Int)).natAbs := Int.natAbs_add_le _ _
    _ = p.natAbs * 2 ^ 53 + 2 ^ 52 * q := by simp [Int.natAbs_mul]
    _ ≤ greatest * q * 2 ^ 53 + 2 ^ 52 * q := by omega
    _ < greatest * q * 2 ^ 53 + q * 2 ^ 53 := by omega
    _ ≤ (greatest + step) * (q * 2 ^ 53) := by
        have := Nat.mul_le_mul_right (q * 2 ^ 53) hstep
        rw [Nat.add_mul, Nat.mul_assoc]
        omega

theorem floor_ok {x : Double} (hx : x.IsFinite) : ∃ v, x.floor = .ok v ∧ v.natAbs < limit := by
  obtain ⟨negative, mantissa, exponent, hc, rfl⟩ := hx
  have hp := natAbs_ratio_le negative hc
  have hq : 0 < (ratio negative mantissa exponent).2 := Nat.two_pow_pos _
  refine ⟨(ratio negative mantissa exponent).1.fdiv (ratio negative mantissa exponent).2, rfl, ?_⟩
  generalize (ratio negative mantissa exponent).1 = p at hp ⊢
  generalize (ratio negative mantissa exponent).2 = q at hp hq ⊢
  rw [Int.fdiv_eq_ediv_of_nonneg _ (Int.natCast_nonneg q)]
  have hq' : (0 : Int) < q := by exact_mod_cast hq
  have hp' : (p.natAbs : Int) ≤ greatest * q := by exact_mod_cast hp
  have hlow : -(greatest : Int) ≤ p / q := by
    rw [Int.le_ediv_iff_mul_le hq', Int.neg_mul]
    omega
  have hhigh : p / q ≤ greatest := Int.ediv_le_of_le_mul hq' (by omega)
  have hlt : greatest < limit := by
    rw [← greatest_add_eq_limit]
    exact Nat.lt_add_of_pos_right (by positivity)
  omega

/-- **Rounding a finite double to an integer** gives one that has a nearest double itself. -/
theorem roundHalfUp_ok {x : Double} (hx : x.IsFinite) :
    ∃ v, x.roundHalfUp = .ok v ∧ v.natAbs < limit :=
  floor_ok (add_half_isFinite hx)

end Double

namespace Number

theorem roundHalfUp_int_ok {value : Int} (h : value.natAbs < Double.limit) :
    ∃ v, (int value).roundHalfUp = .ok v ∧ v.natAbs < Double.limit := by
  obtain ⟨x, hx, hf⟩ := Double.ofInt?_ok h
  obtain ⟨v, hv, hl⟩ := Double.roundHalfUp_ok hf
  refine ⟨v, ?_, hl⟩
  simp only [roundHalfUp, hx, bind, Except.bind, hv]

/-- A double that is held between two integers can be rounded, whatever it was before. -/
theorem roundHalfUp_clamp_ok (x : Double) {low high : Int} (hl : low.natAbs < Double.limit)
    (hh : high.natAbs < Double.limit) :
    ∃ v, ((real x).clamp (.int low) (.int high)).roundHalfUp = .ok v ∧
      v.natAbs < Double.limit := by
  have atLow := roundHalfUp_int_ok hl
  have atHigh := roundHalfUp_int_ok hh
  have held : ∃ v, (if (int low).lt (int high) then int high else int low).roundHalfUp = .ok v ∧
      v.natAbs < Double.limit := by
    split_ifs
    · exact atHigh
    · exact atLow
  unfold clamp
  cases x with
  | nan => exact held
  | infinite negative =>
    cases negative with
    | true => exact atLow
    | false => exact held
  | finite negative mantissa exponent hc =>
    by_cases h : (real (.finite negative mantissa exponent hc)).lt (int high) = true
    · simp only [h, if_true]
      split_ifs
      · exact Double.roundHalfUp_ok ⟨_, _, _, hc, rfl⟩
      · exact atLow
    · simp only [h]
      exact held

end Number

end ScriptSurvey
