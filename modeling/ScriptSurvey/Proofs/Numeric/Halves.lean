import Mathlib.Data.Rat.Floor
import ScriptSurvey.Proofs.Numeric.Nearest

/-!
# Doubles without rounding

A sum of doubles is rounded only where its value is not a double itself (`Double.add_value`). Halves
of integers of up to 53 bits are doubles (`Double.representable_half`), so that an integer survives
the detour of becoming a double, getting a half added and being cut down again
(`Number.roundHalfUp_int`).
-/

namespace ScriptSurvey

namespace Double

/-! ## Values -/

/-- The exact value of a finite double, and zero for the others. -/
def value : Double → ℚ
  | .finite negative mantissa exponent _ =>
    (ratio negative mantissa exponent).1 / (ratio negative mantissa exponent).2
  | _ => 0

theorem value_finite {negative : Bool} {mantissa : Nat} {exponent : Int}
    (h : Canonical mantissa exponent) :
    (finite negative mantissa exponent h).value =
      (if negative then -1 else 1) * (mantissa * 2 ^ exponent) := by
  rw [value, zpow_eq_pow_div_pow]
  cases negative <;> simp [ratio, quotient, Nat.pow_eq, neg_div, mul_div_assoc]

/-- Cutting a finite double down gives the integer below its value. -/
theorem floor_eq {x : Double} (hx : x.IsFinite) : x.floor = .ok ⌊x.value⌋ := by
  obtain ⟨negative, mantissa, exponent, hc, rfl⟩ := hx
  rw [value, Rat.floor_intCast_div_natCast, floor]
  exact congrArg Except.ok (Int.fdiv_eq_ediv_of_nonneg _ (Int.natCast_nonneg _))

/-! ## Values that are not rounded -/

/-- The values that doubles have. -/
def Representable (v : ℚ) : Prop :=
  ∃ m e, Canonical m e ∧ |v| = m * 2 ^ e

/-- **What is a double already** is not rounded. -/
theorem nearest_value (negative : Bool) {num den : Nat} (hd : 0 < den)
    (h : Representable (num / den)) :
    (nearest negative num den).IsFinite ∧
      (nearest negative num den).value = (if negative then -1 else 1) * (num / den) := by
  obtain ⟨m, e, hc, hv⟩ := h
  rw [abs_of_nonneg (show (0 : ℚ) ≤ num / den by positivity)] at hv
  rcases Nat.eq_zero_or_pos m with rfl | hm
  · have hn : num = 0 := by
      have hd' : (den : ℚ) ≠ 0 := by exact_mod_cast hd.ne'
      simpa [hd', hd.ne'] using hv
    subst hn
    exact ⟨⟨_, _, _, _, rfl⟩, by simp [nearest, zero, value_finite]⟩
  · have hp : (0 : ℚ) < 2 ^ e := by positivity
    have parts : nearest false num den = ofParts false m e :=
      nearest_eq_ofParts false hd hc hm (by rw [hv]; nlinarith) (by rw [hv]; nlinarith)
        fun _ _ => hv.ge
    rw [nearest_eq_finite hc parts negative]
    exact ⟨⟨_, _, _, hc, rfl⟩, by rw [value_finite, hv]⟩

/-- The sign of an integer goes with its size. -/
theorem nearest_value_int {num : Int} {den : Nat} (hd : 0 < den)
    (h : Representable (num / den)) :
    (nearest (num < 0) num.natAbs den).IsFinite ∧
      (nearest (num < 0) num.natAbs den).value = num / den := by
  have size : |(num : ℚ) / den| = num.natAbs / den := by
    rw [abs_div, Nat.abs_cast, Nat.cast_natAbs, Int.cast_abs]
  have h' : Representable (num.natAbs / den) := by
    rwa [Representable, ← size, abs_abs]
  obtain ⟨finite, hv⟩ := nearest_value (num < 0) hd h'
  refine ⟨finite, hv.trans ?_⟩
  rw [Nat.cast_natAbs, Int.cast_abs]
  rcases lt_or_ge num 0 with neg | nonneg
  · have : (num : ℚ) < 0 := by exact_mod_cast neg
    simp [neg, abs_of_neg this, neg_div]
  · have : (0 : ℚ) ≤ num := by exact_mod_cast nonneg
    simp [nonneg.not_gt, abs_of_nonneg this]

/-- A sum that is a double is not rounded. -/
theorem add_value {x y : Double} (hx : x.IsFinite) (hy : y.IsFinite)
    (h : Representable (x.value + y.value)) :
    (x + y).IsFinite ∧ (x + y).value = x.value + y.value := by
  obtain ⟨n₁, m₁, e₁, hc₁, rfl⟩ := hx
  obtain ⟨n₂, m₂, e₂, hc₂, rfl⟩ := hy
  have hq₁ : 0 < (ratio n₁ m₁ e₁).2 := Nat.two_pow_pos _
  have hq₂ : 0 < (ratio n₂ m₂ e₂).2 := Nat.two_pow_pos _
  change Representable (((ratio n₁ m₁ e₁).1 : ℚ) / (ratio n₁ m₁ e₁).2 +
    (ratio n₂ m₂ e₂).1 / (ratio n₂ m₂ e₂).2) at h
  change (add _ _).IsFinite ∧ (add _ _).value = ((ratio n₁ m₁ e₁).1 : ℚ) / (ratio n₁ m₁ e₁).2 +
    (ratio n₂ m₂ e₂).1 / (ratio n₂ m₂ e₂).2
  simp only [add]
  generalize (ratio n₁ m₁ e₁).1 = p₁ at *
  generalize (ratio n₁ m₁ e₁).2 = q₁ at *
  generalize (ratio n₂ m₂ e₂).1 = p₂ at *
  generalize (ratio n₂ m₂ e₂).2 = q₂ at *
  have sum : (p₁ / q₁ + p₂ / q₂ : ℚ) = ((p₁ * q₂ + p₂ * q₁ : Int) : ℚ) / (q₁ * q₂ : Nat) := by
    push_cast
    field_simp
  rw [sum] at h ⊢
  split_ifs with total
  · exact ⟨⟨_, _, _, _, rfl⟩, by simp [total, zero, value_finite]⟩
  · exact nearest_value_int (Nat.mul_pos hq₁ hq₂) h

/-- Halves of integers of 53 bits are doubles. -/
theorem representable_half {k : Int} (h : k.natAbs < 2 ^ 53) : Representable (k / 2) := by
  have size : |(k : ℚ) / 2| = k.natAbs / 2 := by
    rw [abs_div, abs_two, Nat.cast_natAbs, Int.cast_abs]
  unfold Representable
  rw [size]
  generalize k.natAbs = n at h
  rcases Nat.eq_zero_or_pos n with rfl | hn
  · exact ⟨0, -1074, by decide, by simp⟩
  -- the digits of the integer are moved up until they fill the mantissa
  have hlog : n.log2 ≤ 52 := by
    have := (Nat.log2_lt hn.ne').mpr h
    omega
  have low : 2 ^ 52 ≤ n * 2 ^ (52 - n.log2) := by
    calc 2 ^ 52 = 2 ^ n.log2 * 2 ^ (52 - n.log2) := by rw [← pow_add]; congr 1; omega
      _ ≤ n * 2 ^ (52 - n.log2) := Nat.mul_le_mul_right _ (Nat.log2_self_le hn.ne')
  have high : n * 2 ^ (52 - n.log2) < 2 ^ 53 := by
    calc n * 2 ^ (52 - n.log2) < 2 ^ (n.log2 + 1) * 2 ^ (52 - n.log2) :=
          Nat.mul_lt_mul_of_pos_right Nat.lt_log2_self (Nat.two_pow_pos _)
      _ = 2 ^ 53 := by rw [← pow_add]; congr 1; omega
  refine ⟨n * 2 ^ (52 - n.log2), -(52 - n.log2 : Nat) - 1, ⟨high, by omega, by omega, .inl low⟩, ?_⟩
  rw [zpow_sub₀ two_ne_zero, zpow_neg, zpow_natCast]
  push_cast
  field_simp

/-- An integer of up to 52 bits is a double. -/
theorem ofInt?_value {k : Int} (h : k.natAbs < 2 ^ 52) :
    ∃ x, ofInt? k = .ok x ∧ x.IsFinite ∧ x.value = k := by
  have whole : Representable ((k : ℚ) / (1 : Nat)) := by
    have := representable_half (k := 2 * k) (by omega)
    simpa using this
  obtain ⟨⟨n, m, e, hc, hx⟩, hv⟩ := nearest_value_int Nat.one_pos whole
  refine ⟨ofInt k, ?_, ⟨n, m, e, hc, hx⟩, by simpa [ofInt] using hv⟩
  rw [ofInt?, ofInt, hx]

theorem half_value : half.value = 1 / 2 := by
  rw [half_eq, value_finite]
  norm_num

end Double

/-! ## Integers -/

namespace Number

/-- **Rounding leaves an integer as it is**: with a half added it still has no more than the 53 bits
of a double. -/
theorem roundHalfUp_int {k : Int} (h : k.natAbs < 2 ^ 52) : (int k).roundHalfUp = .ok k := by
  obtain ⟨x, hx, finite, hv⟩ := Double.ofInt?_value h
  have sum : x.value + Double.half.value = ((2 * k + 1 : Int) : ℚ) / 2 := by
    rw [hv, Double.half_value]
    push_cast
    ring
  have fits : Double.Representable (x.value + Double.half.value) := by
    rw [sum]
    exact Double.representable_half (by omega)
  obtain ⟨finite', hv'⟩ := Double.add_value finite ⟨_, _, _, _, Double.half_eq⟩ fits
  have floor : ⌊x.value + Double.half.value⌋ = k := by
    rw [hv, Double.half_value, Int.floor_intCast_add]
    norm_num
  simp only [roundHalfUp, hx, bind, Except.bind, Double.roundHalfUp, Double.floor_eq finite', hv',
    floor]

theorem lt_int (x y : Int) : (int x).lt (int y) = decide (x < y) := by
  simp [lt, ratio?]

/-- An integer held between two integers is one. -/
theorem clamp_int (value low high : Int) :
    (int value).clamp (int low) (int high) = int (max low (min high value)) := by
  unfold clamp
  dsimp only
  split_ifs with below above above
  all_goals
    rw [lt_int, decide_eq_true_eq] at below above
    congr 1
    omega

end Number

end ScriptSurvey
