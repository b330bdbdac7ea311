import Mathlib.Data.Nat.Cast.Order.Field
import ScriptSurvey.Numeric.Decimal
import ScriptSurvey.Proofs.Numeric.Nearest

/-!
# Decimal digits that read back

`Decimal.shortest` looks for digits on ever finer grids of decimals, up to 17 digits. The finest
grid is finer than the steps between doubles, so one of the two neighbours of a double on it is
nearer to that double than to any other (`reading_low_or_high`), and the search succeeds. Whatever
it finds reads back as the double (`reading_shortest`), also through the shortcuts that are taken
for exponents far out of range (`ofScientific_eq_finite`).
-/

namespace ScriptSurvey

namespace Decimal

/-- The double nearest to `digits · 10 ^ power`. -/
def reading (digits : Nat) (power : Int) : Double :=
  Double.nearest false (digits * Nat.pow 10 power.toNat) (Nat.pow 10 (-power).toNat)

theorem cast_value (digits : Nat) (power : Int) :
    ((digits * 10 ^ power.toNat : Nat) : ℚ) / (10 ^ (-power).toNat : Nat) =
      digits * 10 ^ power := by
  rw [zpow_eq_pow_div_pow]
  push_cast
  ring

theorem reading_congr {d d' : Nat} {p p' : Int} (h : (d : ℚ) * 10 ^ p = d' * 10 ^ p') :
    reading d p = reading d' p' := by
  refine Double.nearest_congr false (Nat.pow_pos (by norm_num)) (Nat.pow_pos (by norm_num)) ?_
  rw [← cast_value, ← cast_value, div_eq_div_iff (by positivity) (by positivity)] at h
  exact_mod_cast h

theorem reading_zero (p : Int) : reading 0 p = Double.zero false := by
  rw [reading, Nat.zero_mul]
  rfl

/-! ## Neighbours -/

section Neighbours

variable {m : Nat} {e : Int} {num den digits : Nat} {power : Int} {target : Double}

theorem reading_of_neighbour? (h : neighbour? target num den power = some digits) :
    reading digits power = target := by
  unfold neighbour? at h
  dsimp only at h
  split at h
  · rename_i low high
    obtain rfl := Option.some.inj h
    obtain hr | hr :=
      roundDiv_eq_or (num * Nat.pow 10 (-power).toNat) (den * Nat.pow 10 power.toNat)
    · rw [hr]
      exact of_decide_eq_true low
    · rw [hr]
      exact of_decide_eq_true high
  · rename_i low _
    obtain rfl := Option.some.inj h
    exact of_decide_eq_true low
  · rename_i _ high
    obtain rfl := Option.some.inj h
    exact of_decide_eq_true high
  · cases h

theorem neighbour?_isSome_of_reading
    (h : reading (num * 10 ^ (-power).toNat / (den * 10 ^ power.toNat)) power = target ∨
      reading (num * 10 ^ (-power).toNat / (den * 10 ^ power.toNat) + 1) power = target) :
    (neighbour? target num den power).isSome := by
  unfold neighbour?
  dsimp only
  split
  · rfl
  · rfl
  · rfl
  · rename_i low high
    rcases h with h | h
    · exact absurd h (of_decide_eq_false low)
    · exact absurd h (of_decide_eq_false high)

/-- One of the neighbours of a double reads back as it, if they are no further apart than 17 digits
allow. -/
theorem reading_low_or_high (hc : Canonical m e) (hm : 0 < m) {s : ℚ} (hs : 0 < s) {low : Nat}
    (hp : s = 10 ^ power) (step : s * 10 ^ 16 ≤ m * 2 ^ e) (below : low * s ≤ m * 2 ^ e)
    (above : (m : ℚ) * 2 ^ e < (low + 1) * s) :
    reading low power = .ofParts false m e ∨ reading (low + 1) power = .ofParts false m e := by
  have hu : (0 : ℚ) < 2 ^ e := by positivity
  have hm53 : (m : ℚ) < 2 ^ 53 := by exact_mod_cast hc.1
  have reads : ∀ k : Nat, ((m : ℚ) - 1 / 2) * 2 ^ e < k * s → k * s < (m + 1 / 2) * 2 ^ e →
      (m = 2 ^ 52 → e ≠ -1074 → (m : ℚ) * 2 ^ e ≤ k * s) →
      reading k power = .ofParts false m e := by
    intro k h₁ h₂ h₃
    rw [hp, ← cast_value] at h₁ h₂ h₃
    exact Double.nearest_eq_ofParts false (Nat.pow_pos (by norm_num)) hc hm h₁ h₂ h₃
  rw [add_mul, one_mul] at above
  have wide : s < 2 ^ e := by nlinarith
  by_cases near : low * s + s < (m + 1 / 2) * 2 ^ e
  · right
    have cast : ((low + 1 : Nat) : ℚ) * s = low * s + s := by push_cast; ring
    refine reads (low + 1) ?_ ?_ fun _ _ => ?_
    · rw [cast]
      linarith
    · rw [cast]
      exact near
    · rw [cast]
      exact above.le
  · left
    refine reads low (by nlinarith) (by linarith) fun h52 _ => ?_
    -- at the least mantissa the step is less than half a unit, so the upper neighbour is near
    have least : (m : ℚ) = 2 ^ 52 := by exact_mod_cast h52
    rw [least] at step near below
    linarith

end Neighbours


/-! ## The first digit -/

theorem quotient_div (m : Nat) (e : Int) :
    ((Double.quotient m e).1 : ℚ) / (Double.quotient m e).2 = m * 2 ^ e := by
  rw [zpow_eq_pow_div_pow, Double.quotient]
  push_cast [Nat.pow_eq]
  ring

theorem reaches_iff (num : Nat) {den : Nat} (hd : 0 < den) (power : Int) :
    reaches num den power = true ↔ (10 : ℚ) ^ power ≤ num / den := by
  have hd' : (0 : ℚ) < den := by exact_mod_cast hd
  have hp : (0 : ℚ) < 10 ^ (-power).toNat := by positivity
  rw [reaches, decide_eq_true_iff, zpow_eq_pow_div_pow, div_le_div_iff₀ hp hd', Nat.pow_eq,
    Nat.pow_eq, Nat.mul_comm den]
  exact_mod_cast Iff.rfl

/-- The estimate of the first digit's power from the binary length is not too great by more than
one, and not too small by more than two, in the range of doubles. -/
theorem decade_estimate : ∀ k < 1100, 2 * 10 ^ (k * 30103 / 100000) ≤ 100 * 2 ^ k ∧
    2 ^ (k + 1) ≤ 10 ^ (k * 30103 / 100000 + 2) := by
  decide +kernel

theorem zpow_guess_le {top : Int} (h : -1100 < top) (h' : top < 1100) :
    (10 : ℚ) ^ ((top * 30103).fdiv 100000 - 2) ≤ 2 ^ (top - 1) := by
  rw [Int.fdiv_eq_ediv_of_nonneg _ (by norm_num)]
  rcases Int.le_total 0 top with h0 | h0
  · obtain ⟨k, rfl⟩ := Int.eq_ofNat_of_zero_le h0
    have hk := (decade_estimate k (by omega)).1
    rw [show ((k : Int) * 30103 / 100000) = ((k * 30103 / 100000 : Nat) : Int) by push_cast; rfl,
      zpow_sub₀ (by norm_num), zpow_sub₀ two_ne_zero, zpow_natCast, zpow_natCast,
      div_le_div_iff₀ (by norm_num) (by norm_num)]
    have : ((2 * 10 ^ (k * 30103 / 100000) : Nat) : ℚ) ≤ (100 * 2 ^ k : Nat) := by exact_mod_cast hk
    push_cast at this
    norm_num
    linarith
  · obtain ⟨k, hk⟩ := Int.eq_ofNat_of_zero_le (Int.neg_nonneg.mpr h0)
    obtain rfl : top = -k := by omega
    have hk := (decade_estimate k (by omega)).2
    calc (10 : ℚ) ^ (-(k : Int) * 30103 / 100000 - 2)
        ≤ 10 ^ (-((k * 30103 / 100000 + 2 : Nat) : Int)) :=
          zpow_le_zpow_right₀ (by norm_num) (by omega)
      _ ≤ 2 ^ (-((k + 1 : Nat) : Int)) := by
          rw [zpow_neg, zpow_neg, zpow_natCast, zpow_natCast]
          refine inv_anti₀ (by positivity) ?_
          exact_mod_cast hk
      _ = 2 ^ (-(k : Int) - 1) := by
          congr 1
          omega

theorem zpow_decade_le {m : Nat} {e : Int} (hc : Canonical m e) (hm : 0 < m) :
    (10 : ℚ) ^ decade (Double.quotient m e).1 (Double.quotient m e).2 ≤ m * 2 ^ e := by
  have hv := quotient_div m e
  have hn : 0 < (Double.quotient m e).1 := Nat.mul_pos hm (Nat.two_pow_pos _)
  have hd : 0 < (Double.quotient m e).2 := Nat.two_pow_pos _
  obtain ⟨lower, upper⟩ := Double.zpow_log2_sub_lt hn hd
  rw [← hv]
  unfold decade
  generalize (Double.quotient m e).1 = num at *
  generalize (Double.quotient m e).2 = den at *
  dsimp only
  cases found : [_, _, _].find? (reaches num den) with
  | some power => exact (reaches_iff num hd power).mp (List.find?_some found)
  | none =>
    rw [Option.getD_none]
    refine (zpow_guess_le ?_ ?_).trans lower.le
    · -- a double is not below `2 ^ -1074`
      rw [hv] at upper
      have least : (2 : ℚ) ^ (-1074 : Int) ≤ m * 2 ^ e := by
        have h1 : (1 : ℚ) ≤ m := by exact_mod_cast hm
        have h2 : (2 : ℚ) ^ (-1074 : Int) ≤ 2 ^ e := zpow_le_zpow_right₀ one_le_two hc.2.1
        have h3 : (0 : ℚ) < 2 ^ e := by positivity
        nlinarith
      have := (zpow_lt_zpow_iff_right₀ (one_lt_two (α := ℚ))).mp (least.trans_lt upper)
      omega
    · rw [hv] at lower
      have greatest : (m : ℚ) * 2 ^ e < 2 ^ (1024 : Int) := by
        have h1 : (m : ℚ) < 2 ^ (53 : Int) := by exact_mod_cast hc.1
        have h2 : (2 : ℚ) ^ e ≤ 2 ^ (971 : Int) := zpow_le_zpow_right₀ one_le_two hc.2.2.1
        have h3 : (0 : ℚ) < 2 ^ e := by positivity
        calc (m : ℚ) * 2 ^ e < 2 ^ (53 : Int) * 2 ^ e := mul_lt_mul_of_pos_right h1 h3
          _ ≤ 2 ^ (53 : Int) * 2 ^ (971 : Int) := mul_le_mul_of_nonneg_left h2 (by positivity)
          _ = 2 ^ (1024 : Int) := by rw [← zpow_add₀ two_ne_zero]; norm_num
      have := (zpow_lt_zpow_iff_right₀ (one_lt_two (α := ℚ))).mp (lower.trans greatest)
      omega

/-! ## The shortest digits -/

theorem trimZeros_spec (fuel digits : Nat) :
    (trimZeros fuel digits).1 * 10 ^ (trimZeros fuel digits).2 = digits := by
  induction fuel generalizing digits with
  | zero => simp [trimZeros]
  | succ fuel ih =>
    rw [trimZeros]
    split_ifs with h
    · dsimp only
      rw [Nat.pow_succ, ← Nat.mul_assoc, ih]
      omega
    · simp

/-- A double reads back from its neighbour on a grid of 17 digits. -/
theorem neighbour?_isSome {m : Nat} {e : Int} (hc : Canonical m e) (hm : 0 < m) (power : Int)
    (step : (10 : ℚ) ^ power * 10 ^ 16 ≤ m * 2 ^ e) :
    (neighbour? (.ofParts false m e) (Double.quotient m e).1 (Double.quotient m e).2
      power).isSome := by
  have hv := quotient_div m e
  have hd : 0 < (Double.quotient m e).2 := Nat.two_pow_pos _
  generalize (Double.quotient m e).1 = num at *
  generalize (Double.quotient m e).2 = den at *
  have hs : (0 : ℚ) < 10 ^ power := by positivity
  have scaled := scaled_div_scaled (num : ℚ) den (show (10 : ℚ) ≠ 0 by norm_num) power
  rw [hv] at scaled
  have hden : 0 < den * 10 ^ power.toNat := by positivity
  apply neighbour?_isSome_of_reading
  generalize hN : num * 10 ^ (-power).toNat = N
  generalize hD : den * 10 ^ power.toNat = D at hden ⊢
  have hden' : (0 : ℚ) < D := by exact_mod_cast hden
  have hN' : (num * 10 ^ (-power).toNat : ℚ) = N := by exact_mod_cast hN
  have hD' : (den * 10 ^ power.toNat : ℚ) = D := by exact_mod_cast hD
  rw [hN', hD'] at scaled
  refine reading_low_or_high hc hm hs rfl step ?_ ?_
  · have : ((N / D : Nat) : ℚ) ≤ N / D := Nat.cast_div_le
    rwa [scaled, le_div_iff₀ hs] at this
  · have : (N / D : ℚ) < (N / D : Nat) + 1 := by
      rw [div_lt_iff₀ hden', mul_comm]
      exact_mod_cast Nat.lt_mul_div_succ N hden
    rwa [scaled, div_lt_iff₀ hs] at this

/-- **Reading back.** The digits that are written for a double are read as that double. -/
theorem reading_shortest {m : Nat} {e : Int} (hc : Canonical m e) (hm : 0 < m) :
    reading (shortest m e).1 (shortest m e).2 = .ofParts false m e := by
  unfold shortest
  dsimp only
  have found := neighbour?_isSome hc hm
    (decade (Double.quotient m e).1 (Double.quotient m e).2 - 16) (by
      rw [zpow_sub₀ (by norm_num)]
      norm_num
      exact zpow_decade_le hc hm)
  generalize decade (Double.quotient m e).1 (Double.quotient m e).2 = top at found ⊢
  generalize (Double.quotient m e).1 = num at found ⊢
  generalize (Double.quotient m e).2 = den at found ⊢
  cases hf : (List.range 17).findSome? _ with
  | none =>
    -- the last attempt does not fail
    rw [List.findSome?_eq_none_iff] at hf
    have last := hf 16 (by simp)
    rw [Option.map_eq_none_iff] at last
    rw [Nat.cast_ofNat] at last
    rw [last] at found
    cases found
  | some result =>
    obtain ⟨count, -, hcount⟩ := List.exists_of_findSome?_eq_some hf
    obtain ⟨digits, hdigits, rfl⟩ := Option.map_eq_some_iff.mp hcount
    rw [Option.getD_some, ← reading_of_neighbour? hdigits]
    dsimp only
    refine reading_congr ?_
    have trimmed := trimZeros_spec 20 digits
    rw [zpow_add₀ (by norm_num), zpow_natCast, mul_left_comm, mul_comm]
    have : ((trimZeros 20 digits).1 : ℚ) * 10 ^ (trimZeros 20 digits).2 = digits := by
      exact_mod_cast trimmed
    rw [this]

theorem two_zpow_le_ten_zpow {a b : Nat} (h : 2 ^ a ≤ 10 ^ b) :
    (2 : ℚ) ^ (a : Int) ≤ 10 ^ (b : Int) := by
  rw [zpow_natCast, zpow_natCast]
  exact_mod_cast h

theorem lt_of_ten_zpow_lt {a b : Int} (h : (10 : ℚ) ^ a < 10 ^ b) : a < b :=
  (zpow_lt_zpow_iff_right₀ (by norm_num)).mp h

/-- A value that is not too small has its first digit not too far to the right. -/
theorem lt_log2_add_of_le {digits : Nat} {power : Int}
    (h : (2 : ℚ) ^ (-(1076 : Nat) : Int) ≤ digits * 10 ^ power) :
    -400 < (digits.log2 : Int) + 1 + power := by
  refine lt_of_ten_zpow_lt ?_
  calc (10 : ℚ) ^ (-(400 : Nat) : Int) ≤ 2 ^ (-(1076 : Nat) : Int) := by
        rw [zpow_neg, zpow_neg]
        exact inv_anti₀ (by positivity) (two_zpow_le_ten_zpow (by decide +kernel))
    _ ≤ digits * 10 ^ power := h
    _ < 10 ^ (digits.log2 + 1) * 10 ^ power := by
        refine mul_lt_mul_of_pos_right ?_ (by positivity)
        exact_mod_cast Nat.lt_log2_self.trans_le (Nat.pow_le_pow_left (by norm_num) _)
    _ = 10 ^ ((digits.log2 : Int) + 1 + power) := by
        rw [← zpow_natCast, ← zpow_add₀ (by norm_num), Nat.cast_add, Nat.cast_one]

/-- A value that is not too great has its first digit not too far to the left. -/
theorem log2_add_lt_of_lt {digits : Nat} {power : Int} (hne : digits ≠ 0)
    (h : (digits : ℚ) * 10 ^ power < ((2 ^ 54 - 1 : Nat) : ℚ) * 2 ^ (970 : Int)) :
    ((digits.log2 / 4 : Nat) : Int) + power < 320 := by
  have reached : 10 ^ (digits.log2 / 4) ≤ digits := by
    calc 10 ^ (digits.log2 / 4) ≤ (2 ^ 4) ^ (digits.log2 / 4) :=
          Nat.pow_le_pow_left (by norm_num) _
      _ = 2 ^ (4 * (digits.log2 / 4)) := (pow_mul 2 4 _).symm
      _ ≤ 2 ^ digits.log2 := Nat.pow_le_pow_right (by norm_num) (by omega)
      _ ≤ digits := Nat.log2_self_le hne
  refine lt_of_ten_zpow_lt ?_
  calc (10 : ℚ) ^ ((digits.log2 / 4 : Nat) + power)
      = 10 ^ (digits.log2 / 4) * 10 ^ power := by
        rw [zpow_add₀ (by norm_num), zpow_natCast]
    _ ≤ digits * 10 ^ power :=
        mul_le_mul_of_nonneg_right (by exact_mod_cast reached) (by positivity)
    _ < ((2 ^ 54 - 1 : Nat) : ℚ) * 2 ^ (970 : Int) := h
    _ ≤ 2 ^ (54 : Int) * 2 ^ (970 : Int) :=
        mul_le_mul_of_nonneg_right (by norm_num) (by positivity)
    _ = 2 ^ ((1024 : Nat) : Int) := by rw [← zpow_add₀ two_ne_zero]; norm_num
    _ ≤ 10 ^ ((320 : Nat) : Int) := two_zpow_le_ten_zpow (by decide +kernel)

/-- **Reading a numeral** whose value is that of the digits written for a double. -/
theorem ofScientific_eq_finite {m digits : Nat} {e power : Int} (hc : Canonical m e) (hm : 0 < m)
    (h : reading digits power = .ofParts false m e) (negative : Bool) :
    Double.ofScientific negative digits power = .finite negative m e hc := by
  have hden : 0 < Nat.pow 10 (-power).toNat := Nat.pow_pos (by norm_num)
  have hne : digits ≠ 0 := by
    rintro rfl
    rw [reading_zero, Double.ofParts_eq hc] at h
    injection h with _ h0
    omega
  have upper := (Double.nearest_isFinite_iff false (digits * Nat.pow 10 power.toNat) hden).mp (by
    rw [← reading, h]
    exact Double.ofParts_isFinite_iff.mpr hc)
  have lower := Double.le_of_nearest_pos hden hc hm h
  rw [← not_le, Double.limit_le_iff _ hden, not_le] at upper
  rw [Nat.pow_eq, Nat.pow_eq, cast_value] at upper lower
  -- The digits are neither so many nor so few that the numeral is given up before it is rounded.
  unfold Double.ofScientific
  dsimp only
  rw [if_neg hne, if_neg, if_neg, Double.nearest_eq_finite hc h]
  · have := lt_log2_add_of_le lower
    omega
  · have := log2_add_lt_of_lt hne upper
    omega

end Decimal

end ScriptSurvey
