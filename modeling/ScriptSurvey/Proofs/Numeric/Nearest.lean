import Mathlib.Tactic.FieldSimp
import ScriptSurvey.Proofs.Numeric.Range

/-!
# The nearest double

Rounding looks at a quotient as a rational number: its two parts may be scaled
(`Double.nearest_congr`). A quotient within half a step of a double is rounded to that double
(`Double.nearest_eq_ofParts`), and one that is not rounded to zero is not much smaller than the
least double (`Double.le_of_nearest_pos`).
-/

namespace ScriptSurvey

/-- Both parts of a quotient may be scaled by a power in place of the quotient. -/
theorem scaled_div_scaled (num den : ℚ) {b : ℚ} (hb : b ≠ 0) (e : Int) :
    num * b ^ (-e).toNat / (den * b ^ e.toNat) = num / den / b ^ e := by
  rw [zpow_eq_pow_div_pow]
  field_simp

section RoundDiv

variable {num den num' den' k : Nat}

/-- What is rounded is the quotient: its parts may be scaled. -/
theorem roundDiv_congr (hd : 0 < den) (hd' : 0 < den') (h : num * den' = num' * den) :
    roundDiv num den = roundDiv num' den' := by
  have hq : num / den = num' / den' := by
    rw [← Nat.mul_div_mul_right num den hd', ← Nat.mul_div_mul_right num' den' hd, h,
      Nat.mul_comm den']
  have hn := Nat.div_add_mod num den
  have hn' := Nat.div_add_mod num' den'
  have hr : num % den * den' = num' % den' * den := by
    rw [hq] at hn
    have e₁ : (den * (num' / den') + num % den) * den' =
        (den' * (num' / den') + num' % den') * den := by
      rw [hn, hn', h]
    have e₂ : den * (num' / den') * den' = den' * (num' / den') * den := by ring
    rw [Nat.add_mul, Nat.add_mul, e₂] at e₁
    exact Nat.add_left_cancel e₁
  have below : 2 * (num % den) < den ↔ 2 * (num' % den') < den' := by
    rw [← Nat.mul_lt_mul_right hd', ← Nat.mul_lt_mul_right (a := den) (b := 2 * (num' % den')) hd,
      Nat.mul_assoc, hr, Nat.mul_assoc, Nat.mul_comm den' den]
  have above : den < 2 * (num % den) ↔ den' < 2 * (num' % den') := by
    rw [← Nat.mul_lt_mul_right hd', ← Nat.mul_lt_mul_right (a := den) (b := den') hd,
      Nat.mul_assoc 2, hr, Nat.mul_assoc 2, Nat.mul_comm den' den]
  unfold roundDiv
  simp only [hq, below, above]

theorem roundDiv_eq_of_lt (h : 2 * (k * den) < 2 * num + den) (h' : 2 * num < 2 * (k * den) + den) :
    roundDiv num den = k := by
  have hn := Nat.div_add_mod num den
  have hd : 0 < den := by
    rcases Nat.eq_zero_or_pos den with rfl | hd
    · omega
    · exact hd
  have hr := Nat.mod_lt num hd
  unfold roundDiv
  dsimp only
  generalize num / den = q at hn ⊢
  generalize num % den = r at hn hr ⊢
  rw [Nat.mul_comm k] at h h'
  rcases Nat.lt_trichotomy q k with hq | rfl | hq
  · have := Nat.mul_le_mul_left den (show q + 1 ≤ k by omega)
    rw [Nat.mul_add] at this
    have hk : k = q + 1 := by
      by_contra hne
      have := Nat.mul_le_mul_left den (show q + 2 ≤ k by omega)
      rw [Nat.mul_add] at this
      omega
    subst hk
    rw [Nat.mul_add] at h h'
    split_ifs <;> omega
  · split_ifs <;> omega
  · have := Nat.mul_le_mul_left den (show k + 1 ≤ q by omega)
    rw [Nat.mul_add] at this
    omega

theorem roundDiv_eq_or (num den : Nat) :
    roundDiv num den = num / den ∨ roundDiv num den = num / den + 1 := by
  unfold roundDiv
  dsimp only
  split_ifs
  · exact .inl rfl
  · exact .inr rfl
  · exact .inl rfl
  · exact .inr rfl

end RoundDiv

namespace Double

section Nearest

variable {num den num' den' m : Nat} {e : Int}

theorem scaleOf_eq (hn : 0 < num) (hd : 0 < den) (upper : (num / den : ℚ) < 2 ^ (e + 53))
    (least : -1074 ≤ e) (lower : e = -1074 ∨ (2 : ℚ) ^ (e + 52) ≤ num / den) :
    scaleOf num den = e := by
  obtain ⟨upper', least', lower'⟩ := scaleOf_spec hn hd
  have below : ∀ {a b : Int}, (2 : ℚ) ^ (a + 52) < 2 ^ (b + 53) → a ≤ b := by
    intro a b h
    have := (zpow_lt_zpow_iff_right₀ (one_lt_two (α := ℚ))).mp h
    omega
  rcases lower with rfl | lower
  · rcases lower' with h | lower'
    · exact h
    · exact le_antisymm (below (lower'.trans_lt upper)) least'
  · rcases lower' with h | lower'
    · exact le_antisymm (h ▸ least) (below (lower.trans_lt upper'))
    · exact le_antisymm (below (lower'.trans_lt upper)) (below (lower.trans_lt upper'))

/-- What is rounded is the quotient: its parts may be scaled. -/
theorem nearest_congr (negative : Bool) (hd : 0 < den) (hd' : 0 < den')
    (h : num * den' = num' * den) : nearest negative num den = nearest negative num' den' := by
  rcases Nat.eq_zero_or_pos num with rfl | hn
  · have h0 : num' = 0 := by
      rw [Nat.zero_mul] at h
      exact (Nat.mul_eq_zero.mp h.symm).resolve_right hd.ne'
    subst h0
    rfl
  · have hn' : 0 < num' := by
      refine Nat.pos_of_ne_zero fun h0 => ?_
      rw [h0, Nat.zero_mul] at h
      exact absurd h (Nat.mul_pos hn hd').ne'
    have hv : (num / den : ℚ) = num' / den' := by
      rw [div_eq_div_iff (by exact_mod_cast hd.ne') (by exact_mod_cast hd'.ne')]
      exact_mod_cast h
    have hs : scaleOf num den = scaleOf num' den' := by
      obtain ⟨upper, least, lower⟩ := scaleOf_spec hn' hd'
      exact scaleOf_eq hn hd (hv ▸ upper) least (hv ▸ lower)
    have hr : roundDiv (num * Nat.pow 2 (-scaleOf num' den').toNat)
          (den * Nat.pow 2 (scaleOf num' den').toNat) =
        roundDiv (num' * Nat.pow 2 (-scaleOf num' den').toNat)
          (den' * Nat.pow 2 (scaleOf num' den').toNat) := by
      refine roundDiv_congr (Nat.mul_pos hd (Nat.two_pow_pos _))
        (Nat.mul_pos hd' (Nat.two_pow_pos _)) ?_
      rw [Nat.mul_mul_mul_comm, h, Nat.mul_mul_mul_comm]
    unfold nearest
    simp only [hn.ne', hn'.ne', if_false, hs, hr]

/-- Within half a step of a multiple a quotient is rounded to it. -/
theorem roundDiv_eq_of_near (hd : 0 < den) (lower : ((m : ℚ) - 1 / 2) * 2 ^ e < num / den)
    (upper : (num / den : ℚ) < (m + 1 / 2) * 2 ^ e) :
    roundDiv (num * 2 ^ (-e).toNat) (den * 2 ^ e.toNat) = m := by
  have hd' : (0 : ℚ) < den := by exact_mod_cast hd
  have hp : (0 : ℚ) < 2 ^ e := by positivity
  have hden : (0 : ℚ) < den * 2 ^ e.toNat := by positivity
  have scaled := scaled_div_scaled (num : ℚ) den two_ne_zero e
  have lo : (m : ℚ) - 1 / 2 < num * 2 ^ (-e).toNat / (den * 2 ^ e.toNat) := by
    rw [scaled, lt_div_iff₀ hp]
    exact lower
  have hi : (num * 2 ^ (-e).toNat / (den * 2 ^ e.toNat) : ℚ) < m + 1 / 2 := by
    rw [scaled, div_lt_iff₀ hp]
    exact upper
  rw [lt_div_iff₀ hden] at lo
  rw [div_lt_iff₀ hden] at hi
  apply roundDiv_eq_of_lt
  · have : (2 * (m * (den * 2 ^ e.toNat)) : ℚ) <
        2 * (num * 2 ^ (-e).toNat) + den * 2 ^ e.toNat := by
      linarith
    exact_mod_cast this
  · have : (2 * (num * 2 ^ (-e).toNat) : ℚ) <
        2 * (m * (den * 2 ^ e.toNat)) + den * 2 ^ e.toNat := by
      linarith
    exact_mod_cast this

/-- A quotient within half a step of a double is rounded to it. Below the least mantissa the steps
are half as wide, so there the quotient must not be less than the double. -/
theorem nearest_eq_ofParts (negative : Bool) (hd : 0 < den) (hc : Canonical m e) (hm : 0 < m)
    (lower : ((m : ℚ) - 1 / 2) * 2 ^ e < num / den) (upper : (num / den : ℚ) < (m + 1 / 2) * 2 ^ e)
    (least : m = 2 ^ 52 → e ≠ -1074 → (m : ℚ) * 2 ^ e ≤ num / den) :
    nearest negative num den = ofParts negative m e := by
  obtain ⟨hm53, he, he', hm52⟩ := hc
  have hp : (0 : ℚ) < 2 ^ e := by positivity
  have hm1 : (1 : ℚ) ≤ m := by exact_mod_cast hm
  have hn : 0 < num := by
    refine Nat.pos_of_ne_zero fun h0 => ?_
    rw [h0, Nat.cast_zero, zero_div] at lower
    nlinarith
  have hs : scaleOf num den = e := by
    refine scaleOf_eq hn hd ?_ he ?_
    · have : (m : ℚ) + 1 ≤ 2 ^ (53 : Int) := by exact_mod_cast hm53
      rw [zpow_add₀ two_ne_zero, mul_comm]
      exact upper.trans_le (mul_le_mul_of_nonneg_right (by linarith) hp.le)
    · refine or_iff_not_imp_left.mpr fun hne => ?_
      have hm52 := hm52.resolve_right hne
      rw [zpow_add₀ two_ne_zero, mul_comm]
      rcases Nat.lt_or_eq_of_le hm52 with hlt | heq
      · have : (2 : ℚ) ^ (52 : Int) + 1 ≤ m := by exact_mod_cast hlt
        exact le_trans (mul_le_mul_of_nonneg_right (by linarith) hp.le) lower.le
      · have := least heq.symm hne
        rw [← heq] at this
        exact_mod_cast this
  unfold nearest
  simp only [hn.ne', if_false, hs, Nat.pow_eq, roundDiv_eq_of_near hd lower upper]
  rw [if_neg (show m ≠ 2 ^ 53 from hm53.ne)]

end Nearest

theorem nearest_true (num den : Nat) : nearest true num den = (nearest false num den).neg := by
  unfold nearest ofParts
  dsimp only
  split_ifs <;> rfl

theorem ofParts_eq {negative : Bool} {m : Nat} {e : Int} (hc : Canonical m e) :
    ofParts negative m e = .finite negative m e hc :=
  dif_pos hc

theorem nearest_eq_finite {num den m : Nat} {e : Int} (hc : Canonical m e)
    (h : nearest false num den = ofParts false m e) (negative : Bool) :
    nearest negative num den = .finite negative m e hc := by
  rw [ofParts_eq hc] at h
  cases negative with
  | false => exact h
  | true => rw [nearest_true, h, neg, Bool.not_false]

/-- A quotient that is not rounded to zero is at least a quarter of the least double. -/
theorem le_of_nearest_pos {num den m : Nat} {e : Int} (hd : 0 < den) (hc : Canonical m e)
    (hm : 0 < m) (h : nearest false num den = ofParts false m e) :
    (2 : ℚ) ^ (-1076 : Int) ≤ num / den := by
  rw [ofParts_eq hc] at h
  by_contra small
  rw [not_le] at small
  have zero : nearest false num den = .zero false := by
    rcases Nat.eq_zero_or_pos num with rfl | hn
    · rfl
    have hs : scaleOf num den = -1074 :=
      scaleOf_eq hn hd (small.trans_le (zpow_le_zpow_right₀ one_le_two (by norm_num))) le_rfl
        (.inl rfl)
    have hr : roundDiv (num * 2 ^ (1074 : Int).toNat) (den * 2 ^ (-1074 : Int).toNat) = 0 := by
      refine roundDiv_eq_of_lt (by rw [Nat.zero_mul]; positivity) ?_
      have hd' : (0 : ℚ) < den := by exact_mod_cast hd
      rw [div_lt_iff₀ hd', zpow_neg, inv_mul_eq_div, lt_div_iff₀ (by positivity),
        show (1076 : Int) = (1074 : Nat) + 2 from rfl, zpow_add₀ two_ne_zero, zpow_natCast,
        show (2 : ℚ) ^ 1074 = (2 ^ 1074 : Nat) by rw [Nat.cast_pow, Nat.cast_ofNat]] at small
      rw [show (1074 : Int).toNat = 1074 from rfl, show (-1074 : Int).toNat = 0 from rfl, pow_zero]
      generalize 2 ^ 1074 = scale at small ⊢
      have small : num * (scale * 2 ^ 2) < den := by exact_mod_cast small
      rw [← Nat.mul_assoc] at small
      omega
    unfold nearest
    simp only [hn.ne', if_false, hs, Nat.pow_eq, neg_neg, hr]
    rfl
  rw [zero] at h
  injection h with _ h0
  omega

end Double

end ScriptSurvey
