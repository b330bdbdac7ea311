import ScriptSurvey.Proofs.Numeric.Halves
import ScriptSurvey.Survey.Score

/-!
# The quality of a file

A score is an integer that is held between 0 and 100 and then rounded as a double. The rounding
never fails and changes nothing (`Score.roundHalfUp_percent`), so that the quality of a file follows
a formula over the integers, of whatever size they are, and inherits its bounds and its direction in
each finding (`Score.quality_law`).
-/

namespace ScriptSurvey

/-- A record without error that holds these findings. -/
structure Record.Finds (r : Record) (metrics : Metrics) (complexity : Complexity)
    (issues : List Issue) : Prop where
  error : r.error = none
  metrics : r.metrics = some metrics
  complexity : r.complexity = some complexity
  issues : r.issues = some issues

namespace Score

theorem roundHalfUp_percent (value : Int) :
    ((Number.int value).clamp (.int 0) (.int 100)).roundHalfUp = .ok (max 0 (min 100 value)) := by
  rw [Number.clamp_int]
  exact Number.roundHalfUp_int (by omega)

theorem percent_eq (value : Int) : percent value = max 0 (min 100 value) := by
  rw [percent, roundHalfUp_percent]
  rfl

theorem percent_bounds (value : Int) : 0 ≤ percent value ∧ percent value ≤ 100 := by
  rw [percent_eq]
  omega

theorem percent_mono {value value' : Int} (h : value ≤ value') :
    percent value ≤ percent value' := by
  rw [percent_eq, percent_eq]
  omega

theorem present_iff {α : Type} {xs : Option (List α)} : present xs ↔ xs.getD [] ≠ [] := by
  cases xs <;> simp [present]

/-- What costs more or earns less leaves fewer points. -/
theorem points_le {cyclomatic maxDepth issues lineCount : Int} {bonus : Bool}
    {cyclomatic' maxDepth' issues' lineCount' : Int} {bonus' : Bool}
    (hc : cyclomatic ≤ cyclomatic') (hd : maxDepth ≤ maxDepth') (hi : issues ≤ issues')
    (hl : lineCount ≤ lineCount') (hb : bonus' → bonus) :
    points cyclomatic' maxDepth' issues' lineCount' bonus' ≤
      points cyclomatic maxDepth issues lineCount bonus := by
  have thresholds (bound : Int) :
      (if lineCount > bound then (10 : Int) else 0) ≤ if lineCount' > bound then 10 else 0 := by
    split_ifs <;> omega
  have earned : (if bonus' then (5 : Int) else 0) ≤ if bonus then 5 else 0 := by
    by_cases h : bonus'
    · rw [if_pos h, if_pos (hb h)]
    · rw [if_neg h]
      split_ifs <;> omega
  have short := thresholds 300
  have long := thresholds 500
  unfold points
  omega

variable {r : Record} {metrics : Metrics} {complexity : Complexity} {issues : List Issue}

theorem quality_eq (h : r.Finds metrics complexity issues) :
    quality r = .ok (percent (points metrics.cyclomatic complexity.maxDepth issues.length
      r.lineCount (present r.hooks && present r.components))) := by
  simp only [quality, h.error, h.metrics, h.complexity, h.issues]
  rfl

/-- **The quality of a file.** A record without error that holds its findings has a quality between
0 and 100, given by a formula over its findings. Where no finding costs less and none earns more,
the quality is not higher: it does not rise with the complexity, the depth, the number of issues or
the length, and does not fall when there come to be hooks or components. -/
theorem quality_law (h : r.Finds metrics complexity issues) :
    (∃ q, quality r = .ok q ∧ 0 ≤ q ∧ q ≤ 100 ∧
      q = max 0 (min 100 (100 - min 30 (2 * metrics.cyclomatic) - min 15 complexity.maxDepth
        - 10 * issues.length - (if 300 < r.lineCount then 10 else 0)
        - (if 500 < r.lineCount then 10 else 0)
        + (if r.hooks.getD [] ≠ [] ∧ r.components.getD [] ≠ [] then 5 else 0)))) ∧
    ∀ (r' : Record) metrics' complexity' issues', r'.Finds metrics' complexity' issues' →
      metrics.cyclomatic ≤ metrics'.cyclomatic → complexity.maxDepth ≤ complexity'.maxDepth →
      issues.length ≤ issues'.length → r.lineCount ≤ r'.lineCount →
      (r'.hooks.getD [] ≠ [] → r.hooks.getD [] ≠ []) →
      (r'.components.getD [] ≠ [] → r.components.getD [] ≠ []) →
      ∃ q q', quality r = .ok q ∧ quality r' = .ok q' ∧ q' ≤ q := by
  constructor
  · obtain ⟨low, high⟩ := percent_bounds (points metrics.cyclomatic complexity.maxDepth
      issues.length r.lineCount (present r.hooks && present r.components))
    refine ⟨_, quality_eq h, low, high, ?_⟩
    rw [percent_eq, points]
    simp only [Bool.and_eq_true, present_iff, Int.mul_comm, gt_iff_lt]
  · intro r' metrics' complexity' issues' h' hc hd hi hl hooks components
    refine ⟨_, _, quality_eq h, quality_eq h', percent_mono (points_le hc hd ?_ hl ?_)⟩
    · exact_mod_cast hi
    · simp only [Bool.and_eq_true, present_iff]
      exact And.imp hooks components

/-- A file of 400 lines with one issue, deep enough for the full penalty, with a hook and a
component. -/
def reviewed : Record where
  filename := "x.jsx"
  lineCount := 400
  hooks := some ["useState"]
  components := some ["App"]
  issues := some [⟨"security", "m", "high"⟩]
  complexity := some { maxDepth := 20, cyclomatic := 3 }
  metrics := some { cyclomatic := 3 }

theorem quality_law_reviewed :
    reviewed.Finds { cyclomatic := 3 } { maxDepth := 20, cyclomatic := 3 }
      [⟨"security", "m", "high"⟩] ∧
    quality reviewed = .ok 64 ∧
    ∃ q', quality { reviewed with lineCount := 600 } = .ok q' ∧ q' ≤ 64 := by
  have finds : reviewed.Finds { cyclomatic := 3 } { maxDepth := 20, cyclomatic := 3 }
      [⟨"security", "m", "high"⟩] := ⟨rfl, rfl, rfl, rfl⟩
  obtain ⟨⟨q, hq, -, -, formula⟩, monotone⟩ := quality_law finds
  obtain rfl : q = 64 := formula.trans (by decide)
  obtain ⟨q, q', hr, hr', le⟩ := monotone { reviewed with lineCount := 600 } _ _ _
    ⟨rfl, rfl, rfl, rfl⟩ le_rfl le_rfl le_rfl (by decide) id id
  obtain rfl : 64 = q := Except.ok.inj (hq.symm.trans hr)
  exact ⟨finds, hq, q', hr', le⟩

end Score

end ScriptSurvey
