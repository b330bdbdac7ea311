import ScriptSurvey.Numeric.Number
import ScriptSurvey.Survey.Record

/-!
# Scores

Two scores between 0 and 100: how maintainable a file is, by its length and its cyclomatic
complexity, and its quality, by what was found in it.
-/

namespace ScriptSurvey

namespace Score

/-- The natural logarithm of a positive integer of any size. An integer beyond the doubles is
split into a fraction between one half and one and a power of two. -/
def logarithm (value : Nat) : Float :=
  match Double.ofInt value with
  | .infinite _ =>
    let length := value.log2 + 1
    (Double.nearest false value (Nat.pow 2 length)).toFloat.log + Float.log 2.0 * length.toFloat
  | x => x.toFloat.log

/-- The maintainability index: the logarithm of the length weighs twice, since it also stands for
the volume of the file. -/
def maintainability (lineCount cyclomatic : Int) : Except NumericFault Int := do
  if lineCount + 1 ≤ 0 then throw .logarithmDomain
  let volume := logarithm (lineCount + 1).toNat
  let branching := (← Double.ofInt? cyclomatic).toFloat
  let index := 171.0 - 5.2 * volume - 0.23 * branching - 16.2 * volume
  ((Number.real (Double.ofFloat index)).clamp (.int 0) (.int 100)).roundHalfUp

/-- An integer held between 0 and 100 and rounded as the value of a score is. Between these bounds
there is nothing that could not be rounded. -/
def percent (value : Int) : Int :=
  ((Number.int value).clamp (.int 0) (.int 100)).roundHalfUp.toOption.getD 0

/-- The finding that a score could not be computed without. -/
inductive Missing where
  | metrics
  | complexity
  | issues
deriving DecidableEq, Repr

/-- The wording of a missing finding. -/
def Missing.message : Missing → String
  | .metrics => "'NoneType' object has no attribute 'cyclomatic_complexity'"
  | .complexity => "'NoneType' object has no attribute 'max_depth'"
  | .issues => "object of type 'NoneType' has no len()"

/-- Whether an optional list is there and has a member. -/
def present {α : Type} (xs : Option (List α)) : Bool :=
  xs.any (!·.isEmpty)

/-- The points left of 100 after what the findings of a file cost, and what they earn. -/
def points (cyclomatic maxDepth issues lineCount : Int) (rendersWithHooks : Bool) : Int :=
  100 - min 30 (cyclomatic * 2) - min 15 maxDepth - issues * 10
    - (if lineCount > 300 then 10 else 0) - (if lineCount > 500 then 10 else 0)
    + (if rendersWithHooks then 5 else 0)

/-- The quality of a file: zero if it was not read. -/
def quality (r : Record) : Except Missing Int := do
  if r.error.isSome then return 0
  let some metrics := r.metrics | throw .metrics
  let some complexity := r.complexity | throw .complexity
  let some issues := r.issues | throw .issues
  return percent (points metrics.cyclomatic complexity.maxDepth issues.length r.lineCount
    (present r.hooks && present r.components))

end Score

end ScriptSurvey
