import ScriptSurvey.Numeric.Double

/-!
# Numbers that are integers or doubles

A number read from text is an integer of any size or a double, and keeps its kind through a
comparison. Comparisons between the two kinds are exact.
-/

namespace ScriptSurvey

/-- What can go wrong in a computation with numbers. -/
inductive NumericFault where
  | logarithmDomain
  | integerTooLarge
  | quotientTooLarge
  | infinityToInteger
  | nanToInteger
deriving DecidableEq, Repr

/-- The wording of a numeric fault. -/
def NumericFault.message : NumericFault → String
  | .logarithmDomain => "math domain error"
  | .integerTooLarge => "int too large to convert to float"
  | .quotientTooLarge => "integer division result too large for a float"
  | .infinityToInteger => "cannot convert float infinity to integer"
  | .nanToInteger => "cannot convert float NaN to integer"

/-- An integer of any size or a double. -/
inductive Number where
  | int (value : Int)
  | real (value : Double)
deriving DecidableEq

namespace Double

/-- The double nearest to an integer, unless the integer lies beyond all doubles. -/
def ofInt? (value : Int) : Except NumericFault Double :=
  match ofInt value with
  | .infinite _ => .error .integerTooLarge
  | x => .ok x

/-- The double nearest to the quotient of an integer by a natural number. -/
def ofQuotient (num : Int) (den : Nat) : Except NumericFault Double :=
  match nearest (num < 0) num.natAbs den with
  | .infinite _ => .error .quotientTooLarge
  | x => .ok x

/-- The greatest integer that is not above the number. -/
def floor : Double → Except NumericFault Int
  | .finite negative mantissa exponent _ =>
    let (num, den) := ratio negative mantissa exponent
    .ok (num.fdiv den)
  | .infinite _ => .error .infinityToInteger
  | .nan => .error .nanToInteger

/-- One half. -/
def half : Double := nearest false 1 2

/-- The nearest integer, a half going up: a half is added and the sum, itself a double, is cut
down to an integer. -/
def roundHalfUp (x : Double) : Except NumericFault Int :=
  (x + half).floor

end Double

namespace Number

/-- The exact value as an integer over a natural number, of a number that is finite. -/
def ratio? : Number → Option (Int × Nat)
  | .int value => some (value, 1)
  | .real (.finite negative mantissa exponent _) => some (Double.ratio negative mantissa exponent)
  | .real _ => none

/-- Exact comparison. No number is below or above the one that is not a number. -/
def lt (x y : Number) : Bool :=
  match x, y with
  | .real .nan, _ => false
  | _, .real .nan => false
  | .real (.infinite n₁), .real (.infinite n₂) => n₁ && !n₂
  | .real (.infinite negative), _ => negative
  | _, .real (.infinite negative) => !negative
  | x, y =>
    match x.ratio?, y.ratio? with
    | some (p₁, q₁), some (p₂, q₂) => p₁ * q₂ < p₂ * q₁
    | _, _ => false

/-- The value held between two bounds. The upper bound is applied first, and of two numbers
neither of which is below the other the bound is taken. -/
def clamp (value low high : Number) : Number :=
  let capped := if value.lt high then value else high
  if low.lt capped then capped else low

/-- The nearest integer, a half going up; an integer becomes a double first. -/
def roundHalfUp : Number → Except NumericFault Int
  | .int value => do (← Double.ofInt? value).roundHalfUp
  | .real value => value.roundHalfUp

end Number

end ScriptSurvey
