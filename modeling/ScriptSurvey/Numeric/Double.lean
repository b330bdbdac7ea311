/-!
# Double-precision numbers

Times, means and scores are double-precision numbers. They are kept here as exact values
`± mantissa · 2 ^ exponent`, with one primitive, `Double.nearest`, that rounds a quotient of natural
numbers to the nearest double and a tie to the even mantissa. Every operation computes its exact
result first and rounds once.
-/

namespace ScriptSurvey

/-- The quotient of `num` by `den` rounded to the nearest natural number, a tie to the even one. -/
def roundDiv (num den : Nat) : Nat :=
  let quotient := num / den
  let twice := 2 * (num % den)
  if twice < den then quotient
  else if den < twice then quotient + 1
  else if quotient % 2 = 0 then quotient else quotient + 1

/-- The pairs `(mantissa, exponent)` in which a finite double is written: 53 bits of mantissa, the
top one set unless the exponent is the least. Each value has exactly one such pair. -/
abbrev Canonical (mantissa : Nat) (exponent : Int) : Prop :=
  mantissa < Nat.pow 2 53 ∧ -1074 ≤ exponent ∧ exponent ≤ 971 ∧
    (Nat.pow 2 52 ≤ mantissa ∨ exponent = -1074)

/-- A double-precision number. Both zeros are finite, told apart by their sign. -/
inductive Double where
  | finite (negative : Bool) (mantissa : Nat) (exponent : Int)
      (canonical : Canonical mantissa exponent)
  | infinite (negative : Bool)
  | nan
deriving DecidableEq

namespace Double

/-- The zero of the given sign. -/
def zero (negative : Bool) : Double :=
  .finite negative 0 (-1074) (by decide)

instance : Inhabited Double := ⟨zero false⟩

/-- The double with these parts; beyond the largest exponent it is infinite. -/
def ofParts (negative : Bool) (mantissa : Nat) (exponent : Int) : Double :=
  if h : Canonical mantissa exponent then .finite negative mantissa exponent h
  else .infinite negative

/-- `mantissa · 2 ^ exponent` as a quotient of natural numbers. -/
def quotient (mantissa : Nat) (exponent : Int) : Nat × Nat :=
  (mantissa * Nat.pow 2 exponent.toNat, Nat.pow 2 (-exponent).toNat)

/-- The exponent at which `num / den` has a mantissa of 53 bits, or the least one. -/
def scaleOf (num den : Nat) : Int :=
  let top : Int := num.log2 - den.log2
  let full :=
    if den * Nat.pow 2 top.toNat ≤ num * Nat.pow 2 (-top).toNat then top - 52 else top - 53
  max full (-1074)

/-- The double nearest to `± num / den`, a tie going to the even mantissa. -/
def nearest (negative : Bool) (num den : Nat) : Double :=
  if num = 0 then zero negative
  else
    let exponent := scaleOf num den
    let mantissa := roundDiv (num * Nat.pow 2 (-exponent).toNat) (den * Nat.pow 2 exponent.toNat)
    if mantissa = Nat.pow 2 53 then ofParts negative (Nat.pow 2 52) (exponent + 1)
    else ofParts negative mantissa exponent

/-- The double nearest to an integer. -/
def ofInt (value : Int) : Double :=
  nearest (value < 0) value.natAbs 1

/-- The double nearest to `± digits · 10 ^ exponent`. Exponents far outside the range of a double
are settled without computing the power. -/
def ofScientific (negative : Bool) (digits : Nat) (exponent : Int) : Double :=
  let size : Int := digits.log2
  if digits = 0 then zero negative
  else if 320 < exponent + size / 4 then .infinite negative
  else if exponent + size < -400 then zero negative
  else nearest negative (digits * Nat.pow 10 exponent.toNat) (Nat.pow 10 (-exponent).toNat)

/-- The number with its sign turned. -/
def neg : Double → Double
  | .finite negative mantissa exponent h => .finite (!negative) mantissa exponent h
  | .infinite negative => .infinite (!negative)
  | .nan => .nan

/-- The exact value of a finite number as an integer over a natural number. -/
def ratio (negative : Bool) (mantissa : Nat) (exponent : Int) : Int × Nat :=
  let (num, den) := quotient mantissa exponent
  (if negative then -(num : Int) else num, den)

/-- The sum, rounded once. A sum that is exactly zero is negative only if both terms are. -/
def add : Double → Double → Double
  | .finite n₁ m₁ e₁ _, .finite n₂ m₂ e₂ _ =>
    let (p₁, q₁) := ratio n₁ m₁ e₁
    let (p₂, q₂) := ratio n₂ m₂ e₂
    let total := p₁ * q₂ + p₂ * q₁
    if total = 0 then zero (n₁ && n₂)
    else nearest (total < 0) total.natAbs (q₁ * q₂)
  | .infinite n₁, .infinite n₂ => if n₁ = n₂ then .infinite n₁ else .nan
  | .nan, _ => .nan
  | _, .nan => .nan
  | .infinite n, _ => .infinite n
  | _, .infinite n => .infinite n

/-- The difference, rounded once. -/
def sub (x y : Double) : Double :=
  add x (neg y)

instance : Add Double := ⟨add⟩

instance : Sub Double := ⟨sub⟩

/-- The sum of a list, from the left and starting at zero. -/
def sum (xs : List Double) : Double :=
  xs.foldl add (zero false)

/-- The number rounded to the given count of decimal places, a tie of the exact value going to the
even digit. -/
def roundPlaces (places : Nat) : Double → Double
  | .finite negative mantissa exponent _ =>
    let (num, den) := quotient mantissa exponent
    nearest negative (roundDiv (num * Nat.pow 10 places) den) (Nat.pow 10 places)
  | x => x

/-- The runtime's floating-point number of the same value, for the functions that need it. -/
def toFloat : Double → Float
  | .finite negative mantissa exponent _ =>
    let biased := if mantissa < Nat.pow 2 52 then 0 else (exponent + 1075).toNat
    let signBit := if negative then Nat.pow 2 63 else 0
    Float.ofBits (signBit + biased * Nat.pow 2 52 + mantissa % Nat.pow 2 52).toUInt64
  | .infinite negative => Float.ofBits (if negative then 0xFFF0000000000000 else 0x7FF0000000000000)
  | .nan => Float.ofBits 0x7FF8000000000000

/-- The exact value of a floating-point number of the runtime. -/
def ofFloat (x : Float) : Double :=
  let bits := x.toBits.toNat
  let negative := bits / Nat.pow 2 63 = 1
  let biased : Nat := bits / Nat.pow 2 52 % Nat.pow 2 11
  let fraction : Nat := bits % Nat.pow 2 52
  if biased = 2047 then if fraction = 0 then .infinite negative else .nan
  else if biased = 0 then ofParts negative fraction (-1074)
  else ofParts negative (Nat.pow 2 52 + fraction) (Int.ofNat biased - 1075)

end Double

end ScriptSurvey
