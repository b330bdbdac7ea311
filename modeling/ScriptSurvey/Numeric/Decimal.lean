import ScriptSurvey.Numeric.Double

/-!
# Decimal texts of doubles

Writing takes the fewest digits that read back as the same double, and among those the nearest;
`Layout` says where positional notation ends. Reading is correctly rounded.
-/

namespace ScriptSurvey.Decimal

/-- Whether `10 ^ power` is at most `num / den`. -/
def reaches (num den : Nat) (power : Int) : Bool :=
  den * Nat.pow 10 power.toNat ≤ num * Nat.pow 10 (-power).toNat

/-- The greatest power of ten that is at most `num / den`, found next to an estimate from the
binary lengths. -/
def decade (num den : Nat) : Int :=
  let guess := (((num.log2 : Int) - den.log2) * 30103).fdiv 100000
  ([guess + 1, guess, guess - 1].find? (reaches num den)).getD (guess - 2)

/-- The digits and power of ten of the two neighbours of `num / den` among the multiples of
`10 ^ power`, those kept that round to `target`; the nearer one, the even one of a tie. -/
def neighbour? (target : Double) (num den : Nat) (power : Int) : Option Nat :=
  let scaledNum := num * Nat.pow 10 (-power).toNat
  let scaledDen := den * Nat.pow 10 power.toNat
  let low := scaledNum / scaledDen
  let reads (digits : Nat) : Bool :=
    Double.nearest false (digits * Nat.pow 10 power.toNat) (Nat.pow 10 (-power).toNat) = target
  match reads low, reads (low + 1) with
  | true, true => some (roundDiv scaledNum scaledDen)
  | true, false => some low
  | false, true => some (low + 1)
  | false, false => none

/-- A natural number without its trailing zeros, and how many there were. -/
def trimZeros : Nat → Nat → Nat × Nat
  | 0, digits => (digits, 0)
  | fuel + 1, digits =>
    if digits ≠ 0 ∧ digits % 10 = 0 then
      let (rest, zeros) := trimZeros fuel (digits / 10)
      (rest, zeros + 1)
    else (digits, 0)

/-- The shortest digits and the power of ten of a positive finite double. -/
def shortest (mantissa : Nat) (exponent : Int) : Nat × Int :=
  let target := Double.ofParts false mantissa exponent
  let (num, den) := Double.quotient mantissa exponent
  let top := decade num den
  let attempt (count : Nat) : Option (Nat × Int) :=
    let power := top - count
    (neighbour? target num den power).map fun digits =>
      let (trimmed, zeros) := trimZeros 20 digits
      (trimmed, power + zeros)
  ((List.range 17).findSome? attempt).getD (0, 0)

/-- Where decimal notation is positional: the decimal point stands after more than `above` and at
most `upTo` digits. Elsewhere an exponent of at least `exponentWidth` digits is written. -/
structure Layout where
  above : Int
  upTo : Int
  exponentWidth : Nat

/-- The layout in which the program shows a double on its own. -/
def Layout.plain : Layout := ⟨-4, 16, 2⟩

/-- A digit string with the decimal point after `point` digits. -/
def positional (digits : List Char) (point : Int) : List Char :=
  if point ≤ 0 then '0' :: '.' :: List.replicate (-point).toNat '0' ++ digits
  else
    let whole := digits.take point.toNat
    let rest := digits.drop point.toNat
    whole ++ List.replicate (point.toNat - whole.length) '0' ++
      '.' :: (if rest.isEmpty then ['0'] else rest)

/-- A digit string with one digit before the point and an exponent of ten. -/
def scientific (width : Nat) (digits : List Char) (power : Int) : List Char :=
  let tail := digits.drop 1
  let shown := (toString power.natAbs).toList
  digits.take 1 ++ (if tail.isEmpty then [] else '.' :: tail) ++
    'e' :: (if power < 0 then '-' else '+') ::
    List.replicate (width - shown.length) '0' ++ shown

/-- The text of a double, the two infinities and the one that is not a number included. -/
def write (layout : Layout) : Double → String
  | .nan => "nan"
  | .infinite negative => if negative then "-inf" else "inf"
  | .finite negative mantissa exponent _ =>
    let sign := if negative then "-" else ""
    if mantissa = 0 then sign ++ "0.0"
    else
      let (value, power) := shortest mantissa exponent
      let digits := (toString value).toList
      let point := power + digits.length
      let body :=
        if layout.above < point ∧ point ≤ layout.upTo then positional digits point
        else scientific layout.exponentWidth digits (point - 1)
      sign ++ String.ofList body

/-- The value of a string of decimal digits. -/
def digitsValue (digits : List Char) : Nat :=
  digits.foldl (fun value c => 10 * value + (c.toNat - '0'.toNat)) 0

/-- The double of a numeral given by its sign, the digits before and after the point and the
written exponent. -/
def ofNumeral (negative : Bool) (whole fraction : List Char) (exponent : Int) : Double :=
  Double.ofScientific negative (digitsValue (whole ++ fraction)) (exponent - fraction.length)

end ScriptSurvey.Decimal
