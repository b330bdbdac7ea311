import ScriptSurvey.Json.Read

/-!
# Lenient decoding

Reports written by other hands may hold numbers as texts or Booleans. An integer is taken from
whatever plainly stands for one, and so is a double; texts, lists and objects are taken only as
such.
-/

namespace ScriptSurvey.Json

/-- A decoder: the value that a JSON value stands for, if any. -/
abbrev Decoder (α : Type) := Json → Option α

/-- The blanks that may surround a number in a text. -/
def isWideBlank (c : Char) : Bool :=
  let n := c.toNat
  (9 ≤ n && n ≤ 13) || n == 0x20 || n == 0x85 || n == 0xA0 || n == 0x1680 ||
    (0x2000 ≤ n && n ≤ 0x200A) || n == 0x2028 || n == 0x2029 || n == 0x202F || n == 0x205F ||
    n == 0x3000

/-- Characters without the blanks at both ends. -/
def trimBlanks (cs : List Char) : List Char :=
  ((cs.dropWhile isWideBlank).reverse.dropWhile isWideBlank).reverse

/-- Whether each underscore stands between two other characters. -/
def underscoresInside : List Char → Bool
  | '_' :: _ => false
  | cs => go cs
where
  go : List Char → Bool
    | '_' :: '_' :: _ => false
    | ['_'] => false
    | _ :: rest => go rest
    | [] => true

/-- Characters without underscores, if each of them stands between two others. -/
def withoutUnderscores? (cs : List Char) : Option (List Char) :=
  if underscoresInside cs then some (cs.filter (· != '_')) else none

/-- Characters without zeros, and underscores among them, before the first other digit. -/
def withoutLeadingZeros? : List Char → Option (List Char)
  | '0' :: rest =>
    match rest.dropWhile fun c => c == '0' || c == '_' with
    | [] => some ((('0' :: rest).getLast?).toList)
    | '.' :: fraction => some ('0' :: '.' :: fraction)
    | c :: cs => if c.isDigit then some (c :: cs) else none
  | '-' :: rest => some ('-' :: rest)
  | c :: cs => if c.isDigit then some (c :: cs) else none
  | [] => none

/-- Characters without a fraction of zeros. -/
def withoutZeroFraction (cs : List Char) : List Char :=
  let (whole, fraction) := cs.span (· != '.')
  if !fraction.isEmpty && (fraction.drop 1).all (· == '0') then whole else cs

/-- The natural number of decimal digits with no needless zero in front. -/
def natural? : List Char → Option Nat
  | [] => none
  | ['0'] => some 0
  | '0' :: _ => none
  | cs => if cs.all Char.isDigit then some (Decimal.digitsValue cs) else none

/-- The integer that a text stands for. -/
def integerText? (text : String) : Option Int := do
  let unsigned ←
    match trimBlanks text.toList with
    | '+' :: '-' :: _ => none
    | '+' :: rest => some rest
    | cs => some cs
  let digits ← withoutUnderscores? (withoutZeroFraction (← withoutLeadingZeros? unsigned))
  match digits with
  | '-' :: rest => return -(← natural? rest : Nat)
  | cs => return (← natural? cs : Nat)

/-- The integer that a double equals, if it is one of 64 bits with a sign. -/
def integerOfDouble? : Double → Option Int
  | .finite negative mantissa exponent _ =>
    let (num, den) := Double.quotient mantissa exponent
    let size := num / den
    if num % den = 0 ∧ (size < Nat.pow 2 63 ∨ (negative ∧ size = Nat.pow 2 63)) then
      some (if negative then -(size : Int) else size)
    else none
  | _ => none

/-- An integer, from a number, a Boolean or a text. -/
def toInt? : Decoder Int
  | .int value => some value
  | .bool value => some (if value then 1 else 0)
  | .real value => integerOfDouble? value
  | .text value => integerText? value
  | _ => none

/-- The double that a numeral without sign stands for: digits with at most one point among or
beside them, and an exponent. -/
def numeral? (negative : Bool) (cs : List Char) : Option Double :=
  let (whole, rest) := digits cs
  let (fraction, rest) :=
    match rest with
    | '.' :: rest => digits rest
    | rest => ([], rest)
  if whole.isEmpty && fraction.isEmpty then none
  else
    match rest with
    | [] => some (Decimal.ofNumeral negative whole fraction 0)
    | rest =>
      match exponentPart? rest with
      | some (exponent, []) => some (Decimal.ofNumeral negative whole fraction exponent)
      | _ => none

/-- The double that characters stand for, the words for infinities and the like included. -/
def doubleChars? (cs : List Char) : Option Double :=
  let (negative, rest) :=
    match cs with
    | '-' :: rest => (true, rest)
    | '+' :: rest => (false, rest)
    | rest => (false, rest)
  let word := String.ofList (rest.map Char.toLower)
  if word == "inf" || word == "infinity" then some (.infinite negative)
  else if word == "nan" then some .nan
  else numeral? negative rest

/-- The double that a text stands for. -/
def doubleText? (text : String) : Option Double :=
  doubleChars? (trimBlanks text.toList) <|>
    (withoutUnderscores? text.toList).bind doubleChars?

/-- A double, from a number, a Boolean or a text. -/
def toDouble? : Decoder Double
  | .real value => some value
  | .int value => some (Double.ofInt value)
  | .bool value => some (Double.ofInt (if value then 1 else 0))
  | .text value => doubleText? value
  | _ => none

/-- A text. -/
def toText? : Decoder String
  | .text value => some value
  | _ => none

/-- A list whose items all decode. -/
def toList? {α : Type} (item : Decoder α) : Decoder (List α)
  | .list items => items.mapM item
  | _ => none

/-- Null, or what decodes. -/
def toOption? {α : Type} (inner : Decoder α) : Decoder (Option α)
  | .null => some none
  | value => (inner value).map some

/-- A member that an object must have. -/
def required? {α : Type} (value : Json) (name : String) (decoder : Decoder α) : Option α :=
  (value.member? name).bind decoder

/-- A member that an object may lack, with what stands for it then. -/
def optional? {α : Type} (value : Json) (name : String) (decoder : Decoder α) (absent : α) :
    Option α :=
  match value.member? name with
  | some found => decoder found
  | none => some absent

/-- Objects only. -/
def whenObject {α : Type} (decoder : Decoder α) : Decoder α
  | .object members => decoder (.object members)
  | _ => none

end ScriptSurvey.Json
