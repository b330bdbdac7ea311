import ScriptSurvey.Json.Value
import ScriptSurvey.Numeric.Decimal

/-!
# Reading JSON

A reader of JSON texts by recursive descent over the characters. What is wrong with a text is
reported with the place where it shows. Besides the standard's numbers, `NaN` and the two
infinities are read. How a surrogate without its partner is taken is the caller's choice.
-/

namespace ScriptSurvey.Json

/-- What is wrong with a text that is no JSON. -/
inductive Problem where
  | expectedValue
  | expectedName
  | expectedColon
  | expectedComma
  | unterminatedText
  | controlCharacter
  | badEscape
  | badCodeEscape
  | loneSurrogate
  | extraData
  | tooDeep
deriving DecidableEq, Repr

/-- The wording of a problem. -/
def Problem.message : Problem → String
  | .expectedValue => "Expecting value"
  | .expectedName => "Expecting property name enclosed in double quotes"
  | .expectedColon => "Expecting ':' delimiter"
  | .expectedComma => "Expecting ',' delimiter"
  | .unterminatedText => "Unterminated string starting at"
  | .controlCharacter => "Invalid control character at"
  | .badEscape => "Invalid \\escape"
  | .badCodeEscape => "Invalid \\uXXXX escape"
  | .loneSurrogate => "Lone surrogate in escape"
  | .extraData => "Extra data"
  | .tooDeep => "Recursion limit exceeded"

/-- A problem, and what is left of the text from the place where it shows. -/
structure Fault where
  problem : Problem
  rest : List Char

/-- How texts are read. -/
structure Reading where
  /-- What stands for a surrogate without its partner; without it such a surrogate is refused. -/
  surrogate : Option Char := none
  /-- How deep lists and objects may be nested. -/
  depth : Nat

/-- The blanks between tokens. -/
def isBlank (c : Char) : Bool :=
  c == ' ' || c == '\t' || c == '\n' || c == '\r'

/-- What is left of a text after the blanks at its start. -/
def skipBlanks (cs : List Char) : List Char :=
  cs.dropWhile isBlank

/-! ## Texts -/

/-- The value of a hexadecimal digit. -/
def hexValue? (c : Char) : Option Nat :=
  if '0' ≤ c ∧ c ≤ '9' then some (c.toNat - '0'.toNat)
  else if 'a' ≤ c ∧ c ≤ 'f' then some (c.toNat - 'a'.toNat + 10)
  else if 'A' ≤ c ∧ c ≤ 'F' then some (c.toNat - 'A'.toNat + 10)
  else none

/-- The code unit of four hexadecimal digits. -/
def codeUnit? (a b c d : Char) : Option Nat := do
  return (((← hexValue? a) * 16 + (← hexValue? b)) * 16 + (← hexValue? c)) * 16 + (← hexValue? d)

/-- The character that a single letter after a backslash stands for. -/
def simpleEscape? : Char → Option Char
  | '"' => some '"'
  | '\\' => some '\\'
  | '/' => some '/'
  | 'b' => some '\x08'
  | 'f' => some '\x0c'
  | 'n' => some '\n'
  | 'r' => some '\r'
  | 't' => some '\t'
  | _ => none

/-- Whether a code unit is the first, or the second, half of a surrogate pair. -/
def isHighSurrogate (unit : Nat) : Bool := 0xD800 ≤ unit && unit < 0xDC00

@[inherit_doc isHighSurrogate]
def isLowSurrogate (unit : Nat) : Bool := 0xDC00 ≤ unit && unit < 0xE000

/-- The character of a surrogate pair. -/
def joinSurrogates (high low : Nat) : Char :=
  Char.ofNat (0x10000 + (high - 0xD800) * 0x400 + (low - 0xDC00))

/-- The character of a code unit, if it is one by itself or the caller has a stand-in for it. -/
def unitChar? (reading : Reading) (unit : Nat) : Option Char :=
  if isHighSurrogate unit || isLowSurrogate unit then reading.surrogate
  else some (Char.ofNat unit)

/-- The rest of a text after its opening quote; `opening` is the place of that quote and `done`
holds the characters read so far, the last one first. -/
def textFrom (reading : Reading) (opening : List Char) (done : List Char) :
    List Char → Except Fault (String × List Char)
  | [] => .error ⟨.unterminatedText, opening⟩
  | '"' :: rest => .ok (String.ofList done.reverse, rest)
  | '\\' :: [] => .error ⟨.unterminatedText, opening⟩
  | '\\' :: 'u' :: a :: b :: c :: d :: '\\' :: 'u' :: a' :: b' :: c' :: d' :: next :: rest =>
    let second := '\\' :: 'u' :: a' :: b' :: c' :: d' :: next :: rest
    let here := '\\' :: 'u' :: a :: b :: c :: d :: second
    match codeUnit? a b c d with
    | none => .error ⟨.badCodeEscape, here.drop 1⟩
    | some unit =>
      if isHighSurrogate unit then
        match codeUnit? a' b' c' d' with
        | none => .error ⟨.badCodeEscape, second.drop 1⟩
        | some low =>
          if isLowSurrogate low then
            textFrom reading opening (joinSurrogates unit low :: done) (next :: rest)
          else
            match reading.surrogate with
            | none => .error ⟨.loneSurrogate, here⟩
            | some standIn =>
              textFrom reading opening (standIn :: done) second
      else
        match unitChar? reading unit with
        | none => .error ⟨.loneSurrogate, here⟩
        | some c => textFrom reading opening (c :: done) second
  | '\\' :: 'u' :: a :: b :: c :: d :: next :: rest =>
    let here := '\\' :: 'u' :: a :: b :: c :: d :: next :: rest
    match codeUnit? a b c d with
    | none => .error ⟨.badCodeEscape, here.drop 1⟩
    | some unit =>
      match unitChar? reading unit with
      | none => .error ⟨.loneSurrogate, here⟩
      | some c => textFrom reading opening (c :: done) (next :: rest)
  | '\\' :: 'u' :: rest => .error ⟨.badCodeEscape, 'u' :: rest⟩
  | '\\' :: c :: rest =>
    match simpleEscape? c with
    | none => .error ⟨.badEscape, '\\' :: c :: rest⟩
    | some escaped => textFrom reading opening (escaped :: done) rest
  | c :: rest =>
    if c.toNat < 0x20 then .error ⟨.controlCharacter, c :: rest⟩
    else textFrom reading opening (c :: done) rest
termination_by cs => cs.length

/-! ## Numbers -/

/-- The digits at the start of a text, and the rest. -/
def digits (cs : List Char) : List Char × List Char :=
  cs.span Char.isDigit

/-- The digits before the point: a zero alone, or digits that start with another one. -/
def wholePart? : List Char → Option (List Char × List Char)
  | '0' :: rest => some (['0'], rest)
  | cs =>
    match digits cs with
    | ([], _) => none
    | found => some found

/-- The fraction after a point. Without a digit there is none, and the point is left. -/
def fractionPart : List Char → List Char × List Char
  | '.' :: rest =>
    match digits rest with
    | ([], _) => ([], '.' :: rest)
    | found => found
  | cs => ([], cs)

/-- The exponent after its letter, without its sign. -/
def exponentDigits (negative : Bool) (cs : List Char) : Option (Int × List Char) :=
  match digits cs with
  | ([], _) => none
  | (found, rest) =>
    let value : Int := Decimal.digitsValue found
    some (if negative then -value else value, rest)

/-- The exponent of a number. Without a digit there is none, and the letter is left. -/
def exponentPart? : List Char → Option (Int × List Char)
  | c :: rest =>
    if c == 'e' || c == 'E' then
      match rest with
      | '-' :: rest => exponentDigits true rest
      | '+' :: rest => exponentDigits false rest
      | rest => exponentDigits false rest
    else none
  | [] => none

/-- A number after its sign. Without fraction and exponent it is an integer. -/
def number? (negative : Bool) (cs : List Char) : Option (Json × List Char) := do
  let (whole, rest) ← wholePart? cs
  let (fraction, rest) := fractionPart rest
  match exponentPart? rest with
  | some (exponent, rest) => return (.real (Decimal.ofNumeral negative whole fraction exponent), rest)
  | none =>
    if fraction.isEmpty then
      let value : Int := Decimal.digitsValue whole
      return (.int (if negative then -value else value), rest)
    else return (.real (Decimal.ofNumeral negative whole fraction 0), rest)

/-! ## Values -/

/-- What is left of a text after `word`, if it starts so. -/
def after? (word : String) (cs : List Char) : Option (List Char) :=
  if word.toList.isPrefixOf cs then some (cs.drop word.length) else none

/-- The words that stand for values. -/
def words : List (String × Json) :=
  [("null", .null), ("true", .bool true), ("false", .bool false), ("NaN", .real .nan),
   ("Infinity", .real (.infinite false)), ("-Infinity", .real (.infinite true))]

/-- A word or a number. -/
def scalar (cs : List Char) : Except Fault (Json × List Char) :=
  match words.findSome? fun (word, value) => (after? word cs).map (value, ·) with
  | some found => .ok found
  | none =>
    let number :=
      match cs with
      | '-' :: rest => number? true rest
      | cs => number? false cs
    match number with
    | some found => .ok found
    | none => .error ⟨.expectedValue, cs⟩

mutual

/-- A value of any kind. The count `fuel` bounds the calls and `depth` the nesting. -/
def valueFrom (reading : Reading) (fuel depth : Nat) (cs : List Char) : Except Fault (Json × List Char) :=
  match fuel with
  | 0 => .error ⟨.tooDeep, cs⟩
  | fuel + 1 =>
    match cs with
    | '"' :: rest => do
      let (value, rest) ← textFrom reading cs [] rest
      return (.text value, rest)
    | '[' :: rest =>
      match depth with
      | 0 => .error ⟨.tooDeep, cs⟩
      | depth + 1 =>
        match skipBlanks rest with
        | ']' :: rest => .ok (.list [], rest)
        | rest => do
          let (items, rest) ← itemsFrom reading fuel depth rest
          return (.list items, rest)
    | '{' :: rest =>
      match depth with
      | 0 => .error ⟨.tooDeep, cs⟩
      | depth + 1 =>
        match skipBlanks rest with
        | '}' :: rest => .ok (.object [], rest)
        | rest => do
          let (members, rest) ← membersFrom reading fuel depth [] rest
          return (.object members, rest)
    | cs => scalar cs

/-- The items of a list that is not empty, to its closing bracket. -/
def itemsFrom (reading : Reading) (fuel depth : Nat) (cs : List Char) : Except Fault (List Json × List Char) :=
  match fuel with
  | 0 => .error ⟨.tooDeep, cs⟩
  | fuel + 1 => do
    let (item, rest) ← valueFrom reading fuel depth cs
    match skipBlanks rest with
    | ']' :: rest => return ([item], rest)
    | ',' :: rest =>
      let (items, rest) ← itemsFrom reading fuel depth (skipBlanks rest)
      return (item :: items, rest)
    | rest => .error ⟨.expectedComma, rest⟩

/-- The members of an object that is not empty, to its closing brace. Of two members of one name
the later value counts, at the place of the earlier one. -/
def membersFrom (reading : Reading) (fuel depth : Nat) (done : Ledger String Json)
    (cs : List Char) : Except Fault (List (String × Json) × List Char) :=
  match fuel with
  | 0 => .error ⟨.tooDeep, cs⟩
  | fuel + 1 =>
    match cs with
    | '"' :: rest => do
      let (name, rest) ← textFrom reading cs [] rest
      match skipBlanks rest with
      | ':' :: rest =>
        let (value, rest) ← valueFrom reading fuel depth (skipBlanks rest)
        let done := done.put name value
        match skipBlanks rest with
        | '}' :: rest => return (done, rest)
        | ',' :: rest => membersFrom reading fuel depth done (skipBlanks rest)
        | rest => .error ⟨.expectedComma, rest⟩
      | rest => .error ⟨.expectedColon, rest⟩
    | cs => .error ⟨.expectedName, cs⟩

end

/-- The value that a text stands for, with blanks around it allowed. -/
def read (reading : Reading) (text : String) : Except Fault Json := do
  let cs := text.toList
  let (value, rest) ← valueFrom reading (2 * cs.length + 2) reading.depth (skipBlanks cs)
  match skipBlanks rest with
  | [] => return value
  | rest => .error ⟨.extraData, rest⟩

/-- The place of a fault in the text that was read, counted in characters from zero. -/
def Fault.position (fault : Fault) (text : String) : Nat :=
  text.length - fault.rest.length

end ScriptSurvey.Json
