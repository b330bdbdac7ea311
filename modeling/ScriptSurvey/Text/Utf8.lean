import ScriptSurvey.Text.Quoted

/-!
# UTF-8

Two ways to read bytes as UTF-8. `repair` never fails: whatever is no part of a character becomes
one replacement mark for each longest run of bytes that starts a character. `decode` refuses such
bytes and says where they stand.
-/

namespace ScriptSurvey.Text

/-- The start of a character of several bytes: how many bytes are owed, the range of the next one,
and the bits so far. -/
structure Pending where
  owed : Nat
  low : UInt8
  high : UInt8
  bits : Nat
deriving DecidableEq

/-- What a byte between characters is. -/
inductive Lead where
  | single (c : Char)
  | start (pending : Pending)
  | invalid

/-- What a byte between characters is. Second bytes are restricted where they would spell a
character in too many bytes, a surrogate, or a number beyond the last character. -/
def lead (b : UInt8) : Lead :=
  if b < 0x80 then .single (Char.ofNat b.toNat)
  else if b < 0xC2 then .invalid
  else if b < 0xE0 then .start ⟨1, 0x80, 0xBF, b.toNat % 32⟩
  else if b < 0xF0 then
    let low : UInt8 := if b = 0xE0 then 0xA0 else 0x80
    let high : UInt8 := if b = 0xED then 0x9F else 0xBF
    .start ⟨2, low, high, b.toNat % 16⟩
  else if b < 0xF5 then
    let low : UInt8 := if b = 0xF0 then 0x90 else 0x80
    let high : UInt8 := if b = 0xF4 then 0x8F else 0xBF
    .start ⟨3, low, high, b.toNat % 8⟩
  else .invalid

/-- What stands for bytes that are no character. -/
def replacement : Char := '\uFFFD'

/-- What one more byte makes of a character that was begun: the character, a longer beginning, or
nothing. -/
def Pending.next? (p : Pending) (b : UInt8) : Option (Char ⊕ Pending) :=
  if p.low ≤ b ∧ b ≤ p.high then
    let bits := p.bits * 64 + b.toNat % 64
    if p.owed ≤ 1 then some (.inl (Char.ofNat bits))
    else some (.inr ⟨p.owed - 1, 0x80, 0xBF, bits⟩)
  else none

/-- The characters that a byte between characters gives at once, and what it begins. -/
def openWith (b : UInt8) : List Char × Option Pending :=
  match lead b with
  | .single c => ([c], none)
  | .start p => ([], some p)
  | .invalid => ([replacement], none)

/-- The characters that one more byte gives at once, and what it leaves begun. -/
def feed (state : Option Pending) (b : UInt8) : List Char × Option Pending :=
  match state with
  | none => openWith b
  | some p =>
    match p.next? b with
    | some (.inl c) => ([c], none)
    | some (.inr p) => ([], some p)
    | none =>
      let (out, state) := openWith b
      (replacement :: out, state)

/-- The characters of bytes after what was begun. -/
def repairFrom (state : Option Pending) : List UInt8 → List Char
  | [] => if state.isSome then [replacement] else []
  | b :: bs => (feed state b).1 ++ repairFrom (feed state b).2 bs

/-- The text of bytes, with replacement marks for what is no UTF-8. -/
def repair (bytes : List UInt8) : String :=
  String.ofList (repairFrom none bytes)

/-- A text without the byte order mark at its start. -/
def withoutMark (text : String) : String :=
  match text.toList with
  | '\uFEFF' :: rest => String.ofList rest
  | _ => text

/-! ## Strict reading -/

/-- Bytes that are no UTF-8: where they start and end, the first of them, and what is wrong. -/
structure Utf8Fault where
  first : Nat
  last : Nat
  byte : UInt8
  reason : String
deriving DecidableEq

/-- The wording of the fault. -/
def Utf8Fault.message (fault : Utf8Fault) : String :=
  let place :=
    if fault.first = fault.last then
      s!"byte 0x" ++ hex 2 fault.byte.toNat ++ s!" in position {fault.first}"
    else s!"bytes in position {fault.first}-{fault.last}"
  "'utf-8' codec can't decode " ++ place ++ ": " ++ fault.reason

/-- The characters of bytes from a position on; `start` is where the character that was begun
starts, with its first byte. -/
def decodeFrom (state : Option (Pending × Nat × UInt8)) (position : Nat) :
    List UInt8 → Except Utf8Fault (List Char)
  | [] =>
    match state with
    | none => .ok []
    | some (_, start, byte) => .error ⟨start, position - 1, byte, "unexpected end of data"⟩
  | b :: bs =>
    match state with
    | none =>
      match lead b with
      | .single c => (c :: ·) <$> decodeFrom none (position + 1) bs
      | .start p => decodeFrom (some (p, position, b)) (position + 1) bs
      | .invalid => .error ⟨position, position, b, "invalid start byte"⟩
    | some (p, start, byte) =>
      match p.next? b with
      | some (.inl c) => (c :: ·) <$> decodeFrom none (position + 1) bs
      | some (.inr p) => decodeFrom (some (p, start, byte)) (position + 1) bs
      | none => .error ⟨start, position - 1, byte, "invalid continuation byte"⟩

/-- The text of bytes that are UTF-8. -/
def decode (bytes : List UInt8) : Except Utf8Fault String :=
  String.ofList <$> decodeFrom none 0 bytes

/-- The bytes of a text. -/
def encode (text : String) : List UInt8 :=
  text.toUTF8.data.toList

end ScriptSurvey.Text
