/-!
# Inflating

Compressed members are read bit by bit: blocks of stored bytes, and blocks of symbols in a prefix
code that is fixed or given at the start of the block. A symbol is a byte, the end of the block, or
a run of bytes that were written before. Data that ends too early gives what could be read of it,
and so does data that stands for more bytes than there is room for; nothing is found wrong with what
comes after.
-/

namespace ScriptSurvey.Archive

/-- What is wrong with compressed data. -/
inductive InflateFault where
  | blockKind
  | storedLength
  | symbolCount
  | lengthCode
  | lengthRepeat
  | noBlockEnd
  | symbolCode
  | distanceCode
  | unknownSymbol
  | unknownDistance
  | distanceTooFar
deriving DecidableEq, Repr

/-- The wording of a fault in compressed data. -/
def InflateFault.message (fault : InflateFault) : String :=
  "Error -3 while decompressing data: " ++
    match fault with
    | .blockKind => "invalid block type"
    | .storedLength => "invalid stored block lengths"
    | .symbolCount => "too many length or distance symbols"
    | .lengthCode => "invalid code lengths set"
    | .lengthRepeat => "invalid bit length repeat"
    | .noBlockEnd => "invalid code -- missing end-of-block"
    | .symbolCode => "invalid literal/lengths set"
    | .distanceCode => "invalid distances set"
    | .unknownSymbol => "invalid literal/length code"
    | .unknownDistance => "invalid distance code"
    | .distanceTooFar => "invalid distance too far back"

/-- Why reading stopped before the end: the data ran out, there is no room for the next byte, or the
data is wrong. -/
inductive Stop where
  | exhausted
  | full
  | fault (fault : InflateFault)
deriving DecidableEq, Repr

/-- The bits that are left, the bytes written so far, and how many there is room for. -/
structure Inflater where
  bits : List Bool
  output : Array UInt8
  room : Option Nat

/-- A step of reading: its result, or why it stopped; the bytes written stay in either case. -/
abbrev Inflate := ExceptT Stop (StateM Inflater)

/-- The bits of a byte, the lowest first. -/
def bitsOf (b : UInt8) : List Bool :=
  (List.range 8).map fun i => b.toNat.testBit i

namespace Inflate

/-- Stop for a fault. -/
def wrong {α : Type} (fault : InflateFault) : Inflate α :=
  throw (.fault fault)

/-- One bit. -/
def bit : Inflate Nat := do
  match (← get).bits with
  | [] => throw .exhausted
  | b :: rest =>
    modify fun s => { s with bits := rest }
    return b.toNat

/-- A number of `count` bits, the lowest first. -/
def number : Nat → Inflate Nat
  | 0 => return 0
  | count + 1 => do
    let low ← bit
    return low + 2 * (← number count)

/-- Go on only if there is room for a byte. -/
def needRoom : Inflate Unit := do
  let s ← get
  if s.room.any (· ≤ s.output.size) then throw .full

/-- Write a byte. -/
def emit (b : UInt8) : Inflate Unit := do
  needRoom
  modify fun s => { s with output := s.output.push b }

/-- Leave the bits up to the next byte. -/
def align : Inflate Unit :=
  modify fun s => { s with bits := s.bits.drop (s.bits.length % 8) }

end Inflate

/-! ## Prefix codes -/

/-- A prefix code: how many symbols there are of each length from one on, and the symbols in the
order of their codes. -/
structure PrefixCode where
  counts : List Nat
  symbols : Array Nat

/-- The longest code. -/
def longest : Nat := 15

/-- The code in which the symbol `i` has the `i`th length, zero meaning no code. -/
def PrefixCode.ofLengths (lengths : List Nat) : PrefixCode :=
  let numbered := lengths.zipIdx
  let ofLength (n : Nat) : List Nat := (numbered.filter (·.1 = n)).map (·.2)
  let groups := (List.range longest).map fun i => ofLength (i + 1)
  { counts := groups.map (·.length), symbols := groups.flatten.toArray }

/-- The codes of each length that are left over; `none` if there are too few. -/
def PrefixCode.spare? (code : PrefixCode) : Option Nat :=
  code.counts.foldlM (fun left count => if count ≤ 2 * left then some (2 * left - count) else none) 1

/-- Whether the code can be used: every sequence of bits is decided, or the code has at most one
symbol, of one bit. -/
def PrefixCode.usable (code : PrefixCode) : Bool :=
  match code.spare? with
  | none => false
  | some left => left == 0 || code.symbols.isEmpty ||
      (code.symbols.size == 1 && code.counts.head? == some 1)

/-- Whether the code decides every sequence of bits. -/
def PrefixCode.complete (code : PrefixCode) : Bool :=
  code.spare? == some 0

/-- The next symbol of a code. `value` is the code read so far, `first` the first code of its
length, and `index` the place of that code's symbol. -/
def PrefixCode.symbolFrom (code : PrefixCode) (fault : InflateFault) (value first index : Nat) :
    List Nat → Inflate Nat
  | [] => Inflate.wrong fault
  | count :: counts => do
    let value := 2 * value + (← Inflate.bit)
    let first := 2 * first
    if value < first + count then
      match code.symbols[index + (value - first)]? with
      | some symbol => return symbol
      | none => Inflate.wrong fault
    -- bits that start no code are found out when there is no longer code left
    else if counts.all (· = 0) then Inflate.wrong fault
    else code.symbolFrom fault value (first + count) (index + count) counts

/-- The next symbol of a code. -/
def PrefixCode.symbol (code : PrefixCode) (fault : InflateFault) : Inflate Nat :=
  code.symbolFrom fault 0 0 0 code.counts

/-! ## Blocks -/

/-- The least length and the further bits of each length symbol. -/
def lengthTable : List (Nat × Nat) :=
  [(3, 0), (4, 0), (5, 0), (6, 0), (7, 0), (8, 0), (9, 0), (10, 0), (11, 1), (13, 1), (15, 1),
   (17, 1), (19, 2), (23, 2), (27, 2), (31, 2), (35, 3), (43, 3), (51, 3), (59, 3), (67, 4),
   (83, 4), (99, 4), (115, 4), (131, 5), (163, 5), (195, 5), (227, 5), (258, 0)]

/-- The least distance and the further bits of each distance symbol. -/
def distanceTable : List (Nat × Nat) :=
  [(1, 0), (2, 0), (3, 0), (4, 0), (5, 1), (7, 1), (9, 2), (13, 2), (17, 3), (25, 3), (33, 4),
   (49, 4), (65, 5), (97, 5), (129, 6), (193, 6), (257, 7), (385, 7), (513, 8), (769, 8), (1025, 9),
   (1537, 9), (2049, 10), (3073, 10), (4097, 11), (6145, 11), (8193, 12), (12289, 12), (16385, 13),
   (24577, 13)]

/-- The order in which the lengths of the code for lengths are given. -/
def lengthOrder : List Nat :=
  [16, 17, 18, 0, 8, 7, 9, 6, 10, 5, 11, 4, 12, 3, 13, 2, 14, 1, 15]

/-- Write `count` bytes again that stand `distance` back. -/
def repeatBytes (distance : Nat) : Nat → Inflate Unit
  | 0 => return
  | count + 1 => do
    let output := (← get).output
    match output[output.size - distance]? with
    | some b =>
      Inflate.emit b
      repeatBytes distance count
    | none => Inflate.wrong .distanceTooFar

/-- A run of bytes that were written before, given the symbol of its length. -/
def runOf (distances : PrefixCode) (symbol : Nat) : Inflate Unit := do
  let some (length, lengthBits) := lengthTable[symbol - 257]? | Inflate.wrong .unknownSymbol
  let length := length + (← Inflate.number lengthBits)
  let symbol ← distances.symbol .unknownDistance
  let some (distance, distanceBits) := distanceTable[symbol]? | Inflate.wrong .unknownDistance
  let distance := distance + (← Inflate.number distanceBits)
  Inflate.needRoom
  if (← get).output.size < distance then Inflate.wrong .distanceTooFar
  repeatBytes distance length

/-- The symbols of a block to its end; `fuel` bounds their number. -/
def symbols (literals distances : PrefixCode) : Nat → Inflate Unit
  | 0 => throw .exhausted
  | fuel + 1 => do
    let symbol ← literals.symbol .unknownSymbol
    if symbol < 256 then
      Inflate.emit symbol.toUInt8
      symbols literals distances fuel
    else if symbol = 256 then return
    else
      runOf distances symbol
      symbols literals distances fuel

/-- The bytes of a stored block. -/
def storedBytes : Nat → Inflate Unit
  | 0 => return
  | count + 1 => do
    Inflate.needRoom
    Inflate.emit (← Inflate.number 8).toUInt8
    storedBytes count

/-- A stored block: its length twice, the second time with all bits turned, and its bytes. -/
def storedBlock : Inflate Unit := do
  Inflate.align
  let length ← Inflate.number 16
  let check ← Inflate.number 16
  if length + check ≠ 0xFFFF then Inflate.wrong .storedLength
  storedBytes length

/-- The lengths of the fixed code for symbols. -/
def fixedLengths : List Nat :=
  List.replicate 144 8 ++ List.replicate 112 9 ++ List.replicate 24 7 ++ List.replicate 8 8

/-- The next symbol of the code for lengths. If it has no symbols, every bit is a length of zero. -/
def lengthSymbol (code : PrefixCode) : Inflate Nat :=
  if code.symbols.isEmpty then (fun _ => 0) <$> Inflate.bit else code.symbol .lengthCode

/-- The lengths of the two codes of a block, `count` in all, in a code of their own. A length may
stand for several, which repeat the one before or are zero. -/
def codeLengths (code : PrefixCode) (count : Nat) : Nat → List Nat → Inflate (List Nat)
  | 0, _ => throw .exhausted
  | fuel + 1, done => do
    if count ≤ done.length then return done
    let symbol ← lengthSymbol code
    if symbol < 16 then codeLengths code count fuel (done ++ [symbol])
    else
      let times ←
        if symbol = 16 then (3 + ·) <$> Inflate.number 2
        else if symbol = 17 then (3 + ·) <$> Inflate.number 3
        else (11 + ·) <$> Inflate.number 7
      let repeated :=
        if symbol = 16 then done.getLast? else some 0
      let some value := repeated | Inflate.wrong .lengthRepeat
      if count < done.length + times then Inflate.wrong .lengthRepeat
      codeLengths code count fuel (done ++ List.replicate times value)

/-- The lengths of the code for lengths. -/
def orderedLengths (count : Nat) : Inflate (List Nat) := do
  let given ← (lengthOrder.take count).mapM fun symbol => return (symbol, ← Inflate.number 3)
  return (List.range 19).map fun symbol => (given.lookup symbol).getD 0

/-- The two codes given at the start of a block. -/
def givenCodes : Inflate (PrefixCode × PrefixCode) := do
  let literalCount := 257 + (← Inflate.number 5)
  let distanceCount := 1 + (← Inflate.number 5)
  let orderCount := 4 + (← Inflate.number 4)
  if 286 < literalCount || 30 < distanceCount then Inflate.wrong .symbolCount
  let lengthCode := PrefixCode.ofLengths (← orderedLengths orderCount)
  if !lengthCode.complete && !lengthCode.symbols.isEmpty then Inflate.wrong .lengthCode
  let total := literalCount + distanceCount
  let lengths ← codeLengths lengthCode total (total + 1) []
  if lengths.getD 256 0 = 0 then Inflate.wrong .noBlockEnd
  let literals := PrefixCode.ofLengths (lengths.take literalCount)
  if !literals.usable then Inflate.wrong .symbolCode
  let distances := PrefixCode.ofLengths (lengths.drop literalCount)
  if !distances.usable then Inflate.wrong .distanceCode
  return (literals, distances)

/-- A block, and whether it is the last one. -/
def block : Inflate Bool := do
  let last ← Inflate.bit
  let kind ← Inflate.number 2
  let fuel := (← get).bits.length + 1
  match kind with
  | 0 => storedBlock
  | 1 =>
    symbols (.ofLengths fixedLengths) (.ofLengths (List.replicate 32 5)) fuel
  | 2 =>
    let (literals, distances) ← givenCodes
    symbols literals distances fuel
  | _ => Inflate.wrong .blockKind
  return last = 1

/-- Blocks up to the last one; `fuel` bounds their number. -/
def blocks : Nat → Inflate Unit
  | 0 => throw .exhausted
  | fuel + 1 => do
    if ← block then return
    blocks fuel

/-- What compressed data stands for, as far as it could be read. -/
structure Inflated where
  bytes : List UInt8
  /-- Whether the data was read to the end of its last block. -/
  ended : Bool
  /-- How many bytes of the data were not looked at for lack of room. -/
  tail : Nat

/-- The outcome of reading compressed data, with room for so many bytes if that is limited. -/
def inflateRun (room : Option Nat) (data : List UInt8) : Except Stop Unit × Inflater :=
  let bits := data.flatMap bitsOf
  (blocks (bits.length + 1)).run.run ⟨bits, #[], room⟩

/-- What compressed data stands for, with room for so many bytes. -/
def inflate (room : Nat) (data : List UInt8) : Except InflateFault Inflated :=
  match inflateRun (some room) data with
  | (.ok (), final) => .ok ⟨final.output.toList, true, 0⟩
  | (.error .exhausted, final) => .ok ⟨final.output.toList, false, 0⟩
  | (.error .full, final) => .ok ⟨final.output.toList, false, final.bits.length / 8⟩
  | (.error (.fault fault), _) => .error fault

/-- All bytes that compressed data stands for, up to where it ends or is wrong. -/
def inflateAll (data : List UInt8) : List UInt8 :=
  (inflateRun none data).2.output.toList

end ScriptSurvey.Archive
