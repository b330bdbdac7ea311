import ScriptSurvey.Archive.Checksum
import ScriptSurvey.Archive.Inflate
import ScriptSurvey.Archive.Reader
import ScriptSurvey.Text.CodePage
import ScriptSurvey.Text.Utf8

/-!
# Zip archives

An archive ends with a directory of its members and a record that says where the directory stands.
Bytes before the archive are allowed, so places are counted from where the directory really is.
Where a number is too large for its place in a header, it stands in a larger end record (ZIP64), or
in a field after the name of the member. `Archive.contents` reads the directory and `Archive.read`
one member, which is checked against what the directory says of it.

Members are stored or packed in one of three ways. Deflated data is inflated here; the decoders for
bzip2 and LZMA are those of the reader, and how they unpack is left open.
-/

namespace ScriptSurvey.Archive

/-! ## Numbers in headers -/

/-- The number of `width` bytes at a place, the lowest byte first. Bytes beyond the end are zero. -/
def fieldAt (bytes : List UInt8) (place width : Nat) : Nat :=
  ((bytes.drop place).take width).foldr (fun b rest => b.toNat + 256 * rest) 0

/-- The part of `bytes` from a place on, of the given size or shorter. -/
def slice (bytes : List UInt8) (place size : Nat) : List UInt8 :=
  (bytes.drop place).take size

/-- The marks at the start of the kinds of header. -/
def directoryMark : List UInt8 := [0x50, 0x4B, 1, 2]

@[inherit_doc directoryMark]
def memberMark : List UInt8 := [0x50, 0x4B, 3, 4]

@[inherit_doc directoryMark]
def endMark : List UInt8 := [0x50, 0x4B, 5, 6]

@[inherit_doc directoryMark]
def largeEndMark : List UInt8 := [0x50, 0x4B, 6, 6]

@[inherit_doc directoryMark]
def locatorMark : List UInt8 := [0x50, 0x4B, 6, 7]

/-- The sizes of the kinds of header. -/
def directoryHeaderSize : Nat := 46

@[inherit_doc directoryHeaderSize]
def memberHeaderSize : Nat := 30

@[inherit_doc directoryHeaderSize]
def endRecordSize : Nat := 22

@[inherit_doc directoryHeaderSize]
def largeEndSize : Nat := 56

@[inherit_doc directoryHeaderSize]
def locatorSize : Nat := 20

/-! ## Members -/

/-- What the directory says of a member. -/
structure Member where
  /-- The name up to the first null character. -/
  name : String
  /-- The name as it is written. -/
  writtenName : String
  flags : Nat
  method : Nat
  checksum : Nat
  packedSize : Nat
  size : Nat
  permissions : Nat
  /-- Where the header of the member starts. -/
  place : Int
  /-- Where the next header, or the directory, starts. -/
  limit : Int
deriving DecidableEq

/-- Why an archive could not be opened at all. -/
inductive OpenFault where
  | noEndRecord
  | manyDisks
  | directoryOffset
  | directoryTruncated
  | directoryMark
  | extraField (kind size : Nat)
  | largeNumber (meaning : String)
deriving DecidableEq, Repr

/-- The wording of a fault in the frame of an archive. -/
def OpenFault.message : OpenFault → String
  | .noEndRecord => "File is not a zip file"
  | .manyDisks => "zipfiles that span multiple disks are not supported"
  | .directoryOffset => "Bad offset for central directory"
  | .directoryTruncated => "Truncated central directory"
  | .directoryMark => "Bad magic number for central directory"
  | .extraField kind size => "Corrupt extra field " ++ Text.hex 4 kind ++ s!" (size={size})"
  | .largeNumber meaning => "Corrupt zip64 extra field. " ++ meaning ++ " not found."

/-- Why the contents of an archive could not be read. -/
inductive Fault where
  | unopenable (fault : OpenFault)
  | name (fault : Text.Utf8Fault)
  | version (tenths : Nat)
  | headerPlace (reason : String)
  | headerTruncated
  | headerMark
  | patched
  | stronglyEncrypted
  | nameDiffers (listed : String) (written : List UInt8)
  | overlapping (name : String)
  | encrypted (member : Member)
  | method
  | noDecoder (needed : String)
  | dataTruncated
  | packing (fault : InflateFault)
  | decoding (reason : String)
  | checksum (name : String)
deriving DecidableEq

namespace Member

/-- Directories are members whose names end in a slash. -/
def isDirectory (m : Member) : Bool :=
  m.name.toList.getLast? == some '/'

/-- The words for the ways of packing. -/
def methodNames : List (Nat × String) :=
  [(0, "store"), (1, "shrink"), (2, "reduce"), (3, "reduce"), (4, "reduce"), (5, "reduce"),
   (6, "implode"), (7, "tokenize"), (8, "deflate"), (9, "deflate64"), (10, "implode"),
   (12, "bzip2"), (14, "lzma"), (18, "terse"), (19, "lz77"), (97, "wavpack"), (98, "ppmd")]

/-- The letter for the kind of a file, by the upper bits of its mode. -/
def kindLetter (mode : Nat) : Char :=
  match mode / 4096 with
  | 1 => 'p'
  | 2 => 'c'
  | 4 => 'd'
  | 6 => 'b'
  | 8 => '-'
  | 10 => 'l'
  | 12 => 's'
  | _ => '?'

/-- The three letters of one class of users: reading, writing, and executing, which has its own
letters where the class's special bit is set. -/
def accessLetters (bits : Nat) (special : Bool) (both only : Char) : List Char :=
  [if bits.testBit 2 then 'r' else '-', if bits.testBit 1 then 'w' else '-',
   if special then (if bits.testBit 0 then both else only)
   else if bits.testBit 0 then 'x' else '-']

/-- The mode of a file in letters. -/
def modeText (mode : Nat) : String :=
  String.ofList (kindLetter mode ::
    accessLetters (mode / 64 % 8) (mode.testBit 11) 's' 'S' ++
    accessLetters (mode / 8 % 8) (mode.testBit 10) 's' 'S' ++
    accessLetters (mode % 8) (mode.testBit 9) 't' 'T')

/-- A member as messages show it. -/
def describe (m : Member) : String :=
  let mode := m.permissions / 65536
  let attributes := m.permissions % 65536
  let packing :=
    if m.method = 0 then ""
    else " compress_type=" ++ ((methodNames.lookup m.method).getD (toString m.method))
  let permissions := if mode = 0 then "" else " filemode=" ++ Text.quoted (modeText mode)
  let attributes := if attributes = 0 then "" else " external_attr=0x" ++ Text.hex 1 attributes
  let size := if !m.isDirectory || m.size ≠ 0 then s!" file_size={m.size}" else ""
  let packed :=
    if (!m.isDirectory || m.packedSize ≠ 0) && (m.method ≠ 0 || m.size ≠ m.packedSize) then
      s!" compress_size={m.packedSize}"
    else ""
  "<ZipInfo filename=" ++ Text.quoted m.name ++ packing ++ permissions ++ attributes ++ size ++
    packed ++ ">"

end Member

/-- The wording of a fault. -/
def Fault.message : Fault → String
  | .unopenable fault => fault.message
  | .name fault => fault.message
  | .version tenths => s!"zip file version {tenths / 10}.{tenths % 10}"
  | .headerPlace reason => reason
  | .headerTruncated => "Truncated file header"
  | .headerMark => "Bad magic number for file header"
  | .patched => "compressed patched data (flag bit 5)"
  | .stronglyEncrypted => "strong encryption (flag bit 6)"
  | .nameDiffers listed written =>
    "File name in directory " ++ Text.quoted listed ++ " and header " ++
      Text.quotedBytes written ++ " differ."
  | .overlapping shown => "Overlapped entries: " ++ Text.quoted shown ++ " (possible zip bomb)"
  | .encrypted member =>
    "File " ++ member.describe ++ " is encrypted, password required for extraction"
  | .method => "That compression method is not supported"
  | .noDecoder needed => "Compression requires the (missing) " ++ needed ++ " module"
  | .dataTruncated => ""
  | .packing fault => fault.message
  | .decoding reason => reason
  | .checksum shown => "Bad CRC-32 for file " ++ Text.quoted shown

/-! ## The directory -/

/-- The last place at which `mark` stands in `bytes`, if any. -/
def lastPlace? (mark : List UInt8) (bytes : List UInt8) : Option Nat :=
  (go 0 bytes).getLast?
where
  go (place : Nat) : List UInt8 → List Nat
    | [] => []
    | b :: bs =>
      if mark.isPrefixOf (b :: bs) then place :: go (place + 1) bs else go (place + 1) bs

/-- The place of the end record: the very end if the archive has no comment, else the last place
in its last part where the mark stands. -/
def endPlace? (bytes : List UInt8) : Option Nat :=
  let size := bytes.length
  let atEnd := slice bytes (size - endRecordSize) endRecordSize
  if endRecordSize ≤ size && endMark.isPrefixOf atEnd && fieldAt atEnd 20 2 == 0 then
    some (size - endRecordSize)
  else
    let start := size - 65536 - endRecordSize
    match lastPlace? endMark (bytes.drop start) with
    | some place => if start + place + endRecordSize ≤ size then some (start + place) else none
    | none => none

/-- What the end of an archive says of its directory: where it ends, its size, and where it is said
to start. -/
structure EndRecord where
  stop : Int
  size : Nat
  offset : Nat
deriving DecidableEq

/-- The larger end record before the end record at a place, if there is one: a locator stands
between them, and tells that all is on one disk. -/
def largeEnd? (reader : Reader) (bytes : List UInt8) (place : Nat) :
    Except OpenFault (Option EndRecord) :=
  let locator := slice bytes (place - locatorSize) locatorSize
  let record := slice bytes (place - locatorSize - largeEndSize) largeEndSize
  if !reader.stopsAtStart && place < locatorSize then .ok none
  else if !locatorMark.isPrefixOf locator then .ok none
  else if fieldAt locator 4 4 ≠ 0 || 1 < fieldAt locator 16 4 then .error .manyDisks
  else if !reader.stopsAtStart && place < locatorSize + largeEndSize then .error .noEndRecord
  else if record.length < largeEndSize || !largeEndMark.isPrefixOf record then .ok none
  else
    .ok (some {
      stop := place - (locatorSize + largeEndSize : Nat)
      size := fieldAt record 40 8
      offset := fieldAt record 48 8 })

/-- What the end of an archive says of its directory. -/
def endRecord (reader : Reader) (bytes : List UInt8) : Except OpenFault EndRecord := do
  let some place := endPlace? bytes | throw .noEndRecord
  let record := slice bytes place endRecordSize
  return (← largeEnd? reader bytes place).getD
    { stop := place, size := fieldAt record 12 4, offset := fieldAt record 16 4 }

/-- The text of a name, in UTF-8 if the flags say so. -/
def nameText (flags : Nat) (bytes : List UInt8) : Except Fault String :=
  if flags.testBit 11 then (Text.decode bytes).mapError .name else .ok (Text.ofCodePage bytes)

/-- How large a member is, unpacked and packed, and where its header is said to stand. -/
structure Extent where
  size : Nat
  packedSize : Nat
  place : Nat

/-- A number of a header, and the data left for further ones. A number that is too large for its
header is the next one of eight bytes in the data. -/
def largeNumber (large : Bool) (meaning : String) (number : Nat) (data : List UInt8) :
    Except OpenFault (Nat × List UInt8) :=
  if !large then .ok (number, data)
  else if data.length < 8 then .error (.largeNumber meaning)
  else .ok (fieldAt data 0 8, data.drop 8)

/-- The extent with the numbers that were too large for the header. -/
def Extent.enlarge (extent : Extent) (data : List UInt8) : Except OpenFault Extent := do
  let (size, data) ← largeNumber
    (extent.size == 0xFFFFFFFF || extent.size == 0xFFFFFFFFFFFFFFFF) "File size" extent.size data
  let (packedSize, data) ← largeNumber
    (extent.packedSize == 0xFFFFFFFF) "Compress size" extent.packedSize data
  let (place, _) ← largeNumber (extent.place == 0xFFFFFFFF) "Header offset" extent.place data
  return { size, packedSize, place }

/-- The extent of a member by the fields after its name, which have to be whole; `fuel` bounds their
number. -/
def readExtra : Nat → Extent → List UInt8 → Except OpenFault Extent
  | 0, extent, _ => .ok extent
  | fuel + 1, extent, extra =>
    if extra.length < 4 then .ok extent
    else
      let size := fieldAt extra 2 2
      let rest := extra.drop (size + 4)
      if extra.length < size + 4 then .error (.extraField (fieldAt extra 0 2) size)
      else if fieldAt extra 0 2 = 1 then
        (extent.enlarge (slice extra 4 size)).bind (readExtra fuel · rest)
      else readExtra fuel extent rest

/-- The members of a directory, its places moved by `shift`; `total` bytes are done of `size`, and
`fuel` bounds the number of members. -/
def members (shift : Int) (size : Nat) : Nat → Nat → List UInt8 → Except Fault (List Member)
  | 0, _, _ => .ok []
  | fuel + 1, total, bytes => do
    if size ≤ total then return []
    if bytes.length < directoryHeaderSize then throw (.unopenable .directoryTruncated)
    if !directoryMark.isPrefixOf bytes then throw (.unopenable .directoryMark)
    let nameSize := fieldAt bytes 28 2
    let extraSize := fieldAt bytes 30 2
    let flags := fieldAt bytes 8 2
    let writtenName ← nameText flags (slice bytes directoryHeaderSize nameSize)
    let version := fieldAt bytes 6 1
    if 63 < version then throw (.version version)
    let extra := slice bytes (directoryHeaderSize + nameSize) extraSize
    let said : Extent := {
      size := fieldAt bytes 24 4
      packedSize := fieldAt bytes 20 4
      place := fieldAt bytes 42 4 }
    let extent ← (readExtra extra.length said extra).mapError .unopenable
    let member : Member := {
      name := String.ofList (writtenName.toList.takeWhile (· != '\x00'))
      writtenName
      flags
      method := fieldAt bytes 10 2
      checksum := fieldAt bytes 16 4
      packedSize := extent.packedSize
      size := extent.size
      permissions := fieldAt bytes 38 4
      place := extent.place + shift
      limit := 0 }
    let used := directoryHeaderSize + nameSize + extraSize + fieldAt bytes 32 2
    return member :: (← members shift size fuel (total + used) (bytes.drop used))

/-- The members with their limits: each ends where the one after it in the archive starts, the
last one at the directory. -/
def withLimits (directory : Int) (members : List Member) : List Member :=
  let descending := members.zipIdx.mergeSort fun a b => b.1.place ≤ a.1.place
  let limits := (directory :: descending.map (·.1.place)).zip (descending.map (·.2))
  members.zipIdx.map fun (m, index) =>
    { m with limit := ((limits.find? (·.2 == index)).map (·.1)).getD directory }

/-- The members of an archive, in the order of its directory. -/
def contents (reader : Reader) (bytes : List UInt8) : Except Fault (List Member) := do
  let record ← (endRecord reader bytes).mapError .unopenable
  let start := record.stop - record.size
  if start < 0 then throw (.unopenable .directoryOffset)
  let found ← members (start - record.offset) record.size (record.size + 1) 0
    (slice bytes start.toNat record.size)
  return withLimits start found

/-! ## Reading a member -/

/-- How many bytes are read, or made by inflating, at a time. -/
def chunk : Nat := 1024 * 1024 * 1024

/-- How many bytes are read at least, if there are so many. -/
def leastRead : Nat := 4096

/-- Unpack with a decoder, one chunk after the other, until the data or the member is at its end.
Of the packed bytes `before` were given already; `fuel` bounds the number of chunks. -/
def decodeRounds (decoder : Decoder) (m : Member) (packed : List UInt8) :
    Nat → Nat → Except Fault (List UInt8)
  | 0, _ => .error .dataTruncated
  | fuel + 1, before => do
    let given := packed.take (before + chunk)
    if given.length ≤ before && before < m.packedSize then throw .dataTruncated
    let decoded ← (decoder given).mapError .decoding
    if decoded.ended || m.packedSize ≤ given.length || m.size ≤ decoded.bytes.length then
      return decoded.bytes.take m.size
    decodeRounds decoder m packed fuel given.length

/-- Inflate one chunk after the other, until the data or the member is at its end. Of the packed
bytes `before` were read already and `tail` of these not looked at, and `written` bytes were made;
`fuel` bounds the number of chunks. A chunk for which nothing is read comes after one that filled its
room, so there are no more of them than bytes of the member. -/
def inflateRounds (m : Member) (packed : List UInt8) :
    Nat → Nat → Nat → Nat → Except Fault (List UInt8)
  | 0, _, _, _ => .error .dataTruncated
  | fuel + 1, before, tail, written => do
    let asked :=
      if chunk ≤ tail then 0 else min (max (chunk - tail) leastRead) (m.packedSize - before)
    let given := packed.take (before + asked)
    if asked ≠ 0 && given.length ≤ before then throw .dataTruncated
    let inflated ← (inflate (written + max chunk leastRead) given).mapError .packing
    -- at the end of the data, what there was no room for is made up for
    if inflated.ended || (m.packedSize ≤ given.length && inflated.tail == 0) then
      return (inflateAll given).take m.size
    if m.size ≤ inflated.bytes.length then return inflated.bytes.take m.size
    inflateRounds m packed fuel given.length inflated.tail inflated.bytes.length

/-- The packed bytes of a member unpacked. A member that is cut off is an error only if it has to
give more bytes. -/
def unpack (reader : Reader) (m : Member) (packed : List UInt8) : Except Fault (List UInt8) :=
  let decode (decoder : Decoder) := decodeRounds decoder m packed (packed.length + 1) 0
  match m.method with
  | 0 => decode fun given => .ok ⟨given, false⟩
  | 8 => inflateRounds m packed (packed.length + m.size + 1) 0 0 0
  | 12 => reader.bzip2.elim (.error (.noDecoder "bz2")) decode
  | 14 => reader.lzma.elim (.error (.noDecoder "lzma")) decode
  | _ => .error .method

/-- The bytes of a member. -/
def read (reader : Reader) (bytes : List UInt8) (m : Member) : Except Fault (List UInt8) := do
  if let some reason := reader.unreachable m.place then throw (.headerPlace reason)
  let rest := bytes.drop m.place.toNat
  if rest.length < memberHeaderSize then throw .headerTruncated
  if !memberMark.isPrefixOf rest then throw .headerMark
  let nameSize := fieldAt rest 26 2
  let written := slice rest memberHeaderSize nameSize
  if m.flags.testBit 5 then throw .patched
  if m.flags.testBit 6 then throw .stronglyEncrypted
  let name ← nameText (fieldAt rest 6 2) written
  if name ≠ m.writtenName then throw (.nameDiffers m.writtenName written)
  let data := min (m.place.toNat + memberHeaderSize + nameSize + fieldAt rest 28 2) bytes.length
  if m.limit < (data + m.packedSize : Nat) then throw (.overlapping m.writtenName)
  if m.flags.testBit 0 then throw (.encrypted m)
  let content ← unpack reader m (slice bytes data m.packedSize)
  if (checksum content).toNat ≠ m.checksum then throw (.checksum m.name)
  return content

end ScriptSurvey.Archive
