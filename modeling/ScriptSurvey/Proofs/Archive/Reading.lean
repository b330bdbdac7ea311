import Mathlib.Data.List.Basic
import ScriptSurvey.Archive.Zip

/-!
# Which archives can be read

The directory of an archive is read header by header. Either nothing is wrong with a header and it
describes a member (`Describes`), or there is one thing that is found wrong with it (`HeaderFault`):
some of these keep the archive from being opened, but a name that is no text and a version that is
not known do not count among them. A `Walk` takes the headers in order; the contents of an archive
are what a walk to the end of its directory finds (`contents_eq_ok_iff`), and they cannot be told
exactly if a walk ends at a header that something is wrong with, or there is no directory to walk
through (`contents_eq_error_iff`).

Members are checked only when they are read. A member is read exactly if it is `Intact`
(`read_eq_ok_iff`), and if it is not, this is never taken for a fault in the frame of the archive
(`confined_read`).
-/

namespace ScriptSurvey.Archive

/-! ## Fields after a name -/

/-- What comes of the fields after the name of a member, of whose extent the header says `extent`:
the extent that it really has, or what is wrong with the fields. -/
inductive Extended : Extent → List UInt8 → Except OpenFault Extent → Prop
  | done {extent : Extent} {extra : List UInt8} (spent : extra.length < 4) :
      Extended extent extra (.ok extent)
  | cut {extent : Extent} {extra : List UInt8} (begun : 4 ≤ extra.length)
      (short : extra.length < fieldAt extra 2 2 + 4) :
      Extended extent extra (.error (.extraField (fieldAt extra 0 2) (fieldAt extra 2 2)))
  | other {extent : Extent} {extra : List UInt8} {result : Except OpenFault Extent}
      (whole : fieldAt extra 2 2 + 4 ≤ extra.length) (kind : fieldAt extra 0 2 ≠ 1)
      (rest : Extended extent (extra.drop (fieldAt extra 2 2 + 4)) result) :
      Extended extent extra result
  | large {extent larger : Extent} {extra : List UInt8} {result : Except OpenFault Extent}
      (whole : fieldAt extra 2 2 + 4 ≤ extra.length) (kind : fieldAt extra 0 2 = 1)
      (enlarged : extent.enlarge (slice extra 4 (fieldAt extra 2 2)) = .ok larger)
      (rest : Extended larger (extra.drop (fieldAt extra 2 2 + 4)) result) :
      Extended extent extra result
  | missing {extent : Extent} {extra : List UInt8} {fault : OpenFault}
      (whole : fieldAt extra 2 2 + 4 ≤ extra.length) (kind : fieldAt extra 0 2 = 1)
      (short : extent.enlarge (slice extra 4 (fieldAt extra 2 2)) = .error fault) :
      Extended extent extra (.error fault)

section Extra

variable {fuel : Nat} {extent : Extent} {extra : List UInt8} {result : Except OpenFault Extent}

theorem readExtra_of_whole (whole : fieldAt extra 2 2 + 4 ≤ extra.length) :
    readExtra (fuel + 1) extent extra =
      if fieldAt extra 0 2 = 1 then
        (extent.enlarge (slice extra 4 (fieldAt extra 2 2))).bind
          (readExtra fuel · (extra.drop (fieldAt extra 2 2 + 4)))
      else readExtra fuel extent (extra.drop (fieldAt extra 2 2 + 4)) := by
  rw [readExtra, if_neg (by omega), if_neg (by omega)]

/-- With enough fuel for the fields, something comes of reading them. -/
theorem extended_readExtra (enough : extra.length ≤ fuel) :
    Extended extent extra (readExtra fuel extent extra) := by
  induction fuel generalizing extent extra with
  | zero => exact .done (by omega)
  | succ fuel ih =>
    by_cases spent : extra.length < 4
    · rw [readExtra, if_pos spent]
      exact .done spent
    by_cases short : extra.length < fieldAt extra 2 2 + 4
    · rw [readExtra, if_neg spent, if_pos short]
      exact .cut (by omega) short
    have whole : fieldAt extra 2 2 + 4 ≤ extra.length := by omega
    have less : (extra.drop (fieldAt extra 2 2 + 4)).length ≤ fuel := by
      rw [List.length_drop]
      omega
    rw [readExtra_of_whole whole]
    split_ifs with kind
    · cases enlarged : extent.enlarge (slice extra 4 (fieldAt extra 2 2)) with
      | error fault => exact .missing whole kind enlarged
      | ok larger => exact .large whole kind enlarged (ih less)
    · exact .other whole kind (ih less)

theorem Extended.readExtra_eq (h : Extended extent extra result) (enough : extra.length ≤ fuel) :
    readExtra fuel extent extra = result := by
  induction h generalizing fuel with
  | done spent =>
    cases fuel with
    | zero => rw [readExtra]
    | succ fuel => rw [readExtra, if_pos spent]
  | cut begun short =>
    obtain ⟨fuel, rfl⟩ : ∃ less, fuel = less + 1 := Nat.exists_eq_add_one.mpr (by omega)
    rw [readExtra, if_neg (by omega), if_pos short]
  | other whole kind rest ih =>
    obtain ⟨fuel, rfl⟩ : ∃ less, fuel = less + 1 := Nat.exists_eq_add_one.mpr (by omega)
    rw [readExtra_of_whole whole, if_neg kind]
    exact ih (by rw [List.length_drop]; omega)
  | large whole kind enlarged rest ih =>
    obtain ⟨fuel, rfl⟩ : ∃ less, fuel = less + 1 := Nat.exists_eq_add_one.mpr (by omega)
    rw [readExtra_of_whole whole, if_pos kind, enlarged]
    exact ih (by rw [List.length_drop]; omega)
  | missing whole kind short =>
    obtain ⟨fuel, rfl⟩ : ∃ less, fuel = less + 1 := Nat.exists_eq_add_one.mpr (by omega)
    rw [readExtra_of_whole whole, if_pos kind, short]
    rfl

end Extra

/-! ## Headers of the directory -/

/-- How many bytes the header at the start of `bytes` and what belongs to it take. -/
def headerSpan (bytes : List UInt8) : Nat :=
  directoryHeaderSize + fieldAt bytes 28 2 + fieldAt bytes 30 2 + fieldAt bytes 32 2

/-- The name in the header at the start of `bytes`. -/
def headerName (bytes : List UInt8) : Except Fault String :=
  nameText (fieldAt bytes 8 2) (slice bytes directoryHeaderSize (fieldAt bytes 28 2))

/-- The fields after the name in the header at the start of `bytes`. -/
def headerExtra (bytes : List UInt8) : List UInt8 :=
  slice bytes (directoryHeaderSize + fieldAt bytes 28 2) (fieldAt bytes 30 2)

/-- The extent of its member by the header at the start of `bytes` alone. -/
def headerExtent (bytes : List UInt8) : Extent where
  size := fieldAt bytes 24 4
  packedSize := fieldAt bytes 20 4
  place := fieldAt bytes 42 4

/-- The member of an extent and a name that the header at the start of `bytes` describes. -/
def headerMember (shift : Int) (bytes : List UInt8) (extent : Extent) (writtenName : String) :
    Member where
  name := String.ofList (writtenName.toList.takeWhile (· != '\x00'))
  writtenName
  flags := fieldAt bytes 8 2
  method := fieldAt bytes 10 2
  checksum := fieldAt bytes 16 4
  packedSize := extent.packedSize
  size := extent.size
  permissions := fieldAt bytes 38 4
  place := extent.place + shift
  limit := 0

theorem exists_of_nameText_eq_error {flags : Nat} {bytes : List UInt8} {fault : Fault}
    (h : nameText flags bytes = .error fault) : ∃ unread, fault = .name unread := by
  unfold nameText at h
  split at h
  · cases hd : Text.decode bytes with
    | error unread =>
      rw [hd] at h
      exact ⟨unread, (Except.error.inj h).symm⟩
    | ok text =>
      rw [hd] at h
      cases h
  · cases h

/-- What is wrong with the header at the start of `bytes`. -/
inductive HeaderFault (bytes : List UInt8) : Fault → Prop
  | truncated (short : bytes.length < directoryHeaderSize) :
      HeaderFault bytes (.unopenable .directoryTruncated)
  | mark (whole : directoryHeaderSize ≤ bytes.length) (other : ¬ directoryMark <+: bytes) :
      HeaderFault bytes (.unopenable .directoryMark)
  | name {fault : Text.Utf8Fault} (whole : directoryHeaderSize ≤ bytes.length)
      (marked : directoryMark <+: bytes) (unread : headerName bytes = .error (.name fault)) :
      HeaderFault bytes (.name fault)
  | version {name : String} (whole : directoryHeaderSize ≤ bytes.length)
      (marked : directoryMark <+: bytes) (named : headerName bytes = .ok name)
      (new : 63 < fieldAt bytes 6 1) : HeaderFault bytes (.version (fieldAt bytes 6 1))
  | extra {name : String} {fault : OpenFault} (whole : directoryHeaderSize ≤ bytes.length)
      (marked : directoryMark <+: bytes) (named : headerName bytes = .ok name)
      (known : fieldAt bytes 6 1 ≤ 63)
      (wrong : Extended (headerExtent bytes) (headerExtra bytes) (.error fault)) :
      HeaderFault bytes (.unopenable fault)

/-- There is nothing wrong with the header at the start of `bytes`, and it describes `m`. -/
structure Describes (shift : Int) (bytes : List UInt8) (m : Member) : Prop where
  whole : directoryHeaderSize ≤ bytes.length
  marked : directoryMark <+: bytes
  named : headerName bytes = .ok m.writtenName
  known : fieldAt bytes 6 1 ≤ 63
  extended : ∃ extent, Extended (headerExtent bytes) (headerExtra bytes) (.ok extent) ∧
    m = headerMember shift bytes extent m.writtenName

/-- The member that the header at the start of `bytes` describes, if nothing is wrong with it. -/
def header (shift : Int) (bytes : List UInt8) : Except Fault Member :=
  if bytes.length < directoryHeaderSize then .error (.unopenable .directoryTruncated)
  else if !directoryMark.isPrefixOf bytes then .error (.unopenable .directoryMark)
  else (headerName bytes).bind fun name =>
    if 63 < fieldAt bytes 6 1 then .error (.version (fieldAt bytes 6 1))
    else ((readExtra (headerExtra bytes).length (headerExtent bytes)
      (headerExtra bytes)).mapError .unopenable).map (headerMember shift bytes · name)

/-- Reading a directory takes it header by header. -/
theorem members_succ (shift : Int) (size fuel total : Nat) (bytes : List UInt8) :
    members shift size (fuel + 1) total bytes =
      if size ≤ total then .ok []
      else (header shift bytes).bind fun m =>
        (members shift size fuel (total + headerSpan bytes) (bytes.drop (headerSpan bytes))).map
          (m :: ·) := by
  have opened : members shift size (fuel + 1) total bytes =
      if size ≤ total then .ok []
      else if bytes.length < directoryHeaderSize then .error (.unopenable .directoryTruncated)
      else if !directoryMark.isPrefixOf bytes then .error (.unopenable .directoryMark)
      else (headerName bytes).bind fun name =>
        if 63 < fieldAt bytes 6 1 then .error (.version (fieldAt bytes 6 1))
        else ((readExtra (headerExtra bytes).length (headerExtent bytes)
          (headerExtra bytes)).mapError .unopenable).bind fun extent =>
            (members shift size fuel (total + headerSpan bytes)
              (bytes.drop (headerSpan bytes))).bind fun found =>
                .ok (headerMember shift bytes extent name :: found) := by
    rw [members]
    rfl
  rw [opened, header]
  by_cases ended : size ≤ total
  · rw [if_pos ended, if_pos ended]
  rw [if_neg ended, if_neg ended]
  by_cases short : bytes.length < directoryHeaderSize
  · rw [if_pos short, if_pos short]
    rfl
  rw [if_neg short, if_neg short]
  by_cases other : (!directoryMark.isPrefixOf bytes) = true
  · rw [if_pos other, if_pos other]
    rfl
  rw [if_neg other, if_neg other]
  cases headerName bytes with
  | error fault => rfl
  | ok name =>
    dsimp only [Except.bind]
    by_cases new : 63 < fieldAt bytes 6 1
    · rw [if_pos new, if_pos new]
    rw [if_neg new, if_neg new]
    cases readExtra (headerExtra bytes).length (headerExtent bytes) (headerExtra bytes) with
    | error fault => rfl
    | ok extent =>
      cases members shift size fuel (total + headerSpan bytes) (bytes.drop (headerSpan bytes)) with
      | error fault => rfl
      | ok found => rfl

section Header

variable {shift : Int} {bytes : List UInt8} {m : Member} {fault : Fault}

theorem header_of_marked (whole : directoryHeaderSize ≤ bytes.length)
    (marked : directoryMark <+: bytes) :
    header shift bytes = (headerName bytes).bind fun name =>
      if 63 < fieldAt bytes 6 1 then .error (.version (fieldAt bytes 6 1))
      else ((readExtra (headerExtra bytes).length (headerExtent bytes)
        (headerExtra bytes)).mapError .unopenable).map (headerMember shift bytes · name) := by
  rw [header, if_neg (by omega), if_neg (by simpa using marked)]

/-- A header is read exactly if nothing is wrong with it. -/
theorem Describes.header_eq (h : Describes shift bytes m) : header shift bytes = .ok m := by
  obtain ⟨extent, extended, member⟩ := h.extended
  have known := h.known
  rw [header_of_marked h.whole h.marked, h.named, Except.bind, if_neg (by omega),
    extended.readExtra_eq (Nat.le_refl _)]
  exact congrArg Except.ok member.symm

theorem HeaderFault.header_eq (h : HeaderFault bytes fault) :
    header shift bytes = .error fault := by
  cases h with
  | truncated short => rw [header, if_pos short]
  | mark whole other =>
    rw [← List.isPrefixOf_iff_prefix, Bool.not_eq_true] at other
    rw [header, if_neg (by omega), other]
    rfl
  | name whole marked unread =>
    rw [header_of_marked whole marked, unread]
    rfl
  | version whole marked named new =>
    rw [header_of_marked whole marked, named, Except.bind, if_pos new]
  | extra whole marked named known wrong =>
    rw [header_of_marked whole marked, named, Except.bind, if_neg (by omega),
      wrong.readExtra_eq (Nat.le_refl _)]
    rfl

theorem header_cases (shift : Int) (bytes : List UInt8) :
    (∃ m, Describes shift bytes m) ∨ ∃ fault, HeaderFault bytes fault := by
  by_cases whole : directoryHeaderSize ≤ bytes.length
  case neg => exact .inr ⟨_, .truncated (by omega)⟩
  by_cases marked : directoryMark <+: bytes
  case neg => exact .inr ⟨_, .mark whole marked⟩
  cases named : headerName bytes with
  | error fault =>
    obtain ⟨unread, rfl⟩ := exists_of_nameText_eq_error named
    exact .inr ⟨_, .name whole marked named⟩
  | ok name =>
    by_cases known : fieldAt bytes 6 1 ≤ 63
    case neg => exact .inr ⟨_, .version whole marked named (by omega)⟩
    have extended : Extended (headerExtent bytes) (headerExtra bytes) _ :=
      extended_readExtra (Nat.le_refl _)
    cases hr : readExtra (headerExtra bytes).length (headerExtent bytes) (headerExtra bytes) with
    | error fault => exact .inr ⟨_, .extra whole marked named known (hr ▸ extended)⟩
    | ok extent =>
      exact .inl ⟨headerMember shift bytes extent name, whole, marked, named, known, extent,
        hr ▸ extended, rfl⟩

end Header

/-! ## The directory -/

/-- Headers that stand one after the other in a directory of `size` bytes, from `total` on, and
describe `found`; what is left then starts at `reached`. -/
inductive Walk (shift : Int) (size : Nat) :
    Nat → List UInt8 → List Member → Nat → List UInt8 → Prop
  | done (total : Nat) (bytes : List UInt8) : Walk shift size total bytes [] total bytes
  | next {total reached : Nat} {bytes left : List UInt8} {m : Member} {found : List Member}
      (more : total < size) (describes : Describes shift bytes m)
      (rest : Walk shift size (total + headerSpan bytes) (bytes.drop (headerSpan bytes)) found
        reached left) :
      Walk shift size total bytes (m :: found) reached left

section Walk

variable {shift : Int} {size fuel total : Nat} {bytes : List UInt8} {found : List Member}
  {fault : Fault}

/-- With enough fuel for the directory, reading it ends where it ends or at a header that something
is wrong with. -/
theorem members_cases (shift : Int) (bytes : List UInt8) (enough : size < total + fuel) :
    (∃ found reached left, Walk shift size total bytes found reached left ∧ size ≤ reached ∧
      members shift size fuel total bytes = .ok found) ∨
    ∃ found reached left fault, Walk shift size total bytes found reached left ∧ reached < size ∧
      HeaderFault left fault ∧ members shift size fuel total bytes = .error fault := by
  induction fuel generalizing total bytes with
  | zero => exact .inl ⟨[], total, bytes, .done total bytes, by omega, by rw [members]⟩
  | succ fuel ih =>
    rw [members_succ]
    by_cases ended : size ≤ total
    · exact .inl ⟨[], total, bytes, .done total bytes, ended, by rw [if_pos ended]⟩
    rw [if_neg ended]
    obtain ⟨m, describes⟩ | ⟨fault, wrong⟩ := header_cases shift bytes
    · have progress : 0 < headerSpan bytes := by
        rw [headerSpan, directoryHeaderSize]
        omega
      rw [describes.header_eq]
      have below : size < total + headerSpan bytes + fuel := by omega
      obtain ⟨found, reached, left, walk, ends, hm⟩ |
          ⟨found, reached, left, fault, walk, more, wrong, hm⟩ :=
        ih (bytes.drop (headerSpan bytes)) below
      · exact .inl ⟨m :: found, reached, left, .next (by omega) describes walk, ends,
          by rw [hm]; rfl⟩
      · exact .inr ⟨m :: found, reached, left, fault, .next (by omega) describes walk, more, wrong,
          by rw [hm]; rfl⟩
    · exact .inr ⟨[], total, bytes, fault, .done total bytes, by omega, wrong,
        by rw [wrong.header_eq]; rfl⟩

/-- Reading a directory takes the headers of a walk and goes on from where it ends. -/
theorem Walk.members_eq {reached : Nat} {left : List UInt8}
    (walk : Walk shift size total bytes found reached left) (enough : size < total + fuel) :
    ∃ fuel', size < reached + fuel' ∧ members shift size fuel total bytes =
      (members shift size fuel' reached left).map (found ++ ·) := by
  induction walk generalizing fuel with
  | done total bytes =>
    refine ⟨fuel, enough, ?_⟩
    cases members shift size fuel total bytes <;> rfl
  | @next total reached bytes left m found more describes rest ih =>
    obtain ⟨fuel, rfl⟩ : ∃ less, fuel = less + 1 := Nat.exists_eq_add_one.mpr (by omega)
    have progress : 0 < headerSpan bytes := by
      rw [headerSpan, directoryHeaderSize]
      omega
    have below : size < total + headerSpan bytes + fuel := by omega
    obtain ⟨fuel', enough', hm⟩ := ih below
    refine ⟨fuel', enough', ?_⟩
    rw [members_succ, if_neg (by omega), describes.header_eq, Except.bind, hm]
    cases members shift size fuel' reached left <;> rfl

theorem members_eq_ok_iff (enough : size < total + fuel) :
    members shift size fuel total bytes = .ok found ↔
      ∃ reached left, Walk shift size total bytes found reached left ∧ size ≤ reached := by
  constructor
  · intro h
    obtain ⟨other, reached, left, walk, ends, hm⟩ | ⟨_, _, _, fault, -, -, -, hm⟩ :=
      members_cases shift bytes enough
    · obtain rfl : other = found := Except.ok.inj (hm.symm.trans h)
      exact ⟨reached, left, walk, ends⟩
    · cases hm.symm.trans h
  · rintro ⟨reached, left, walk, ends⟩
    obtain ⟨fuel', -, hm⟩ := walk.members_eq enough
    have ended : members shift size fuel' reached left = .ok [] := by
      cases fuel' with
      | zero => rw [members]
      | succ fuel' => rw [members_succ, if_pos ends]
    rw [hm, ended]
    exact congrArg Except.ok (List.append_nil found)

theorem members_eq_error_iff (enough : size < total + fuel) :
    members shift size fuel total bytes = .error fault ↔
      ∃ found reached left, Walk shift size total bytes found reached left ∧ reached < size ∧
        HeaderFault left fault := by
  constructor
  · intro h
    obtain ⟨_, _, _, -, -, hm⟩ | ⟨found, reached, left, other, walk, more, wrong, hm⟩ :=
      members_cases shift bytes enough
    · cases hm.symm.trans h
    · obtain rfl : other = fault := Except.error.inj (hm.symm.trans h)
      exact ⟨found, reached, left, walk, more, wrong⟩
  · rintro ⟨found, reached, left, walk, more, wrong⟩
    obtain ⟨fuel', enough', hm⟩ := walk.members_eq enough
    obtain ⟨fuel', rfl⟩ : ∃ less, fuel' = less + 1 := Nat.exists_eq_add_one.mpr (by omega)
    rw [hm, members_succ, if_neg (by omega), wrong.header_eq]
    rfl

end Walk

/-! ## The archive -/

/-- By its end, an archive has a directory of `size` bytes from `start` on, and the places in it are
to be moved by `shift`. -/
def Framed (reader : Reader) (bytes : List UInt8) (start size : Nat) (shift : Int) : Prop :=
  ∃ offset, endRecord reader bytes = .ok ⟨(start + size : Nat), size, offset⟩ ∧
    shift = start - offset

/-- What is wrong with an archive as a whole: it has no end record or one that cannot be used, its
directory would start before it, or there is something wrong with a header after those of
`found`. -/
inductive Broken (reader : Reader) (bytes : List UInt8) : Fault → Prop
  | unended {fault : OpenFault} (none : endRecord reader bytes = .error fault) :
      Broken reader bytes (.unopenable fault)
  | offset {record : EndRecord} (ends : endRecord reader bytes = .ok record)
      (short : record.stop < record.size) : Broken reader bytes (.unopenable .directoryOffset)
  | header {start size reached : Nat} {shift : Int} {found : List Member} {left : List UInt8}
      {fault : Fault} (framed : Framed reader bytes start size shift)
      (walk : Walk shift size 0 (slice bytes start size) found reached left)
      (more : reached < size) (wrong : HeaderFault left fault) : Broken reader bytes fault

/-- The directory of an archive lists `found`, and there is nothing wrong with it. -/
def Lists (reader : Reader) (bytes : List UInt8) (found : List Member) : Prop :=
  ∃ start size shift described reached left, Framed reader bytes start size shift ∧
    Walk shift size 0 (slice bytes start size) described reached left ∧ size ≤ reached ∧
    found = withLimits start described

section Contents

variable {reader : Reader} {bytes : List UInt8} {found : List Member} {fault : Fault}

theorem contents_eq (reader : Reader) (bytes : List UInt8) : contents reader bytes =
    ((endRecord reader bytes).mapError .unopenable).bind fun record =>
      if record.stop - record.size < 0 then .error (.unopenable .directoryOffset)
      else (members (record.stop - record.size - record.offset) record.size (record.size + 1) 0
        (slice bytes (record.stop - record.size).toNat record.size)).bind fun found =>
          .ok (withLimits (record.stop - record.size) found) := by
  rw [contents]
  rfl

theorem Framed.contents_eq {start size : Nat} {shift : Int}
    (h : Framed reader bytes start size shift) :
    contents reader bytes = (members shift size (size + 1) 0 (slice bytes start size)).map
      (withLimits start) := by
  obtain ⟨offset, ends, rfl⟩ := h
  have moved : ((start + size : Nat) : Int) - size = start := by omega
  rw [Archive.contents_eq, ends]
  dsimp only [Except.mapError, Except.bind]
  rw [moved, if_neg (by omega), Int.toNat_natCast]
  cases members (start - offset) size (size + 1) 0 (slice bytes start size) <;> rfl

theorem contents_of_short {record : EndRecord} (ends : endRecord reader bytes = .ok record)
    (short : record.stop < record.size) :
    contents reader bytes = .error (.unopenable .directoryOffset) := by
  rw [contents_eq, ends]
  exact if_pos (by omega)

theorem contents_of_unended {fault : OpenFault} (none : endRecord reader bytes = .error fault) :
    contents reader bytes = .error (.unopenable fault) := by
  rw [contents_eq, none]
  rfl

/-- An archive has a frame, or it is broken for the lack of one. -/
theorem frame_cases (reader : Reader) (bytes : List UInt8) :
    (∃ start size shift, Framed reader bytes start size shift) ∨
      ∃ fault, Broken reader bytes fault ∧ contents reader bytes = .error fault := by
  cases ends : endRecord reader bytes with
  | error fault => exact .inr ⟨_, .unended ends, contents_of_unended ends⟩
  | ok record =>
    by_cases short : record.stop < record.size
    · exact .inr ⟨_, .offset ends short, contents_of_short ends short⟩
    · have stop_eq : (((record.stop - record.size).toNat + record.size : Nat) : Int) =
          record.stop := by omega
      exact .inl ⟨(record.stop - record.size).toNat, record.size, _, record.offset,
        by rw [ends, stop_eq], rfl⟩

/-- **The contents of an archive** are what its directory lists, if nothing is wrong with it. -/
theorem contents_eq_ok_iff : contents reader bytes = .ok found ↔ Lists reader bytes found := by
  constructor
  · intro h
    obtain ⟨start, size, shift, framed⟩ | ⟨fault, -, failed⟩ := frame_cases reader bytes
    · rw [framed.contents_eq] at h
      cases hm : members shift size (size + 1) 0 (slice bytes start size) with
      | error fault =>
        rw [hm] at h
        cases h
      | ok described =>
        rw [hm] at h
        obtain ⟨reached, left, walk, ended⟩ := (members_eq_ok_iff (by omega)).mp hm
        exact ⟨start, size, shift, described, reached, left, framed, walk, ended,
          (Except.ok.inj h).symm⟩
    · cases failed.symm.trans h
  · rintro ⟨start, size, shift, described, reached, left, framed, walk, ended, rfl⟩
    rw [framed.contents_eq, (members_eq_ok_iff (by omega)).mpr ⟨reached, left, walk, ended⟩]
    rfl

/-- The contents cannot be told exactly if something is wrong with the archive as a whole. -/
theorem contents_eq_error_iff :
    contents reader bytes = .error fault ↔ Broken reader bytes fault := by
  constructor
  · intro h
    obtain ⟨start, size, shift, framed⟩ | ⟨other, broken, failed⟩ := frame_cases reader bytes
    · rw [framed.contents_eq] at h
      cases hm : members shift size (size + 1) 0 (slice bytes start size) with
      | error other =>
        rw [hm] at h
        obtain rfl : other = fault := Except.error.inj h
        obtain ⟨found, reached, left, walk, more, wrong⟩ := (members_eq_error_iff (by omega)).mp hm
        exact .header framed walk more wrong
      | ok described =>
        rw [hm] at h
        cases h
    · obtain rfl : other = fault := Except.error.inj (failed.symm.trans h)
      exact broken
  · intro broken
    cases broken with
    | unended none => exact contents_of_unended none
    | offset ends short => exact contents_of_short ends short
    | header framed walk more wrong =>
      rw [framed.contents_eq, (members_eq_error_iff (by omega)).mpr ⟨_, _, _, walk, more, wrong⟩]
      rfl

end Contents

/-! ## Members -/

/-- Where the packed bytes of a member start, by its own header. -/
def Member.dataPlace (bytes : List UInt8) (m : Member) : Nat :=
  let rest := bytes.drop m.place.toNat
  min (m.place.toNat + memberHeaderSize + fieldAt rest 26 2 + fieldAt rest 28 2) bytes.length

/-- The name of a member by its own header. -/
def Member.nameAtPlace (bytes : List UInt8) (m : Member) : Except Fault String :=
  let rest := bytes.drop m.place.toNat
  nameText (fieldAt rest 6 2) (slice rest memberHeaderSize (fieldAt rest 26 2))

/-- A member can be read, and holds `content`: its header is there, has the name that the directory
gives and asks for nothing that is not supported, and its packed bytes end before what follows it
and unpack to bytes with the right checksum. -/
structure Member.Intact (reader : Reader) (bytes : List UInt8) (m : Member)
    (content : List UInt8) : Prop where
  placed : reader.unreachable m.place = none
  whole : memberHeaderSize ≤ (bytes.drop m.place.toNat).length
  marked : memberMark <+: bytes.drop m.place.toNat
  unpatched : m.flags.testBit 5 = false
  unencrypted : m.flags.testBit 6 = false ∧ m.flags.testBit 0 = false
  named : m.nameAtPlace bytes = .ok m.writtenName
  apart : (m.dataPlace bytes + m.packedSize : Nat) ≤ m.limit
  unpacked : unpack reader m (slice bytes (m.dataPlace bytes) m.packedSize) = .ok content
  checked : (Archive.checksum content).toNat = m.checksum

section Read

variable {reader : Reader} {bytes : List UInt8} {m : Member} {content : List UInt8} {fault : Fault}

theorem read_eq (reader : Reader) (bytes : List UInt8) (m : Member) : read reader bytes m =
    (reader.unreachable m.place).elim
      (if (bytes.drop m.place.toNat).length < memberHeaderSize then .error .headerTruncated
      else if !memberMark.isPrefixOf (bytes.drop m.place.toNat) then .error .headerMark
      else if m.flags.testBit 5 then .error .patched
      else if m.flags.testBit 6 then .error .stronglyEncrypted
      else (m.nameAtPlace bytes).bind fun name =>
        if name ≠ m.writtenName then
          .error (.nameDiffers m.writtenName (slice (bytes.drop m.place.toNat) memberHeaderSize
            (fieldAt (bytes.drop m.place.toNat) 26 2)))
        else if m.limit < (m.dataPlace bytes + m.packedSize : Nat) then
          .error (.overlapping m.writtenName)
        else if m.flags.testBit 0 then .error (.encrypted m)
        else (unpack reader m (slice bytes (m.dataPlace bytes) m.packedSize)).bind fun content =>
          if (checksum content).toNat ≠ m.checksum then .error (.checksum m.name)
          else .ok content)
      fun reason => .error (.headerPlace reason) := by
  rw [read]
  cases reader.unreachable m.place <;> rfl

theorem elim_eq_ok_iff {α : Type} {reason : Option String} {fault : String → Fault}
    {result : Except Fault α} {a : α} :
    reason.elim result (fun reason => .error (fault reason)) = .ok a ↔
      reason = none ∧ result = .ok a := by
  cases reason <;> simp

theorem guard_eq_ok_iff {α : Type} {c : Prop} [Decidable c] {result : Except Fault α} {a : α} :
    (if c then .error fault else result) = .ok a ↔ ¬ c ∧ result = .ok a := by
  split_ifs with h <;> simp [h]

theorem bind_eq_ok_iff {α β : Type} {result : Except Fault α} {next : α → Except Fault β} {b : β} :
    result.bind next = .ok b ↔ ∃ a, result = .ok a ∧ next a = .ok b := by
  cases result with
  | error fault => simp [Except.bind]
  | ok a => simp [Except.bind]

/-- **A member is read** exactly if it is intact. -/
theorem read_eq_ok_iff : read reader bytes m = .ok content ↔ m.Intact reader bytes content := by
  simp only [read_eq, elim_eq_ok_iff, guard_eq_ok_iff, bind_eq_ok_iff]
  constructor
  · rintro ⟨placed, whole, marked, patched, strong, name, named, same, apart, encrypted,
      unpacked, hu, checked, hc⟩
    obtain rfl : name = m.writtenName := not_not.mp same
    cases hc
    exact
      { placed
        whole := by omega
        marked := by simpa using marked
        unpatched := by simpa using patched
        unencrypted := ⟨by simpa using strong, by simpa using encrypted⟩
        named
        apart := by omega
        unpacked := hu
        checked := not_not.mp checked }
  · intro h
    have whole := h.whole
    have apart := h.apart
    exact ⟨h.placed, by omega, by simpa using h.marked, by simp [h.unpatched],
      by simp [h.unencrypted], m.writtenName, h.named, not_not.mpr rfl, by omega,
      by simp [h.unencrypted], content, h.unpacked, not_not.mpr h.checked, rfl⟩

/-- The result is no fault in the frame of an archive. -/
def Confined {α : Type} (result : Except Fault α) : Prop :=
  ∀ opening, result ≠ .error (.unopenable opening)

theorem confined_ok {α : Type} (a : α) : Confined (.ok a) :=
  fun _ h => by cases h

theorem confined_error {α : Type} (hf : ∀ opening, fault ≠ .unopenable opening) :
    Confined (α := α) (.error fault) :=
  fun opening h => hf opening (Except.error.inj h)

theorem confined_mapError {α ε : Type} {f : ε → Fault} (hf : ∀ e opening, f e ≠ .unopenable opening)
    (result : Except ε α) : Confined (result.mapError f) := by
  cases result with
  | error e => exact confined_error (hf e)
  | ok a => exact confined_ok a

theorem Confined.ite {α : Type} {c : Prop} [Decidable c] {a b : Except Fault α}
    (ha : Confined a) (hb : Confined b) : Confined (if c then a else b) := by
  split_ifs
  · exact ha
  · exact hb

theorem Confined.guard {α : Type} {c : Prop} [Decidable c] {result : Except Fault α}
    (hf : ∀ opening, fault ≠ .unopenable opening) (hr : Confined result) :
    Confined (if c then .error fault else result) :=
  .ite (confined_error hf) hr

theorem Confined.bind {α β : Type} {result : Except Fault α} {next : α → Except Fault β}
    (hr : Confined result) (hn : ∀ a, Confined (next a)) : Confined (result.bind next) := by
  intro opening h
  cases result with
  | error fault => exact hr opening (congrArg Except.error (Except.error.inj h))
  | ok a => exact hn a opening h

theorem confined_nameText (flags : Nat) (bytes : List UInt8) : Confined (nameText flags bytes) := by
  intro opening h
  obtain ⟨unread, hn⟩ := exists_of_nameText_eq_error h
  cases hn

theorem confined_decodeRounds (decoder : Decoder) (m : Member) (packed : List UInt8)
    (fuel before : Nat) : Confined (decodeRounds decoder m packed fuel before) := by
  induction fuel generalizing before with
  | zero => exact confined_error (by simp)
  | succ fuel ih =>
    have opened : decodeRounds decoder m packed (fuel + 1) before =
        let given := packed.take (before + chunk)
        if given.length ≤ before && before < m.packedSize then .error .dataTruncated
        else ((decoder given).mapError .decoding).bind fun decoded =>
          if decoded.ended || m.packedSize ≤ given.length || m.size ≤ decoded.bytes.length then
            .ok (decoded.bytes.take m.size)
          else decodeRounds decoder m packed fuel given.length := by
      rw [decodeRounds]
      rfl
    rw [opened]
    exact .guard (by simp) (.bind (confined_mapError (by simp) _) fun decoded =>
      .ite (confined_ok _) (ih _))

theorem confined_inflateRounds (m : Member) (packed : List UInt8) (fuel before tail written : Nat) :
    Confined (inflateRounds m packed fuel before tail written) := by
  induction fuel generalizing before tail written with
  | zero => exact confined_error (by simp)
  | succ fuel ih =>
    have opened : inflateRounds m packed (fuel + 1) before tail written =
        let asked :=
          if chunk ≤ tail then 0 else min (max (chunk - tail) leastRead) (m.packedSize - before)
        let given := packed.take (before + asked)
        if asked ≠ 0 && given.length ≤ before then .error .dataTruncated
        else ((inflate (written + max chunk leastRead) given).mapError .packing).bind
          fun inflated =>
            if inflated.ended || (m.packedSize ≤ given.length && inflated.tail == 0) then
              .ok ((inflateAll given).take m.size)
            else if m.size ≤ inflated.bytes.length then .ok (inflated.bytes.take m.size)
            else inflateRounds m packed fuel given.length inflated.tail inflated.bytes.length := by
      rw [inflateRounds]
      rfl
    rw [opened]
    exact .guard (by simp) (.bind (confined_mapError (by simp) _) fun inflated =>
      .ite (confined_ok _) (.ite (confined_ok _) (ih _ _ _)))

theorem confined_unpack (reader : Reader) (m : Member) (packed : List UInt8) :
    Confined (unpack reader m packed) := by
  have decoding : ∀ (needed : String) (decoder? : Option Decoder),
      Confined (decoder?.elim (.error (.noDecoder needed)) fun decoder =>
        decodeRounds decoder m packed (packed.length + 1) 0) := by
    intro needed decoder?
    cases decoder? with
    | none => exact confined_error (by simp)
    | some decoder => exact confined_decodeRounds _ _ _ _ _
  unfold unpack
  dsimp only
  split
  · exact confined_decodeRounds _ _ _ _ _
  · exact confined_inflateRounds _ _ _ _ _ _
  · exact decoding _ _
  · exact decoding _ _
  · exact confined_error (by simp)

/-- What is wrong with a member is nothing that keeps an archive from being opened. -/
theorem confined_read (reader : Reader) (bytes : List UInt8) (m : Member) :
    Confined (read reader bytes m) := by
  rw [read_eq]
  cases reader.unreachable m.place with
  | some reason => exact confined_error (by simp)
  | none =>
    refine .guard (by simp) <| .guard (by simp) <| .guard (by simp) <| .guard (by simp) <|
      .bind (confined_nameText _ _) fun name => ?_
    refine .guard (by simp) <| .guard (by simp) <| .guard (by simp) <|
      .bind (confined_unpack _ _ _) fun content => ?_
    exact .guard (by simp) (confined_ok _)

end Read

end ScriptSurvey.Archive
