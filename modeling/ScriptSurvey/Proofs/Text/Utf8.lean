import Mathlib.Data.List.Basic
import ScriptSurvey.Text.Utf8

/-!
# Reading what was written as UTF-8

The bytes of a character are a byte that stands for it alone, or a first byte and others that
complete it (`lead_utf8EncodeChar`). Strict reading therefore takes the bytes of a text character by
character and gives the text back (`decode_encode`). The limits on second bytes leave no other
spelling of a character (`utf8EncodeChar_of_lead_start`), so strict reading accepts nothing else
(`decode_eq_ok_iff`).
-/

namespace ScriptSurvey.Text

theorem encode_eq_flatMap (text : String) :
    encode text = text.toList.flatMap String.utf8EncodeChar := by
  rw [encode, String.toUTF8, ← String.utf8Encode_toList, List.utf8Encode,
    List.toList_data_toByteArray]

/-! ## The bytes of one character -/

/-- Whether bytes complete a character that was begun. -/
def Pending.Completes (c : Char) : Pending → List UInt8 → Prop
  | _, [] => False
  | p, [b] => p.next? b = some (.inl c)
  | p, b :: bs => ∃ q, p.next? b = some (.inr q) ∧ q.Completes c bs

section Bytes

variable {n : Nat}

theorem lead_of_lt_two_bytes (h : 2 ≤ n) (h' : n < 32) :
    lead (UInt8.ofNat (n + 192)) = .start ⟨1, 0x80, 0xBF, n⟩ := by
  have hm : (n + 192) % 256 = n + 192 := by omega
  simp only [lead, UInt8.lt_iff_toNat_lt, UInt8.toNat_ofNat', hm, UInt8.reduceToNat, Nat.reducePow]
  rw [if_neg (by omega), if_neg (by omega), if_pos (by omega)]
  congr 2
  omega

theorem lead_of_lt_three_bytes (h : n < 16) :
    lead (UInt8.ofNat (n + 224)) =
      .start ⟨2, if n = 0 then 0xA0 else 0x80, if n = 13 then 0x9F else 0xBF, n⟩ := by
  have hm : (n + 224) % 256 = n + 224 := by omega
  simp only [lead, UInt8.lt_iff_toNat_lt, ← UInt8.toNat_inj, UInt8.toNat_ofNat', hm,
    UInt8.reduceToNat, Nat.reducePow]
  rw [if_neg (by omega), if_neg (by omega), if_neg (by omega), if_pos (by omega)]
  congr 2
  · exact if_congr (by omega) rfl rfl
  · exact if_congr (by omega) rfl rfl
  · omega

theorem lead_of_lt_four_bytes (h : n < 5) :
    lead (UInt8.ofNat (n + 240)) =
      .start ⟨3, if n = 0 then 0x90 else 0x80, if n = 4 then 0x8F else 0xBF, n⟩ := by
  have hm : (n + 240) % 256 = n + 240 := by omega
  simp only [lead, UInt8.lt_iff_toNat_lt, ← UInt8.toNat_inj, UInt8.toNat_ofNat', hm,
    UInt8.reduceToNat, Nat.reducePow]
  rw [if_neg (by omega), if_neg (by omega), if_neg (by omega), if_neg (by omega),
    if_pos (by omega)]
  congr 2
  · exact if_congr (by omega) rfl rfl
  · exact if_congr (by omega) rfl rfl
  · omega

/-- The last byte of a character adds its six bits. -/
theorem next?_last {low high : UInt8} (bits : Nat) (h : n < 64) (hl : low.toNat ≤ n + 128)
    (hh : n + 128 ≤ high.toNat) :
    Pending.next? ⟨1, low, high, bits⟩ (UInt8.ofNat (n + 128)) =
      some (.inl (Char.ofNat (bits * 64 + n))) := by
  have hm : (n + 128) % 256 = n + 128 := by omega
  have hb : (n + 128) % 64 = n := by omega
  simp only [Pending.next?, UInt8.le_iff_toNat_le, UInt8.toNat_ofNat', Nat.reducePow, hm, hb]
  rw [if_pos ⟨hl, hh⟩, if_pos (Nat.le_refl 1)]

/-- A byte on the way adds its six bits. -/
theorem next?_more {low high : UInt8} (owed bits : Nat) (h : n < 64) (hl : low.toNat ≤ n + 128)
    (hh : n + 128 ≤ high.toNat) :
    Pending.next? ⟨owed + 2, low, high, bits⟩ (UInt8.ofNat (n + 128)) =
      some (.inr ⟨owed + 1, 0x80, 0xBF, bits * 64 + n⟩) := by
  have hm : (n + 128) % 256 = n + 128 := by omega
  have hb : (n + 128) % 64 = n := by omega
  simp only [Pending.next?, UInt8.le_iff_toNat_le, UInt8.toNat_ofNat', Nat.reducePow, hm, hb]
  rw [if_pos ⟨hl, hh⟩, if_neg (by omega)]
  rfl

end Bytes

section Completes

variable (v : Nat)

theorem completes_one :
    Pending.Completes (Char.ofNat v) ⟨1, 0x80, 0xBF, v / 64⟩ [UInt8.ofNat (v % 64 + 128)] := by
  have last : Pending.next? ⟨1, 0x80, 0xBF, v / 64⟩ (UInt8.ofNat (v % 64 + 128)) =
      some (.inl (Char.ofNat (v / 64 * 64 + v % 64))) :=
    next?_last (v / 64) (by omega) (by simp) (by simp; omega)
  rwa [show v / 64 * 64 + v % 64 = v by omega] at last

theorem completes_two {low high : UInt8} (hl : low.toNat ≤ v / 64 % 64 + 128)
    (hh : v / 64 % 64 + 128 ≤ high.toNat) :
    Pending.Completes (Char.ofNat v) ⟨2, low, high, v / 4096⟩
      [UInt8.ofNat (v / 64 % 64 + 128), UInt8.ofNat (v % 64 + 128)] := by
  have next := next?_more 0 (v / 4096) (by omega) hl hh
  rw [show v / 4096 * 64 + v / 64 % 64 = v / 64 by omega] at next
  exact ⟨_, next, completes_one v⟩

theorem completes_three {low high : UInt8} (hl : low.toNat ≤ v / 4096 % 64 + 128)
    (hh : v / 4096 % 64 + 128 ≤ high.toNat) :
    Pending.Completes (Char.ofNat v) ⟨3, low, high, v / 262144⟩
      [UInt8.ofNat (v / 4096 % 64 + 128), UInt8.ofNat (v / 64 % 64 + 128),
        UInt8.ofNat (v % 64 + 128)] := by
  have next := next?_more 1 (v / 262144) (by omega) hl hh
  rw [show v / 262144 * 64 + v / 4096 % 64 = v / 4096 by omega] at next
  exact ⟨_, next, completes_two v (by simp) (by simp; omega)⟩

end Completes

/-- The bytes of a character: one that stands for it alone, or a first one and those that complete
it. -/
theorem lead_utf8EncodeChar (c : Char) :
    (∃ b, String.utf8EncodeChar c = [b] ∧ lead b = .single c) ∨
      ∃ b p bs, String.utf8EncodeChar c = b :: bs ∧ lead b = .start p ∧ p.Completes c bs := by
  have valid : c.val.toNat < 0xD800 ∨ 0xDFFF < c.val.toNat ∧ c.val.toNat < 0x110000 := c.valid
  have hc : Char.ofNat c.val.toNat = c := Char.ofNat_toNat c
  unfold String.utf8EncodeChar
  generalize c.val.toNat = v at *
  subst hc
  dsimp only
  split_ifs with h₁ h₂ h₃
  · left
    refine ⟨_, rfl, ?_⟩
    have hm : v % 256 = v := by omega
    simp only [lead, UInt8.lt_iff_toNat_lt, UInt8.toNat_ofNat', hm, UInt8.reduceToNat,
      Nat.reducePow]
    rw [if_pos (by omega)]
  · right
    rw [Nat.mod_eq_of_lt (show v / 64 < 32 by omega)]
    exact ⟨_, _, _, rfl, lead_of_lt_two_bytes (by omega) (by omega), completes_one v⟩
  · right
    rw [Nat.mod_eq_of_lt (show v / 4096 < 16 by omega)]
    refine ⟨_, _, _, rfl, lead_of_lt_three_bytes (by omega), completes_two v ?_ ?_⟩
    -- the limits of the second byte keep out what has a shorter spelling, and the surrogates
    · split_ifs <;> simp only [UInt8.reduceToNat] <;> omega
    · split_ifs <;> simp only [UInt8.reduceToNat] <;> omega
  · right
    rw [Nat.mod_eq_of_lt (show v / 262144 < 8 by omega)]
    refine ⟨_, _, _, rfl, lead_of_lt_four_bytes (by omega), completes_three v ?_ ?_⟩
    -- here they keep out what has a shorter spelling, and what lies beyond the last character
    · split_ifs <;> simp only [UInt8.reduceToNat] <;> omega
    · split_ifs <;> simp only [UInt8.reduceToNat] <;> omega

/-! ## Texts -/

theorem decodeFrom_of_completes {c : Char} {bs : List UInt8} {p : Pending} (h : p.Completes c bs)
    (start : Nat) (byte : UInt8) (position : Nat) (rest : List UInt8) :
    decodeFrom (some (p, start, byte)) position (bs ++ rest) =
      (c :: ·) <$> decodeFrom none (position + bs.length) rest := by
  induction bs generalizing p position with
  | nil => exact h.elim
  | cons b bs ih =>
    cases bs with
    | nil =>
      rw [Pending.Completes] at h
      simp only [List.cons_append, List.nil_append, decodeFrom, h, List.length_singleton]
    | cons b' bs =>
      obtain ⟨q, hq, hc⟩ := h
      rw [List.cons_append, decodeFrom]
      simp only [hq]
      rw [ih hc, List.length_cons (a := b)]
      congr 2
      omega

theorem decodeFrom_utf8EncodeChar (c : Char) (position : Nat) (rest : List UInt8) :
    decodeFrom none position (String.utf8EncodeChar c ++ rest) =
      (c :: ·) <$> decodeFrom none (position + (String.utf8EncodeChar c).length) rest := by
  obtain ⟨b, hb, hl⟩ | ⟨b, p, bs, hb, hl, hc⟩ := lead_utf8EncodeChar c
  · rw [hb, List.singleton_append, decodeFrom]
    simp only [hl, List.length_singleton]
  · rw [hb, List.cons_append, decodeFrom]
    simp only [hl]
    rw [decodeFrom_of_completes hc, List.length_cons]
    congr 2
    omega

theorem decodeFrom_flatMap_utf8EncodeChar (cs : List Char) (position : Nat) :
    decodeFrom none position (cs.flatMap String.utf8EncodeChar) = .ok cs := by
  induction cs generalizing position with
  | nil => rfl
  | cons c cs ih =>
    rw [List.flatMap_cons, decodeFrom_utf8EncodeChar, ih]
    rfl

/-- **The bytes of a text** are read back as that text. -/
theorem decode_encode (text : String) : decode (encode text) = .ok text := by
  rw [decode, encode_eq_flatMap, decodeFrom_flatMap_utf8EncodeChar]
  exact congrArg Except.ok (String.ofList_toList)

/-! ## Only what was written -/

theorem next?_eq_inl {p : Pending} {b : UInt8} {c : Char} (h : p.next? b = some (.inl c)) :
    (p.low ≤ b ∧ b ≤ p.high) ∧ p.owed ≤ 1 ∧ c = Char.ofNat (p.bits * 64 + b.toNat % 64) := by
  unfold Pending.next? at h
  dsimp only at h
  split_ifs at h with range last
  · cases h
    exact ⟨range, last, rfl⟩
  · cases h

theorem next?_eq_inr {p q : Pending} {b : UInt8} (h : p.next? b = some (.inr q)) :
    (p.low ≤ b ∧ b ≤ p.high) ∧ 1 < p.owed ∧
      q = ⟨p.owed - 1, 0x80, 0xBF, p.bits * 64 + b.toNat % 64⟩ := by
  unfold Pending.next? at h
  dsimp only at h
  split_ifs at h with range last
  · cases h
  · cases h
    exact ⟨range, by omega, rfl⟩

theorem Pending.Completes.cons {c : Char} {p q : Pending} {b : UInt8} {bs : List UInt8}
    (hq : p.next? b = some (.inr q)) (h : q.Completes c bs) : p.Completes c (b :: bs) := by
  cases bs with
  | nil => exact h.elim
  | cons b' bs => exact ⟨q, hq, h⟩

/-- The bytes that complete a character: the last one, or one on the way and the others. -/
theorem Pending.Completes.cases {c : Char} {p : Pending} {bs : List UInt8} (h : p.Completes c bs) :
    ∃ b rest, bs = b :: rest ∧ (p.low ≤ b ∧ b ≤ p.high) ∧
      (p.owed ≤ 1 ∧ rest = [] ∧ c = Char.ofNat (p.bits * 64 + b.toNat % 64) ∨
        1 < p.owed ∧
          Completes c ⟨p.owed - 1, 0x80, 0xBF, p.bits * 64 + b.toNat % 64⟩ rest) := by
  cases bs with
  | nil => exact h.elim
  | cons b rest =>
    refine ⟨b, rest, rfl, ?_⟩
    cases rest with
    | nil =>
      obtain ⟨range, last, hc⟩ := next?_eq_inl h
      exact ⟨range, .inl ⟨last, rfl, hc⟩⟩
    | cons b' rest =>
      obtain ⟨q, hq, hc⟩ := h
      obtain ⟨range, more, rfl⟩ := next?_eq_inr hq
      exact ⟨range, .inr ⟨more, hc⟩⟩

theorem utf8EncodeChar_ofNat {v : Nat} (h : v.isValidChar) :
    String.utf8EncodeChar (Char.ofNat v) =
      if v ≤ 0x7F then [UInt8.ofNat v]
      else if v ≤ 0x7FF then [UInt8.ofNat (v / 64 % 32 + 192), UInt8.ofNat (v % 64 + 128)]
      else if v ≤ 0xFFFF then
        [UInt8.ofNat (v / 4096 % 16 + 224), UInt8.ofNat (v / 64 % 64 + 128),
          UInt8.ofNat (v % 64 + 128)]
      else
        [UInt8.ofNat (v / 262144 % 8 + 240), UInt8.ofNat (v / 4096 % 64 + 128),
          UInt8.ofNat (v / 64 % 64 + 128), UInt8.ofNat (v % 64 + 128)] := by
  have value : (Char.ofNat v).val.toNat = v := by
    rw [Char.ofNat, dif_pos h]
    rfl
  simp only [String.utf8EncodeChar, value]

theorem ofNat_eq_of_eq_toNat {n : Nat} {b : UInt8} (h : n = b.toNat) : UInt8.ofNat n = b := by
  rw [h, UInt8.ofNat_toNat]

theorem utf8EncodeChar_of_lead_single {b : UInt8} {c : Char} (h : lead b = .single c) :
    String.utf8EncodeChar c = [b] := by
  unfold lead at h
  dsimp only at h
  split_ifs at h with small
  all_goals cases h
  have hb : b.toNat < 128 := UInt8.lt_iff_toNat_lt.mp small
  rw [utf8EncodeChar_ofNat (.inl (by omega)), if_pos (by omega), UInt8.ofNat_toNat]

/-- What a byte that begins a character leaves to complete. The limits of the next byte keep out
what has a shorter spelling, the surrogates, and what lies beyond the last character. -/
theorem lead_eq_start {b : UInt8} {p : Pending} (h : lead b = .start p) :
    (128 ≤ p.low.toNat ∧ p.high.toNat ≤ 191) ∧
      ((194 ≤ b.toNat ∧ b.toNat < 224) ∧ p.owed = 1 ∧ p.bits = b.toNat - 192 ∨
       (224 ≤ b.toNat ∧ b.toNat < 240) ∧ p.owed = 2 ∧ p.bits = b.toNat - 224 ∧
        (p.bits = 0 → 160 ≤ p.low.toNat) ∧ (p.bits = 13 → p.high.toNat ≤ 159) ∨
       (240 ≤ b.toNat ∧ b.toNat < 245) ∧ p.owed = 3 ∧ p.bits = b.toNat - 240 ∧
        (p.bits = 0 → 144 ≤ p.low.toNat) ∧ (p.bits = 4 → p.high.toNat ≤ 143)) := by
  unfold lead at h
  simp only [UInt8.lt_iff_toNat_lt, ← UInt8.toNat_inj, UInt8.reduceToNat] at h
  split_ifs at h
  all_goals
    cases h
    simp only [UInt8.reduceToNat, true_and]
    omega

/-- A byte that begins a character and those that complete it are the bytes of that character. -/
theorem utf8EncodeChar_of_lead_start {b : UInt8} {p : Pending} {c : Char} {bs : List UInt8}
    (h : lead b = .start p) (hc : p.Completes c bs) : String.utf8EncodeChar c = b :: bs := by
  obtain ⟨limits, two | three | four⟩ := lead_eq_start h
  · obtain ⟨b₁, rest, rfl, range₁, ⟨-, rfl, rfl⟩ | ⟨more, -⟩⟩ := hc.cases
    · simp only [UInt8.le_iff_toNat_le] at range₁
      rw [utf8EncodeChar_ofNat (.inl (by omega)), if_neg (by omega), if_pos (by omega),
        ofNat_eq_of_eq_toNat (b := b) (by omega), ofNat_eq_of_eq_toNat (b := b₁) (by omega)]
    · omega
  · obtain ⟨b₁, rest, rfl, range₁, ⟨last, -⟩ | ⟨-, hc⟩⟩ := hc.cases
    · omega
    obtain ⟨b₂, rest, rfl, range₂, ⟨-, rfl, rfl⟩ | ⟨more, -⟩⟩ := hc.cases
    · simp only [UInt8.le_iff_toNat_le, UInt8.reduceToNat] at range₁ range₂ ⊢
      rw [utf8EncodeChar_ofNat (by unfold Nat.isValidChar; omega), if_neg (by omega),
        if_neg (by omega), if_pos (by omega), ofNat_eq_of_eq_toNat (b := b) (by omega),
        ofNat_eq_of_eq_toNat (b := b₁) (by omega), ofNat_eq_of_eq_toNat (b := b₂) (by omega)]
    · dsimp only at more
      omega
  · obtain ⟨b₁, rest, rfl, range₁, ⟨last, -⟩ | ⟨-, hc⟩⟩ := hc.cases
    · omega
    obtain ⟨b₂, rest, rfl, range₂, ⟨last, -⟩ | ⟨-, hc⟩⟩ := hc.cases
    · dsimp only at last
      omega
    obtain ⟨b₃, rest, rfl, range₃, ⟨-, rfl, rfl⟩ | ⟨more, -⟩⟩ := hc.cases
    · simp only [UInt8.le_iff_toNat_le, UInt8.reduceToNat] at range₁ range₂ range₃ ⊢
      rw [utf8EncodeChar_ofNat (by unfold Nat.isValidChar; omega), if_neg (by omega),
        if_neg (by omega), if_neg (by omega), ofNat_eq_of_eq_toNat (b := b) (by omega),
        ofNat_eq_of_eq_toNat (b := b₁) (by omega), ofNat_eq_of_eq_toNat (b := b₂) (by omega),
        ofNat_eq_of_eq_toNat (b := b₃) (by omega)]
    · dsimp only at more
      omega

theorem map_cons_eq_ok {c : Char} {result : Except Utf8Fault (List Char)} {cs : List Char}
    (h : (c :: ·) <$> result = .ok cs) : ∃ rest, result = .ok rest ∧ cs = c :: rest := by
  cases result with
  | error fault => cases h
  | ok rest =>
    cases h
    exact ⟨rest, rfl, rfl⟩

/-- What is read from between two characters, or from within one, is what was written. -/
theorem decodeFrom_eq_ok {bytes : List UInt8} {position : Nat} {cs : List Char} :
    (decodeFrom none position bytes = .ok cs → bytes = cs.flatMap String.utf8EncodeChar) ∧
      ∀ p start byte, decodeFrom (some (p, start, byte)) position bytes = .ok cs →
        ∃ c front rest, cs = c :: rest ∧ p.Completes c front ∧
          bytes = front ++ rest.flatMap String.utf8EncodeChar := by
  induction bytes generalizing position cs with
  | nil =>
    refine ⟨fun h => ?_, fun p start byte h => by cases h⟩
    cases h
    rfl
  | cons b bs ih =>
    refine ⟨fun h => ?_, fun p start byte h => ?_⟩
    · rw [decodeFrom] at h
      split at h
      · next c single =>
        obtain ⟨rest, hr, rfl⟩ := map_cons_eq_ok h
        rw [List.flatMap_cons, utf8EncodeChar_of_lead_single single, ih.1 hr]
        rfl
      · next p begins =>
        obtain ⟨c, front, rest, rfl, completes, hb⟩ := ih.2 _ _ _ h
        rw [List.flatMap_cons, utf8EncodeChar_of_lead_start begins completes, hb]
        rfl
      · cases h
    · rw [decodeFrom] at h
      split at h
      · next c last =>
        obtain ⟨rest, hr, rfl⟩ := map_cons_eq_ok h
        exact ⟨c, [b], rest, rfl, last, by rw [ih.1 hr]; rfl⟩
      · next q more =>
        obtain ⟨c, front, rest, rfl, completes, hb⟩ := ih.2 _ _ _ h
        exact ⟨c, b :: front, rest, rfl, .cons more completes, by rw [hb]; rfl⟩
      · cases h

/-- **Strict reading** accepts the bytes of texts and no others. -/
theorem decode_eq_ok_iff {bytes : List UInt8} {text : String} :
    decode bytes = .ok text ↔ bytes = encode text := by
  constructor
  · intro h
    rw [decode] at h
    cases hd : decodeFrom none 0 bytes with
    | error fault =>
      rw [hd] at h
      cases h
    | ok cs =>
      rw [hd] at h
      cases h
      rw [encode_eq_flatMap, String.toList_ofList]
      exact decodeFrom_eq_ok.1 hd
  · rintro rfl
    exact decode_encode text

end ScriptSurvey.Text
