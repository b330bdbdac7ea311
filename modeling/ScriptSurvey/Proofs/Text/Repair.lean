import ScriptSurvey.Files.Sources
import ScriptSurvey.Proofs.Text.Utf8

/-!
# Text after bytes that are no text

Reading that repairs its input may stop anywhere within a character. Whatever it waits for then lies
between `0x80` and `0xBF` (`Text.Within`), and no character starts with such a byte. So a character
always ends what was begun before it, at the cost of one replacement mark, and is read as itself:

* `Text.repairFrom_append`: valid text is kept, whatever stands before it;
* `decodeSource_append_iff`: the same for the bytes of a script, of which a byte order mark at the
  very start is taken away.
-/

namespace ScriptSurvey

namespace Text

/-! ## Characters that were begun -/

/-- Whether what a state waits for are bytes with which no character starts. -/
def Within (state : Option Pending) : Prop :=
  ∀ p, state = some p → 128 ≤ p.low.toNat ∧ p.high.toNat ≤ 191

theorem within_none : Within none := by
  rintro p ⟨⟩

theorem within_openWith (b : UInt8) : Within (openWith b).2 := by
  rintro p h
  unfold openWith at h
  split at h
  · cases h
  · next begins =>
    cases h
    exact (lead_eq_start begins).1
  · cases h

/-- **Every byte** leaves such a state. -/
theorem within_feed (state : Option Pending) (b : UInt8) : Within (feed state b).2 := by
  unfold feed
  split
  · exact within_openWith b
  · split
    · exact within_none
    · next more =>
      obtain ⟨-, -, rfl⟩ := next?_eq_inr more
      rintro p ⟨⟩
      exact ⟨Nat.le_refl 128, Nat.le_refl 191⟩
    · exact within_openWith b

theorem lead_of_continuing {b : UInt8} (low : 128 ≤ b.toNat) (high : b.toNat ≤ 191) :
    lead b = .invalid := by
  simp only [lead, UInt8.lt_iff_toNat_lt, UInt8.reduceToNat]
  rw [if_neg (by omega), if_pos (by omega)]

/-- A byte that is or begins a character never continues one. -/
theorem next?_of_lead {p : Pending} (h : Within (some p)) {b : UInt8} (hb : lead b ≠ .invalid) :
    p.next? b = none := by
  obtain ⟨low, high⟩ := h p rfl
  unfold Pending.next?
  rw [if_neg]
  rintro ⟨hl, hh⟩
  rw [UInt8.le_iff_toNat_le] at hl hh
  exact hb (lead_of_continuing (by omega) (by omega))

/-- Such a byte ends what was begun. -/
theorem feed_of_lead {state : Option Pending} (h : Within state) {b : UInt8}
    (hb : lead b ≠ .invalid) :
    feed state b = (repairFrom state [] ++ (openWith b).1, (openWith b).2) := by
  cases state with
  | none => rfl
  | some p =>
    simp only [feed, next?_of_lead h hb]
    rfl

/-! ## Valid text -/

theorem repairFrom_cons (state : Option Pending) (b : UInt8) (bs : List UInt8) :
    repairFrom state (b :: bs) = (feed state b).1 ++ repairFrom (feed state b).2 bs := rfl

theorem repairFrom_of_completes {c : Char} {bs : List UInt8} {p : Pending} (h : p.Completes c bs)
    (rest : List UInt8) : repairFrom (some p) (bs ++ rest) = c :: repairFrom none rest := by
  induction bs generalizing p with
  | nil => exact h.elim
  | cons b bs ih =>
    cases bs with
    | nil =>
      rw [Pending.Completes] at h
      simp only [List.singleton_append, repairFrom, feed, h]
    | cons b' bs =>
      obtain ⟨q, hq, hc⟩ := h
      rw [List.cons_append, repairFrom_cons]
      simp only [feed, hq]
      exact ih hc

/-- **A character is read as itself**, after a replacement mark for what it ends. -/
theorem repairFrom_utf8EncodeChar {state : Option Pending} (h : Within state) (c : Char)
    (rest : List UInt8) :
    repairFrom state (String.utf8EncodeChar c ++ rest) =
      repairFrom state [] ++ c :: repairFrom none rest := by
  obtain ⟨b, hb, hl⟩ | ⟨b, p, bs, hb, hl, hc⟩ := lead_utf8EncodeChar c
  · rw [hb, List.singleton_append, repairFrom_cons, feed_of_lead h (by rw [hl]; rintro ⟨⟩)]
    simp [openWith, hl]
  · rw [hb, List.cons_append, repairFrom_cons, feed_of_lead h (by rw [hl]; rintro ⟨⟩)]
    simp [openWith, hl, repairFrom_of_completes hc]

theorem repairFrom_flatMap_utf8EncodeChar {state : Option Pending} (h : Within state)
    (cs : List Char) :
    repairFrom state (cs.flatMap String.utf8EncodeChar) = repairFrom state [] ++ cs := by
  induction cs generalizing state with
  | nil => simp
  | cons c cs ih =>
    rw [List.flatMap_cons, repairFrom_utf8EncodeChar h, ih within_none]
    rfl

/-- **Valid text is kept**, whatever stands before it. -/
theorem repairFrom_append {state : Option Pending} (h : Within state) (bytes : List UInt8)
    (cs : List Char) :
    repairFrom state (bytes ++ cs.flatMap String.utf8EncodeChar) =
      repairFrom state bytes ++ cs := by
  induction bytes generalizing state with
  | nil => exact repairFrom_flatMap_utf8EncodeChar h cs
  | cons b bytes ih =>
    rw [List.cons_append, repairFrom_cons, ih (within_feed state b), repairFrom_cons,
      List.append_assoc]

theorem repair_append (bytes : List UInt8) (text : String) :
    repair (bytes ++ encode text) = repair bytes ++ text := by
  rw [repair, encode_eq_flatMap, repairFrom_append within_none, String.ofList_append,
    String.ofList_toList]
  rfl

theorem repair_encode (text : String) : repair (encode text) = text := by
  rw [← List.nil_append (encode text), repair_append]
  simp [repair, repairFrom]

/-! ## Byte order marks -/

/-- A byte gives a character at once, or begins one. -/
theorem feed_ne_nil (state : Option Pending) (b : UInt8) :
    (feed state b).1 ≠ [] ∨ (feed state b).2.isSome := by
  have opened : (openWith b).1 ≠ [] ∨ (openWith b).2.isSome := by
    unfold openWith
    split <;> simp
  unfold feed
  split
  · exact opened
  · split <;> simp

theorem repairFrom_eq_nil_iff {state : Option Pending} {bytes : List UInt8} :
    repairFrom state bytes = [] ↔ bytes = [] ∧ state = none := by
  induction bytes generalizing state with
  | nil => cases state <;> simp [repairFrom]
  | cons b bytes ih =>
    rw [repairFrom_cons, List.append_eq_nil_iff, ih]
    constructor
    · rintro ⟨nothing, -, closed⟩
      rcases feed_ne_nil state b with some_char | begun
      · exact absurd nothing some_char
      · rw [closed] at begun
        cases begun
    · rintro ⟨⟨⟩, -⟩

theorem repair_eq_empty_iff {bytes : List UInt8} : repair bytes = "" ↔ bytes = [] := by
  rw [repair, String.ofList_eq_empty_iff, repairFrom_eq_nil_iff, and_iff_left rfl]

/-- Whether a text starts with a byte order mark. -/
def StartsMarked (text : String) : Prop :=
  text.toList.head? = some '\uFEFF'

theorem startsMarked_append {text : String} (h : text ≠ "") (rest : String) :
    StartsMarked (text ++ rest) ↔ StartsMarked text := by
  have start : text.toList.head?.or rest.toList.head? = text.toList.head? := by
    cases hc : text.toList with
    | nil => exact absurd (String.toList_eq_nil_iff.mp hc) h
    | cons c cs => rfl
  rw [StartsMarked, String.toList_append, List.head?_append, start, StartsMarked]

theorem withoutMark_mark (text : String) : withoutMark ("\uFEFF" ++ text) = text := by
  rw [withoutMark, String.toList_append]
  exact String.ofList_toList

theorem exists_eq_mark_append {text : String} (h : StartsMarked text) :
    ∃ rest, text = "\uFEFF" ++ rest := by
  obtain ⟨cs, hcs⟩ := List.head?_eq_some_iff.mp h
  refine ⟨String.ofList cs, String.toList_injective ?_⟩
  simp [hcs]

theorem withoutMark_of_not_startsMarked {text : String} (h : ¬ StartsMarked text) :
    withoutMark text = text := by
  unfold withoutMark
  split
  · next rest hcs => exact absurd (by rw [StartsMarked, hcs]; rfl) h
  · rfl

theorem withoutMark_append {text : String} (h : text ≠ "") (rest : String) :
    withoutMark (text ++ rest) = withoutMark text ++ rest := by
  by_cases marked : StartsMarked text
  · obtain ⟨tail, rfl⟩ := exists_eq_mark_append marked
    rw [String.append_assoc, withoutMark_mark, withoutMark_mark]
  · rw [withoutMark_of_not_startsMarked marked, withoutMark_of_not_startsMarked]
    rwa [startsMarked_append h]

theorem withoutMark_eq_self_iff {text : String} :
    withoutMark text = text ↔ ¬ StartsMarked text := by
  refine ⟨fun same marked => ?_, withoutMark_of_not_startsMarked⟩
  obtain ⟨rest, rfl⟩ := exists_eq_mark_append marked
  rw [withoutMark_mark] at same
  have := congrArg String.length same
  rw [String.length_append] at this
  simp at this

end Text

open Text

/-- **Valid text is kept after any bytes**: the text of the bytes of a text is put after the text of
the bytes before them, however these end. The one exception is a byte order mark at the very start,
which is taken away, and no more than one. -/
theorem decodeSource_append_iff (bytes : List UInt8) (text : String) :
    (decodeSource (bytes ++ encode text) = decodeSource bytes ++ text ↔
      bytes ≠ [] ∨ ¬ StartsMarked text) ∧
    (decodeSource (encode text) = text ↔ ¬ StartsMarked text) ∧
    decodeSource (encode ("\uFEFF" ++ text)) = text := by
  have alone : decodeSource (encode text) = text ↔ ¬ StartsMarked text := by
    rw [decodeSource, repair_encode, withoutMark_eq_self_iff]
  refine ⟨?_, alone, ?_⟩
  · by_cases h : bytes = []
    · subst h
      simpa [decodeSource, repair, repairFrom, withoutMark] using alone
    · simp only [decodeSource, repair_append]
      rw [withoutMark_append (mt repair_eq_empty_iff.mp h)]
      simp [h]
  · rw [decodeSource, repair_encode, withoutMark_mark]

end ScriptSurvey
