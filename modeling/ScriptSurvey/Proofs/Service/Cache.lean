import ScriptSurvey.Proofs.Files.Names
import ScriptSurvey.Proofs.Files.World
import ScriptSurvey.Proofs.Project.Codec
import ScriptSurvey.Proofs.Text.Utf8

/-!
# Keeping reports

An attempt to keep a report ends in one of three ways: its text is kept (`keep_of_writable`); or the
file cannot be opened, and nothing changes (`keep_of_closed`); or the file was opened, but then
there is no text or no room for it, and the file is left empty (`keep_of_lost`). A report that was
kept is loaded as it was, with every field of every record (`load_save`).
-/

namespace ScriptSurvey.Cache

variable {w : World} {target : Path} {place : Location}

/-- A write moves no place where a report is kept. -/
theorem path_putFile {p : Path} (h : w.Writable p place) (bytes : List UInt8) (target : Path) :
    path (w.putFile place bytes) target = path w target := by
  rw [path, path, h.isFolder_putFile]

/-- A text is lost in the file that was opened for it at `place`: there is none, or no room for
it. -/
def Lost (w : World) (place : Location) (text? : Option String) : Prop :=
  text? = none ∨ place ∈ w.full

theorem lost_root {report : Report} {root : String} {stray : List Char} :
    Lost w place ({ report with root := root }.text? stray) ↔
      Lost w place (report.text? stray) := by
  have same : { report with root := root }.names stray = report.names stray := rfl
  rw [Lost, Lost, Report.text?, Report.text?, same]
  split_ifs <;> simp

theorem keep_of_writable (h : w.Writable (path w target) place) (room : place ∉ w.full)
    (text : String) :
    keep w target (some text) = ⟨w.putFile place (Text.encode text), none⟩ := by
  have filled : (w.putFile place []).fill place (Text.encode text) =
      .ok (w.putFile place (Text.encode text)) :=
    World.fill_eq_ok_iff.mpr ⟨room, by rw [World.putFile_putFile]⟩
  rw [keep, h.openPlace_eq]
  dsimp only
  rw [filled]

theorem keep_of_lost (h : w.Writable (path w target) place) {text? : Option String}
    (lost : Lost w place text?) :
    ∃ fault, keep w target text? = ⟨w.putFile place [], some fault⟩ := by
  rw [keep, h.openPlace_eq]
  cases text? with
  | none => exact ⟨_, rfl⟩
  | some text =>
    have full : place ∈ (w.putFile place []).full := lost.resolve_left nofun
    dsimp only
    rw [World.fill, if_pos full]
    exact ⟨_, rfl⟩

theorem keep_of_closed (closed : ∀ place, ¬ w.Writable (path w target) place)
    (text? : Option String) : ∃ fault, keep w target text? = ⟨w, some fault⟩ := by
  rw [keep]
  cases opened : w.openPlace (path w target) with
  | error fault => exact ⟨_, rfl⟩
  | ok place => exact absurd (World.writable_of_openPlace opened) (closed place)

theorem load_putFile (h : w.Writable (path w target) place) {report : Report}
    (finite : report.TimesFinite) :
    load (w.putFile place (Text.encode report.text)) target = .ok (some report) := by
  rw [load, path_putFile h, h.read_putFile]
  dsimp only
  rw [Text.decode_encode]
  exact congrArg Except.ok (Report.parse?_text finite)

/-- An empty file holds no report. -/
theorem load_putFile_nil (h : w.Writable (path w target) place) :
    load (w.putFile place []) target = .ok none := by
  have nothing : Report.parse? "" = none := by decide +kernel
  rw [load, path_putFile h, h.read_putFile]
  exact congrArg Except.ok nothing

/-! ## Where reports are kept -/

open Entry (Sight)

/-- Where the report on what is seen at a location is kept. -/
def slot (l : Location) : Sight → Location
  | .folder => l ++ [fileName]
  | .file _ => l.dropLast ++ [l.getLast?.getD "" ++ "." ++ fileName]

theorem slot_concat (front : Location) (name : String) (bytes : List UInt8) :
    slot (front ++ [name]) (.file bytes) = front ++ [name ++ "." ++ fileName] := by
  simp [slot]

theorem length_dotted (name : String) :
    (name ++ "." ++ fileName).toList.length = name.toList.length + 22 := by
  rw [String.toList_append, String.toList_append, List.length_append, List.length_append,
    Nat.add_assoc]
  rfl

theorem dotted_ne (name : String) :
    name ++ "." ++ fileName ≠ ".." ∧ name ++ "." ++ fileName ≠ fileName := by
  have other : ∀ short : String, short.toList.length < 22 → name ++ "." ++ fileName ≠ short := by
    rintro short hs rfl
    rw [length_dotted] at hs
    omega
  exact ⟨other _ (by decide), other _ (by decide)⟩

/-- Reports on different targets are kept at different places. -/
theorem slot_injective {l m : Location} {s t : Sight} (hl : s = .folder ∨ l ≠ [])
    (hm : t = .folder ∨ m ≠ []) (h : slot l s = slot m t) : l = m := by
  have concat : ∀ {k : Location}, k ≠ [] → k = k.dropLast ++ [k.getLast?.getD ""] := by
    intro k hk
    rw [List.getLast?_eq_some_getLast hk, Option.getD_some, List.dropLast_concat_getLast]
  cases s with
  | folder =>
    cases t with
    | folder => exact (List.append_inj' h rfl).1
    | file bytes =>
      have last := (List.append_inj' h rfl).2
      exact absurd (List.singleton_inj.mp last).symm (dotted_ne _).2
  | file bytes =>
    cases t with
    | folder =>
      have last := (List.append_inj' h rfl).2
      exact absurd (List.singleton_inj.mp last) (dotted_ne _).2
    | file other =>
      obtain ⟨fronts, lasts⟩ := List.append_inj' h rfl
      have texts := congrArg String.toList (List.singleton_inj.mp lasts)
      simp only [String.toList_append, List.append_assoc, List.append_cancel_right_eq,
        String.toList_inj] at texts
      rw [concat (hl.resolve_left nofun), concat (hm.resolve_left nofun), fronts, texts]

theorem isReportName_dotted (name : String) :
    isReportName (name ++ "." ++ fileName) = true := by
  rw [isReportName, List.isSuffixOf_iff_suffix, String.toList_append]
  exact List.suffix_append _ _

theorem isReportName_slot (l : Location) (s : Sight) :
    ∃ front name, slot l s = front ++ [name] ∧ isReportName name = true := by
  cases s with
  | folder => exact ⟨l, fileName, rfl, by decide⟩
  | file bytes => exact ⟨_, _, rfl, isReportName_dotted _⟩

theorem isReportName_path (w : World) (target : Path) :
    isReportName (path w target).name = true := by
  unfold path
  split_ifs
  · rw [World.name_child]
    decide
  · rw [World.name_child]
    exact isReportName_dotted _

/-- The report on a target has a place unless the target is a file and the path to it has no
name. -/
theorem named_or_nameless (target : Path) (s : Sight) :
    (s = .folder ∨ target.parts ≠ []) ∨ target.parts = [] ∧ ∃ bytes, s = .file bytes := by
  cases s with
  | folder => exact .inl (.inl rfl)
  | file bytes =>
    by_cases hp : target.parts = []
    · exact .inr ⟨hp, bytes, rfl⟩
    · exact .inl (.inr hp)

/-- The report on a target is kept at its place, unless the target is a file and the path to it has
no name. -/
theorem writable_slot {l : Location} {s : Sight} (h : w.Leads target l s)
    (hn : s = .folder ∨ target.parts ≠ []) (hf : w.top.look (slot l s) ≠ some .folder) :
    w.Writable (path w target) (slot l s) := by
  cases s with
  | folder =>
    rw [path, if_pos (h.isFolder_iff.mpr rfl)]
    exact h.writable_child (by decide) hf
  | file bytes =>
    obtain ⟨-, front, rfl, parent⟩ := h.parent (hn.resolve_left nofun)
    rw [slot_concat] at hf ⊢
    rw [path, if_neg (h.isFolder_iff.not.mpr nofun)]
    exact parent.writable_child (dotted_ne _).1 hf

/-- The path to a file that has no name gives no place for a report. -/
theorem load_of_nameless {l : Location} {bytes : List UInt8} (h : w.Leads target l (.file bytes))
    (hn : target.parts = []) :
    load w target = .ok none ∧ ∀ place, ¬ w.Writable (path w target) place := by
  have self : target.parent = target := by
    cases target
    simp_all [Path.parent]
  have hpath : path w target = target.child (target.name ++ "." ++ fileName) := by
    rw [path, if_neg (h.isFolder_iff.not.mpr (by simp)), self]
  have located : w.locate (path w target) = .error .notFolder := by
    rw [hpath, World.locate_eq_bind (by simp [Path.child]), World.parent_child, h.locate]
    change w.top.follow l _ = _
    rw [Entry.follow_cons, h.look]
  refine ⟨by rw [load, World.read_eq, located], fun place hw => ?_⟩
  rw [hw.locate] at located
  split_ifs at located
  cases located

theorem load_eq_of_writable (h : w.Writable (path w target) place) :
    load w target =
      match w.top.look place with
      | some (.file bytes) => (Text.decode bytes).map Report.parse?
      | _ => .ok none := by
  rw [load, World.read_eq, h.locate]
  cases hl : w.top.look place with
  | none => rfl
  | some s =>
    cases s with
    | folder => exact absurd hl h.notFolder
    | file bytes => simp [hl]

/-- **Loading undoes saving**: wherever the file for the reports on a target can be written, a
report whose times are finite is kept and loaded with every field of every record. -/
theorem load_save (can : ∃ bytes after, w.write (path w target) bytes = .ok after) {report : Report}
    (finite : report.TimesFinite) :
    (save w target report).fault = none ∧
      load (save w target report).world target = .ok (some report) := by
  obtain ⟨bytes, after, hw⟩ := can
  obtain ⟨place, h, room⟩ := World.writable_of_write hw
  rw [save, keep_of_writable h room]
  exact ⟨rfl, load_putFile h finite⟩

/-- A report with a record that failed, one that has nothing but an empty list, and characters of
all kinds, kept over an older one. -/
theorem load_save_over_older :
    let w : World :=
      { top := .folder [("src", .folder [("codeprobe_report.json", .file [1, 2, 3])])] }
    let report : Report :=
      { root := "sr\x00c\n\"\\", files :=
          [.failed "é.js" (-3) "at \"\t\"" (.finite true 1 (-1074) (by decide)),
           { filename := "😀", lineCount := 10 ^ 30, hooks := some [] }] }
    (save w (.ofLocation ["src"]) report).fault = none ∧
      load (save w (.ofLocation ["src"]) report).world (.ofLocation ["src"]) =
        .ok (some report) := by
  intro w report
  exact load_save ⟨[], _, rfl⟩ ⟨by simp [report, Record.failed, Double.isFinite, Double.zero], rfl⟩

end ScriptSurvey.Cache
