import ScriptSurvey.Proofs.Files.Removal
import ScriptSurvey.Proofs.Service.Transparency

/-!
# Reports that cannot be read

A file in which the report on a target is kept may hold any bytes. If they are text, a report is
loaded from it or none is (`Cache.load_eq_of_leads`), and where none is, a request for the report is
answered as if the file were not there (`refresh_without`). Bytes that are no text are not ignored:
every such request fails, until the file is removed or a new scan is asked for. `respond_to_kept`
says what becomes of each file.
-/

namespace ScriptSurvey

open Entry (Sight)

/-! ## Loading -/

namespace Cache

variable {w : World} {target : Path} {place l : Location} {s : Sight} {bytes : List UInt8}

theorem parts_path (w : World) (target : Path) : (path w target).parts ≠ [] := by
  unfold path
  split_ifs <;> simp [Path.child]

/-- What is loaded from a file: a report or none if it is text, and a fault if it is not. -/
theorem load_eq_of_leads (kept : w.Leads (path w target) place (.file bytes)) :
    (∀ text, bytes = Text.encode text → load w target = .ok (Report.parse? text)) ∧
      ((∀ text, bytes ≠ Text.encode text) → ∃ fault, load w target = .error fault) := by
  rw [load, kept.read]
  dsimp only
  constructor
  · rintro text rfl
    rw [Text.decode_encode]
    rfl
  · intro unread
    cases hd : Text.decode bytes with
    | error fault => exact ⟨fault, rfl⟩
    | ok text => exact absurd (Text.decode_eq_ok_iff.mp hd) (unread text)

/-- A target is not the file in which the report on it is kept. -/
theorem ne_of_leads (kept : w.Leads (path w target) place (.file bytes))
    (hl : w.Leads target l s) : l ≠ place := by
  rintro rfl
  obtain rfl : s = .file bytes := Option.some.inj (hl.look.symm.trans kept.look)
  obtain hn | ⟨hp, -⟩ := named_or_nameless target (.file bytes)
  · obtain ⟨-, front, rfl, -⟩ := hl.parent (hn.resolve_left nofun)
    obtain ⟨-, other, same, -⟩ := kept.parent (parts_path w target)
    have last := List.singleton_inj.mp (List.append_inj' same rfl).2
    rw [path, if_neg (hl.isFolder_iff.not.mpr nofun), World.name_child] at last
    have length := congrArg (·.toList.length) last
    rw [length_dotted] at length
    omega
  · exact (load_of_nameless hl hp).2 l (kept.writable (parts_path w target))

end Cache

/-! ## Without the file -/

namespace Service

/-- The answers cannot be told apart: they have the same response and lines, and after a success the
same files are there. -/
structure Answer.AsIf (answer other : Answer) : Prop where
  response : answer.response = other.response
  lines : answer.lines = other.lines
  world : answer.response.status = 200 →
    ∀ m, answer.world.top.look m = other.world.top.look m

section Without

variable {w : World} {p : Path} {place : Location} {bytes : List UInt8}
  (proper : w.top.isProper = true) (there : w.pathExists p = true)
  (kept : w.Leads (Cache.path w p) place (.file bytes))

include proper there kept

/-- Without the file, the target and the place for the report on it are still there. -/
theorem path_without :
    (w.without place).pathExists p = true ∧ Cache.path (w.without place) p = Cache.path w p := by
  obtain ⟨l, s, hl⟩ := World.pathExists_iff.mp there
  have leads := (kept.writable (Cache.parts_path w p)).leads_without proper kept.look hl
    (Cache.ne_of_leads kept hl)
  refine ⟨World.pathExists_iff.mpr ⟨l, s, leads⟩, ?_⟩
  have kind : (w.without place).isFolder p = w.isFolder p := by
    rw [Bool.eq_iff_iff, leads.isFolder_iff, hl.isFolder_iff]
  rw [Cache.path, Cache.path, kind]

theorem load_without : Cache.load (w.without place) p = .ok none := by
  have hw := kept.writable (Cache.parts_path w p)
  have writable := hw.without proper kept.look
  rw [← (path_without proper there kept).2] at writable
  rw [Cache.load_eq_of_writable writable, hw.look_without proper kept.look, if_pos rfl]

theorem atPath_without : Source.atPath (w.without place) p = Source.atPath w p := by
  obtain ⟨l, s, hl⟩ := World.pathExists_iff.mp there
  have hw := kept.writable (Cache.parts_path w p)
  have leads := hw.leads_without proper kept.look hl (Cache.ne_of_leads kept hl)
  have bare : (w.without place).top.bare = w.top.bare := by
    have file := kept.look
    obtain ⟨front, -, -, hplace⟩ := hw.parent
    rw [hplace] at file
    rw [World.without, hplace]
    exact Entry.bare_remove (Cache.isReportName_path w p) file
  exact Source.atPath_eq_of_bare bare rfl leads hl

theorem scansAlike_without : ScansAlike w (w.without place) p where
  sources := (atPath_without proper there kept).symm
  opens other := by
    have hw := kept.writable (Cache.parts_path w p)
    have hw' := hw.without proper kept.look
    rw [(path_without proper there kept).2]
    exact ⟨fun h => hw.unique h ▸ hw', fun h => hw'.unique h ▸ hw⟩
  full := rfl
  stray := rfl

/-- A new scan is answered as if the file were not there. -/
theorem refresh_without : (refresh w p).AsIf (refresh (w.without place) p) := by
  have alike := scansAlike_without proper there kept
  have line : Cache.savedLine (w.without place) p = Cache.savedLine w p := by
    unfold Cache.savedLine
    rw [(path_without proper there kept).2]
  obtain ⟨other, report, keeps, without⟩ | ⟨other, loses, without⟩ |
    ⟨response, failed, now, without⟩ := alike.refresh_cases
  · rw [refresh_of_keeps keeps, refresh_of_keeps without, alike.scanPath_eq, line]
    refine ⟨rfl, rfl, fun _ m => ?_⟩
    have hw := kept.writable (Cache.parts_path w p)
    obtain rfl : place = other := hw.unique keeps.opens
    dsimp only
    rw [hw.look_putFile, without.opens.look_putFile, hw.look_without proper kept.look]
    split_ifs <;> rfl
  · rw [refresh_of_loses loses, refresh_of_loses without, alike.scanPath_eq]
    exact ⟨rfl, rfl, fun ok => absurd ok (ne_of_beq_false rfl)⟩
  · rw [now, without]
    exact ⟨rfl, rfl, fun ok => absurd ok failed⟩

end Without

/-! ## Requests for a report -/

theorem respond_analysis {w : World} {request : Request}
    (route : Route.find? request.url = some .analysis) (method : request.method.toUpper = "GET")
    (there : w.pathExists (target w request.path) = true) :
    respond w request = analysis w (target w request.path) := by
  rw [respond_eq_answer route method, Route.answer, withTarget, if_pos there]

/-- **What becomes of a kept file** when the report on its target is asked for. If it is text and a
report can be read from it, that is the response and nothing changes. If it is text and none can be
read, there is a new scan, and the answer is the one that would be given without the file. If it is
not text, the request fails and nothing changes. -/
theorem respond_to_kept {w : World} (proper : w.top.isProper = true) {request : Request}
    (route : Route.find? request.url = some .analysis) (method : request.method.toUpper = "GET")
    (there : w.pathExists (target w request.path) = true) {place : Location} {bytes : List UInt8}
    (kept : w.Leads (Cache.path w (target w request.path)) place (.file bytes)) :
    (∀ text, bytes = Text.encode text →
      Cache.load w (target w request.path) = .ok (Report.parse? text) ∧
      (∀ report, Report.parse? text = some report →
        respond w request = ⟨.ok report.toJson, w, []⟩) ∧
      (Report.parse? text = none →
        respond w request = refresh w (target w request.path) ∧
        (respond w request).AsIf (respond (w.without place) request))) ∧
    ((∀ text, bytes ≠ Text.encode text) →
      (∃ fault, Cache.load w (target w request.path) = .error fault) ∧
      respond w request = ⟨.internal, w, []⟩) := by
  obtain ⟨text, unread⟩ := Cache.load_eq_of_leads kept
  rw [respond_analysis route method there]
  refine ⟨fun found hf => ?_, fun none => ?_⟩
  · have loaded := text found hf
    refine ⟨loaded, fun report hr => ?_, fun hr => ?_⟩
    · rw [analysis, loaded, hr]
    · have scanned : analysis w (target w request.path) = refresh w (target w request.path) := by
        rw [analysis, loaded, hr]
      have still := (path_without proper there kept).1
      have other : respond (w.without place) request =
          refresh (w.without place) (target w request.path) := by
        rw [respond_analysis route method still]
        change analysis (w.without place) (target w request.path) = _
        rw [analysis, load_without proper there kept]
      rw [scanned, other]
      exact ⟨rfl, refresh_without proper there kept⟩
  · obtain ⟨fault, loaded⟩ := unread none
    exact ⟨⟨fault, loaded⟩, by rw [analysis, loaded]⟩

/-- A report that was cut off, beside a script: the project is scanned as if it were not there. -/
theorem respond_to_kept_truncated :
    let w : World :=
      { top := .folder [("app", .folder [(Cache.fileName, .file [123]), ("a.js", .file [120])])],
        folder := ["app"] }
    let request : Request := { method := "GET", url := "/api/analysis/" }
    Cache.load w (target w none) = .ok none ∧
      (respond w request).AsIf (respond (w.without ["app", Cache.fileName]) request) := by
  intro w request
  have cut : Report.parse? "\x7b" = none := by decide +kernel
  have kept : w.Leads (Cache.path w (target w request.path)) ["app", Cache.fileName]
      (.file [123]) := ⟨rfl, rfl⟩
  obtain ⟨text, -⟩ :=
    respond_to_kept (by decide) (by decide) (by decide +kernel) (by decide) kept
  obtain ⟨loaded, -, scanned⟩ := text "\x7b" (by decide)
  rw [cut] at loaded
  exact ⟨loaded, (scanned cut).2⟩

/-- A single byte that is no text, in place of a report, is not ignored: nothing can be loaded, and a
request for the report fails that would succeed without the file. -/
theorem respond_to_unreadable :
    let w : World := { top := .folder [(Cache.fileName, .file [0xFF])] }
    let request : Request := { method := "GET", url := "/api/analysis" }
    (∃ fault, Cache.load w (target w none) = .error fault) ∧
      (respond w request).response.status = 500 ∧
      (respond (w.without [Cache.fileName]) request).response.status = 200 := by
  intro w request
  exact ⟨⟨_, rfl⟩, by decide +kernel, by decide +kernel⟩

end Service

end ScriptSurvey
