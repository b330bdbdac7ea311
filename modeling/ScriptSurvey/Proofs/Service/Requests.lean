import ScriptSurvey.Proofs.Files.Sources
import ScriptSurvey.Proofs.Project.Scan
import ScriptSurvey.Proofs.Service.Cache
import ScriptSurvey.Service.Respond

/-!
# What a request changes

A new scan ends in one of four ways (`Refreshed`): it gives no report, the report is kept, the file
for it cannot be opened, or the report is lost. The last is the case if the file was opened, which
empties it, and only then it turns out that there is no text of the report or no room for it
(`Loses`).

Only a new scan keeps a report; it is made when one is asked for, or when a report is asked for and
none is kept (`respond_world_cases`). It changes at most the file in which the report on its target
is kept (`refresh_only`), and if it fails it changes nothing unless a report is lost
(`refresh_failed`). `respond_frames` says so of all requests.
-/

namespace ScriptSurvey.Service

open Entry

/-! ## A new scan -/

theorem Response.status_ofScanFault (fault : ScanFault) :
    (Response.ofScanFault fault).status ≠ 200 := by
  unfold Response.ofScanFault
  split <;> exact ne_of_beq_false rfl

/-- A scan of the target gives a report that is kept: the file for it can be opened and stands at
`place`, and there is a text of the report and room for it. -/
structure Keeps (w : World) (p : Path) (place : Location) (report : Report) : Prop where
  opens : w.Writable (Cache.path w p) place
  scanned : (scanPath w 1 p).value = .ok report
  safe : ¬ Cache.Lost w place (report.text? w.stray)

/-- A scan of the target gives a report that is lost: the file for it can be opened and stands at
`place`, but a source has a name with bytes that are no text, or there is no room for the report. -/
structure Loses (w : World) (p : Path) (place : Location) : Prop where
  opens : w.Writable (Cache.path w p) place
  lost : ∃ sources, Source.atPath w p = .ok sources ∧
    ((∃ source ∈ sources, ∃ c ∈ source.name.toList, c ∈ w.stray) ∨ place ∈ w.full)

/-- What a new scan of a target comes to. -/
inductive Refreshed (w : World) (p : Path) : Answer → Prop
  | failed {fault : ScanFault} (scanned : (scanPath w 1 p).value = .error fault) :
      Refreshed w p ⟨.ofScanFault fault, w, (scanPath w 1 p).lines⟩
  | kept {place : Location} {report : Report} (keeps : Keeps w p place report) :
      Refreshed w p ⟨.ok report.toJson, w.putFile place (Text.encode report.text),
        (scanPath w 1 p).lines ++ [Cache.savedLine w p]⟩
  | lost {place : Location} (loses : Loses w p place) :
      Refreshed w p ⟨.internal, w.putFile place [], (scanPath w 1 p).lines⟩
  | closed {report : Report} (scanned : (scanPath w 1 p).value = .ok report)
      (closed : ∀ place, ¬ w.Writable (Cache.path w p) place) :
      Refreshed w p ⟨.internal, w, (scanPath w 1 p).lines⟩

section Scans

variable {w : World} {p : Path} {place : Location} {report : Report}

/-- Where the file can be opened, the report of a scan is lost if there is no text of it or no
room. -/
theorem loses_iff (opens : w.Writable (Cache.path w p) place)
    (scanned : (scanPath w 1 p).value = .ok report) :
    Loses w p place ↔ Cache.Lost w place (report.text? w.stray) := by
  obtain ⟨sources, hs⟩ := exists_sources scanned
  have unspelled : report.text? w.stray = none ↔ report.names w.stray = true := by
    rw [Report.text?]
    split_ifs with names <;> simp [names]
  rw [Cache.Lost, unspelled, names_of_scanPath hs scanned]
  constructor
  · rintro ⟨-, others, ho, lost⟩
    cases ho.symm.trans hs
    exact lost
  · exact fun lost => ⟨opens, sources, hs, lost⟩

theorem refresh_of_fault {fault : ScanFault} (scanned : (scanPath w 1 p).value = .error fault) :
    refresh w p = ⟨.ofScanFault fault, w, (scanPath w 1 p).lines⟩ := by
  rw [refresh, scanned]

theorem refresh_of_keeps (h : Keeps w p place report) : refresh w p =
    ⟨.ok report.toJson, w.putFile place (Text.encode report.text),
      (scanPath w 1 p).lines ++ [Cache.savedLine w p]⟩ := by
  obtain ⟨spelled, room⟩ := not_or.mp h.safe
  have text : report.text? w.stray = some report.text := by
    rw [Report.text?] at spelled ⊢
    split_ifs at spelled ⊢
    · exact absurd rfl spelled
    · rfl
  rw [refresh, h.scanned]
  dsimp only
  rw [text, Cache.keep_of_writable h.opens room]

theorem refresh_of_loses (h : Loses w p place) :
    refresh w p = ⟨.internal, w.putFile place [], (scanPath w 1 p).lines⟩ := by
  obtain ⟨sources, hs, -⟩ := h.lost
  obtain ⟨report, scanned, -⟩ := exists_report hs
  obtain ⟨fault, kept⟩ := Cache.keep_of_lost h.opens ((loses_iff h.opens scanned).mp h)
  rw [refresh, scanned]
  dsimp only
  rw [kept]

theorem refresh_of_closed (scanned : (scanPath w 1 p).value = .ok report)
    (closed : ∀ place, ¬ w.Writable (Cache.path w p) place) :
    refresh w p = ⟨.internal, w, (scanPath w 1 p).lines⟩ := by
  obtain ⟨fault, kept⟩ := Cache.keep_of_closed closed (report.text? w.stray)
  rw [refresh, scanned]
  dsimp only
  rw [kept]

/-- **A new scan** comes to one of four things. -/
theorem refreshed (w : World) (p : Path) :
    ∃ answer, refresh w p = answer ∧ Refreshed w p answer := by
  cases scanned : (scanPath w 1 p).value with
  | error fault => exact ⟨_, refresh_of_fault scanned, .failed scanned⟩
  | ok report =>
    by_cases opens : ∃ place, w.Writable (Cache.path w p) place
    · obtain ⟨place, opens⟩ := opens
      by_cases lost : Cache.Lost w place (report.text? w.stray)
      · have loses := (loses_iff opens scanned).mpr lost
        exact ⟨_, refresh_of_loses loses, .lost loses⟩
      · have keeps : Keeps w p place report := ⟨opens, scanned, lost⟩
        exact ⟨_, refresh_of_keeps keeps, .kept keeps⟩
    · have closed := not_exists.mp opens
      exact ⟨_, refresh_of_closed scanned closed, .closed scanned closed⟩

end Scans

/-- Scans of a target come to the same in both worlds. -/
structure ScansAlike (w w' : World) (p : Path) : Prop where
  sources : Source.atPath w p = Source.atPath w' p
  opens : ∀ place, w.Writable (Cache.path w p) place ↔ w'.Writable (Cache.path w' p) place
  full : w.full = w'.full
  stray : w.stray = w'.stray

section Alike

variable {w w' : World} {p : Path} (h : ScansAlike w w' p) {place : Location} {report : Report}

include h

theorem ScansAlike.scanPath_eq : scanPath w 1 p = scanPath w' 1 p := by
  rw [scanPath, scanPath, h.sources]

theorem ScansAlike.keeps (keeps : Keeps w' p place report) : Keeps w p place report where
  opens := (h.opens place).mpr keeps.opens
  scanned := h.scanPath_eq ▸ keeps.scanned
  safe := by
    rw [Cache.Lost, h.stray, h.full]
    exact keeps.safe

theorem ScansAlike.loses (loses : Loses w' p place) : Loses w p place where
  opens := (h.opens place).mpr loses.opens
  lost := by
    rw [h.sources, h.stray, h.full]
    exact loses.lost

/-- In both worlds a report is kept at the same place or lost there, or nothing changes and the
answer is the same. -/
theorem ScansAlike.refresh_cases :
    (∃ place report, Keeps w p place report ∧ Keeps w' p place report) ∨
    (∃ place, Loses w p place ∧ Loses w' p place) ∨
    ∃ response, response.status ≠ 200 ∧ refresh w p = ⟨response, w, (scanPath w 1 p).lines⟩ ∧
      refresh w' p = ⟨response, w', (scanPath w 1 p).lines⟩ := by
  obtain ⟨answer, hr, outcome⟩ := refreshed w' p
  rw [hr]
  cases outcome with
  | kept keeps => exact .inl ⟨_, _, h.keeps keeps, keeps⟩
  | lost loses => exact .inr (.inl ⟨_, h.loses loses, loses⟩)
  | failed scanned =>
    have fails := refresh_of_fault (h.scanPath_eq ▸ scanned)
    refine .inr (.inr ⟨_, Response.status_ofScanFault _, fails, ?_⟩)
    rw [h.scanPath_eq]
  | closed scanned closed =>
    have shut : ∀ place, ¬ w.Writable (Cache.path w p) place :=
      fun place opens => closed place ((h.opens place).mp opens)
    have fails := refresh_of_closed (h.scanPath_eq ▸ scanned) shut
    refine .inr (.inr ⟨_, ne_of_beq_false rfl, fails, ?_⟩)
    rw [h.scanPath_eq]

end Alike

/-! ## Answers that change nothing -/

section Answers

variable (w : World) (p : Path)

theorem dependencies_world : (dependencies w p).world = w := by
  unfold dependencies
  dsimp only
  split
  · rfl
  · rfl
  · split <;> rfl

theorem analyzeOne_world (body : String) : (analyzeOne w body).world = w := by
  unfold analyzeOne
  split
  · rfl
  · split <;> rfl

theorem analyzeMany_world (body : String) : (analyzeMany w body).world = w := by
  unfold analyzeMany
  split
  · rfl
  · dsimp only
    split <;> rfl

end Answers

/-! ## All requests -/

/-- The request asks for a new scan, or for a report where none is kept. -/
def Request.Scans (request : Request) (w : World) : Prop :=
  ∃ route, Route.find? request.url = some route ∧ request.method.toUpper = route.method ∧
    (route = .refresh ∨ route = .analysis ∧ Cache.load w (target w request.path) = .ok none)

/-- A request is answered by its route. -/
theorem respond_eq_answer {w : World} {request : Request} {route : Route}
    (found : Route.find? request.url = some route)
    (method : request.method.toUpper = route.method) :
    respond w request = route.answer w request := by
  have answered : dispatch w request = route.answer w request := by
    unfold dispatch
    rw [found]
    exact if_pos method
  rw [respond, answered, method]
  cases route <;> rfl

/-- A request for a scan is answered by one, if its target is there. -/
theorem respond_of_scans {w : World} {request : Request} (scans : request.Scans w)
    (there : w.pathExists (target w request.path) = true) :
    respond w request = refresh w (target w request.path) := by
  obtain ⟨route, found, method, rfl | ⟨rfl, missing⟩⟩ := scans
  · rw [respond_eq_answer found method, Route.answer, withTarget, if_pos there]
  · rw [respond_eq_answer found method, Route.answer, withTarget, if_pos there, analysis, missing]

/-- The request asks for a scan of a target that is there, whose report is lost at `place`. -/
structure Request.Loses (request : Request) (w : World) (place : Location) : Prop where
  scans : request.Scans w
  there : w.pathExists (target w request.path) = true
  loses : Service.Loses w (target w request.path) place

end ScriptSurvey.Service
