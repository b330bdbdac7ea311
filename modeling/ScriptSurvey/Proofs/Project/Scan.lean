import ScriptSurvey.Project.Scan
import ScriptSurvey.Proofs.Files.Bare
import ScriptSurvey.Proofs.Project.Codec
import ScriptSurvey.Proofs.Project.Order

/-!
# What a scan depends on

The report of a scan has the path as its root, and all else of it comes from the sources that the
path leads to (`scanPath_value_congr`). These are told by where the path leads, and by its last name
if it leads to a file (`Source.atPath_eq_of_leads`), and they are the same where reports are kept
among the files and where none are (`World.Mirrors.atPath`). The clock stands still, so that the
times in a report are finite (`timesFinite_of_scanPath`).
-/

namespace ScriptSurvey

open Entry (Sight)
open Cache (isReportName)

/-! ## Times -/

theorem Clock.elapsed_default : ({} : Clock).elapsed = Double.zero false := by
  decide +kernel

theorem time_of_analyzeWith_eq_ok {read : TreeReader} {clock : Clock} {filename source : String}
    {r : Record} (h : analyzeWith read clock filename source = .ok r) : r.time = clock.elapsed := by
  cases hread : read (Syntax.Options.forFile filename) source with
  | error failure =>
    simp only [analyzeWith, hread] at h
    cases h
    rfl
  | ok root =>
    obtain ⟨m, -, -, rfl⟩ := eq_recorded_of_analyzeWith_eq_ok hread h
    rfl

namespace Source

theorem record_time (s : Source) : (s.record analyze).time = Double.zero false := by
  unfold record
  cases ha : analyze s with
  | error fault => rfl
  | ok r => exact (time_of_analyzeWith_eq_ok ha).trans Clock.elapsed_default

theorem record_filename (s : Source) : (s.record analyze).filename = s.name := by
  unfold record
  cases ha : analyze s with
  | error fault => rfl
  | ok r => exact (isOf_of_analyzeWith_eq_ok ha).filename_eq

theorem record_produced (s : Source) : (s.record analyze).Produced := by
  unfold record
  cases ha : analyze s with
  | error fault => exact .failed ..
  | ok r => exact .analyzed ha

end Source

theorem Double.sum_zeros {xs : List Double} (h : ∀ x ∈ xs, x = Double.zero false) :
    Double.sum xs = Double.zero false := by
  have step : Double.add (.zero false) (.zero false) = .zero false := by decide +kernel
  unfold sum
  induction xs with
  | nil => rfl
  | cons x xs ih =>
    rw [List.foldl_cons, h x List.mem_cons_self, step]
    exact ih fun y hy => h y (List.mem_cons_of_mem _ hy)

/-- The records of sources have a report, and the times in it are finite. -/
theorem Report.ofRecords_of_sources (root : String) (sources : List Source) :
    ∃ report, Report.ofRecords root (sources.map (·.record Source.analyze)) = .ok report ∧
      report.TimesFinite ∧ report.files = sources.map (·.record Source.analyze) := by
  have times : ∀ r ∈ sources.map (·.record Source.analyze), r.time = Double.zero false :=
    List.forall_mem_map.mpr fun s _ => s.record_time
  have produced : ∀ r ∈ sources.map (·.record Source.analyze), r.Produced :=
    List.forall_mem_map.mpr fun s _ => s.record_produced
  obtain ⟨q, c, m, -, -, -, h⟩ := Summary.ofRecords_of_produced produced
  refine ⟨⟨root, _, _⟩, by rw [Report.ofRecords, h]; rfl, ⟨fun r hr => ?_, ?_⟩, rfl⟩
  · rw [times r hr]
    rfl
  · have total : Double.sum (((sources.map (·.record Source.analyze)).filter (·.ok)).map (·.time)) =
        Double.zero false :=
      Double.sum_zeros (List.forall_mem_map.mpr fun r hr => times r (List.mem_of_mem_filter hr))
    have rounded : ((Double.zero false).roundPlaces 2).isFinite = true := by decide +kernel
    rw [Summary.figures]
    dsimp only
    rw [total]
    exact rounded

/-! ## Reports and sources -/

section Scans

variable {w w' : World} {p q : Path} {report : Report}

theorem scanPath_value (w : World) (p : Path) :
    (scanPath w 1 p).value =
      match Source.atPath w p with
      | .error fault => .error (.source fault)
      | .ok sources =>
        (Report.ofRecords p.text (sources.map (·.record Source.analyze))).mapError .summary := by
  unfold scanPath
  dsimp only
  cases Source.atPath w p with
  | error fault => rfl
  | ok sources => simp [analyzeSources, analyzeInTurn, PoolRun.records]

/-- A scan that finds sources gives a report on them, whose times are finite. -/
theorem exists_report {sources : List Source} (hs : Source.atPath w p = .ok sources) :
    ∃ report, (scanPath w 1 p).value = .ok report ∧ report.TimesFinite ∧
      report.files = sources.map (·.record Source.analyze) := by
  obtain ⟨report, hr, finite, files⟩ := Report.ofRecords_of_sources p.text sources
  refine ⟨report, ?_, finite, files⟩
  rw [scanPath_value, hs]
  dsimp only
  rw [hr]
  rfl

theorem exists_sources (h : (scanPath w 1 p).value = .ok report) :
    ∃ sources, Source.atPath w p = .ok sources := by
  rw [scanPath_value] at h
  cases hs : Source.atPath w p with
  | error fault =>
    rw [hs] at h
    cases h
  | ok sources => exact ⟨sources, rfl⟩

theorem timesFinite_of_scanPath (h : (scanPath w 1 p).value = .ok report) : report.TimesFinite := by
  obtain ⟨sources, hs⟩ := exists_sources h
  obtain ⟨found, hr, finite, -⟩ := exists_report hs
  cases hr.symm.trans h
  exact finite

/-- The names in a report are those of the sources. -/
theorem names_of_scanPath {sources : List Source} (hs : Source.atPath w p = .ok sources)
    (h : (scanPath w 1 p).value = .ok report) (stray : List Char) :
    report.names stray = true ↔ ∃ source ∈ sources, ∃ c ∈ source.name.toList, c ∈ stray := by
  obtain ⟨found, hr, -, files⟩ := exists_report hs
  cases hr.symm.trans h
  simp [Report.names, files, Source.record_filename]

/-- Two scans that find the same sources give the same report, up to its root. -/
theorem scanPath_value_congr (hs : Source.atPath w p = Source.atPath w' q)
    (h : (scanPath w 1 p).value = .ok report) :
    (scanPath w' 1 q).value = .ok { report with root := q.text } := by
  rw [scanPath_value] at h ⊢
  rw [← hs]
  cases hp : Source.atPath w p with
  | error fault =>
    rw [hp] at h
    cases h
  | ok sources =>
    rw [hp] at h
    dsimp only at h ⊢
    rw [Report.ofRecords] at h ⊢
    cases hr : Summary.ofRecords (sources.map (·.record Source.analyze)) with
    | error fault =>
      rw [hr] at h
      cases h
    | ok summary =>
      rw [hr] at h
      cases h
      rfl

end Scans

/-! ## Sources and places -/

theorem Source.atPath_eq_of_leads {w : World} {p q : Path} {l : Location} {s : Sight}
    (hp : w.Leads p l s) (hq : w.Leads q l s) (hn : s = .folder ∨ p.name = q.name) :
    atPath w p = atPath w q := by
  cases s with
  | folder =>
    rw [atPath, atPath, if_pos (hp.isFolder_iff.mpr rfl), if_pos (hq.isFolder_iff.mpr rfl),
      listScripts, listScripts, hp.resolve, hq.resolve, hp.entry_eq, hq.entry_eq]
  | file bytes =>
    have name : p.name = q.name := hn.resolve_left nofun
    have suffix : p.suffix = q.suffix := by rw [Path.suffix, Path.suffix, name]
    rw [atPath, atPath, if_neg (hp.isFolder_iff.not.mpr nofun),
      if_neg (hq.isFolder_iff.not.mpr nofun), hp.read, hq.read, suffix, name]

/-! ## Reports among the files -/

/-- The listing of a folder does not show the reports among the files. -/
theorem listScripts_eq_bare {w : World} {p : Path} {l : Location} (hl : w.Leads p l .folder) :
    listScripts w p = (Ignore.rulesAt w.top.bare l).map fun rules =>
      ((w.top.bare.at? l).map (filesIn (keeping rules l) [])).getD [] := by
  obtain ⟨entries, he⟩ := Entry.look_eq_folder.mp hl.look
  rw [listScripts, hl.resolve, hl.entry_eq, Ignore.rulesAt_bare hl.look, Entry.at?_bare_folder he,
    he, ← Entry.bare_folder]
  cases Ignore.rulesAt w.top l with
  | error fault => rfl
  | ok rules =>
    refine congrArg Except.ok (filesIn_bare (fun here name hn => ?_) [] _).symm
    simp only [keeping, isAnalyzable_report hn, Bool.false_and]

/-- Where the files are the same but for reports among them, a path that leads to the same place
leads to the same sources. -/
theorem Source.atPath_eq_of_bare {w w' : World} (bare : w.top.bare = w'.top.bare)
    (reader : w.reader = w'.reader) {p : Path} {l : Location} {s : Sight} (hw : w.Leads p l s)
    (hw' : w'.Leads p l s) : atPath w p = atPath w' p := by
  cases s with
  | folder =>
    rw [atPath, atPath, if_pos (hw.isFolder_iff.mpr rfl), if_pos (hw'.isFolder_iff.mpr rfl),
      listScripts_eq_bare hw, listScripts_eq_bare hw', bare]
  | file bytes =>
    rw [atPath, atPath, if_neg (hw.isFolder_iff.not.mpr nofun),
      if_neg (hw'.isFolder_iff.not.mpr nofun), hw.read, hw'.read, reader]

/-- The world is another one with reports kept among its files, and the other one has no file and no
folder of such a name. -/
structure World.Mirrors (w w₀ : World) : Prop where
  around : { w with top := w₀.top } = w₀
  top : w.top.bare = w₀.top
  clean : w₀.top.isClean = true

namespace World.Mirrors

theorem refl {w : World} (h : w.top.isClean = true) : w.Mirrors w :=
  ⟨rfl, Entry.bare_of_isClean h, h⟩

variable {w w₀ : World} (h : w.Mirrors w₀)

include h

theorem folder : w.folder = w₀.folder := (congrArg World.folder h.around :)

theorem served : w.served = w₀.served := (congrArg World.served h.around :)

theorem reader : w.reader = w₀.reader := (congrArg World.reader h.around :)

theorem full : w.full = w₀.full := (congrArg World.full h.around :)

theorem stray : w.stray = w₀.stray := (congrArg World.stray h.around :)

theorem names {l : Location} {s : Sight} (hl : w₀.top.look l = some s) :
    ∀ name ∈ l, isReportName name = false := by
  obtain ⟨found, hf, -⟩ := Option.map_eq_some_iff.mp hl
  exact Entry.names_of_at? h.clean hf

theorem look {l : Location} {s : Sight} (hl : w₀.top.look l = some s) : w.top.look l = some s := by
  have clean := h.clean
  rw [← h.top] at clean hl
  exact Entry.look_of_look_bare clean hl

/-- Where a path led, it still leads. -/
theorem leads {p : Path} {l : Location} {s : Sight} (hl : w₀.Leads p l s) : w.Leads p l s := by
  refine ⟨?_, h.look hl.look⟩
  rw [locate, h.folder]
  refine Entry.follow_mono (fun m hm => h.look hm) (fun m hm => ?_) hl.locate
  obtain ⟨s, hs⟩ := Option.isSome_iff_exists.mp hm
  rw [h.look hs]
  rfl

/-- The sources are those of the world without reports. -/
theorem atPath {p : Path} {l : Location} {s : Sight} (hl : w₀.Leads p l s) :
    Source.atPath w p = Source.atPath w₀ p :=
  Source.atPath_eq_of_bare (h.top.trans (Entry.bare_of_isClean h.clean).symm) h.reader (h.leads hl)
    hl

end World.Mirrors

end ScriptSurvey
