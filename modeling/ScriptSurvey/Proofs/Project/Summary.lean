import ScriptSurvey.Project.Pool
import ScriptSurvey.Project.Report
import ScriptSurvey.Proofs.Analysis

/-!
# Summaries that do not fail

A record is complete, with every finding, or blank, with an error and none
(`Record.IsOf.complete_or_blank`). On such records the findings that a summary asks for are there,
and the scores that it averages are no larger than doubles are (`Record.Bounded`), so that they have
means (`Summary.exists_mean_iff`) and the summary has a value (`Summary.ofRecords_ok`), whose figures
`Summary.figures` gives.
-/

namespace ScriptSurvey

/-! ## Complete records and blank ones -/

namespace Record

/-- A record without an error and with all findings. -/
structure Complete (r : Record) : Prop where
  error : r.error = none
  functions : r.functions.isSome
  bindings : r.bindings.isSome
  handlers : r.handlers.isSome
  components : r.components.isSome
  hooks : r.hooks.isSome
  imports : r.imports.isSome
  exports : r.exports.isSome
  complexity : r.complexity.isSome
  issues : r.issues.isSome
  metrics : r.metrics.isSome
  stateModel : r.stateModel.isSome
  graph : r.graph.isSome

/-- A record with an error, without any finding, and of no quality. -/
structure Blank (r : Record) : Prop where
  error : r.error.isSome
  quality : r.quality = 0
  functions : r.functions = none
  bindings : r.bindings = none
  handlers : r.handlers = none
  components : r.components = none
  hooks : r.hooks = none
  imports : r.imports = none
  exports : r.exports = none
  complexity : r.complexity = none
  issues : r.issues = none
  metrics : r.metrics = none
  stateModel : r.stateModel = none
  graph : r.graph = none

/-- The scores of a record are no larger than doubles are. -/
structure Bounded (r : Record) : Prop where
  quality : r.quality.natAbs < Double.limit
  cyclomatic : ∀ m ∈ r.metrics, m.cyclomatic.natAbs < Double.limit
  maintainability : ∀ m ∈ r.metrics, m.maintainability.natAbs < Double.limit

namespace IsOf

variable {filename : String} {lineCount : Int} {r : Record}

theorem complete_or_blank (h : r.IsOf filename lineCount) : r.Complete ∨ r.Blank := by
  cases h with
  | failed message time => exact .inr (by constructor <;> rfl)
  | recorded root m time hc hm => exact .inl (by constructor <;> rfl)

theorem lineCount_eq (h : r.IsOf filename lineCount) : r.lineCount = lineCount := by
  cases h <;> rfl

theorem bounded (h : r.IsOf filename lineCount) : r.Bounded := by
  cases h with
  | failed message time =>
    have zero : (0 : Int).natAbs < Double.limit :=
      Double.natAbs_lt_limit_of_percent (by decide) (by decide)
    exact ⟨zero, nofun, nofun⟩
  | recorded root m time hc hm =>
    obtain ⟨h₀, h₁⟩ := Score.percent_bounds _
    refine ⟨Double.natAbs_lt_limit_of_percent h₀ h₁, ?_, ?_⟩
    · rintro _ ⟨⟩
      simpa [root.surveyed_cyclomatic] using hc
    · rintro _ ⟨⟩
      exact hm

end IsOf

end Record

namespace Summary

/-! ## Figures -/

theorem total_eq_sum (values : List Int) : total values = values.sum := rfl

/-- Findings that are there can be collected. -/
theorem collect_ok {α β : Type} {records : List Record} {finding : Record → Option α}
    (fault : SummaryFault) (f : α → β) (h : ∀ r ∈ records, (finding r).isSome) :
    collect records finding fault f = .ok ((records.filterMap finding).map f) := by
  induction records with
  | nil => rfl
  | cons r records ih =>
    obtain ⟨found, hr⟩ := Option.isSome_iff_exists.mp (h r (by simp))
    have later := ih fun r' hr' => h r' (by simp [hr'])
    unfold collect at later ⊢
    rw [List.mapM_cons, later]
    simp only [hr, List.filterMap_cons, List.map_cons]
    rfl

theorem countAll_ok {α : Type} {records : List Record} {finding : Record → Option (List α)}
    (h : ∀ r ∈ records, (finding r).isSome) :
    countAll records finding =
      .ok (total ((records.filterMap finding).map fun xs => (xs.length : Int))) := by
  rw [countAll, collect_ok _ _ h]
  rfl

theorem union_ok {α : Type} {records : List Record} {finding : Record → Option (List α)}
    (h : ∀ r ∈ records, (finding r).isSome) (name : α → String) :
    union records finding name =
      .ok (distinct ((records.filterMap finding).map (·.map name)).flatten) := by
  rw [union, collect_ok _ _ h]
  rfl

theorem natAbs_sum_lt {values : List Int} {bound : Nat} (hne : values ≠ [])
    (h : ∀ v ∈ values, v.natAbs < bound) : values.sum.natAbs < bound * values.length := by
  induction values with
  | nil => exact absurd rfl hne
  | cons v values ih =>
    have first : v.natAbs < bound := h v (by simp)
    rw [List.sum_cons, List.length_cons, Nat.mul_succ]
    by_cases hv : values = []
    · simpa [hv] using first
    · have later := ih hv fun w hw => h w (by simp [hw])
      have := Int.natAbs_add_le v values.sum
      omega

/-- Whether the mean of integers is within the range of doubles; of none, it is zero. -/
def HasMean (values : List Int) : Prop :=
  values = [] ∨ values.sum.natAbs < Double.limit * values.length

/-- **Integers have a rounded mean** exactly if the mean is within the range of doubles. -/
theorem exists_mean_iff (values : List Int) : (∃ a, mean values = .ok a) ↔ HasMean values := by
  unfold mean HasMean
  split
  · rename_i hnil
    exact iff_of_true ⟨0, rfl⟩ (.inl (List.isEmpty_iff.mp hnil))
  · rename_i hne
    rw [List.isEmpty_iff] at hne
    have hlen := List.length_pos_of_ne_nil hne
    rw [total_eq_sum, or_iff_right hne]
    constructor
    · rintro ⟨a, h⟩
      cases hx : Double.ofQuotient values.sum values.length with
      | error fault =>
        rw [hx] at h
        cases h
      | ok x => exact Double.natAbs_lt_of_ofQuotient_eq_ok hlen hx
    · intro h
      obtain ⟨x, hx, hf⟩ := Double.ofQuotient_ok hlen h
      obtain ⟨a, ha, -⟩ := Double.roundHalfUp_ok hf
      refine ⟨a, ?_⟩
      rw [hx]
      exact ha

/-- The mean of integers no larger than doubles is no larger than they are. -/
theorem hasMean_of_lt {values : List Int} (h : ∀ v ∈ values, v.natAbs < Double.limit) :
    HasMean values :=
  or_iff_not_imp_left.mpr fun hne => natAbs_sum_lt hne h

/-- The figures of a project whose read files have all findings, given the three averages. -/
def figures (records : List Record) (quality cyclomatic maintainability : Int) : Summary :=
  let read := records.filter (·.ok)
  { totalFiles := records.length
    failedFiles := records.length - read.length
    totalLines := total (records.map (·.lineCount))
    totalFunctions := total ((read.filterMap (·.functions)).map fun xs => (xs.length : Int))
    totalVariables := total ((read.filterMap (·.bindings)).map fun xs => (xs.length : Int))
    totalHandlers := total ((read.filterMap (·.handlers)).map fun xs => (xs.length : Int))
    totalComponents := total ((read.filterMap (·.components)).map fun xs => (xs.length : Int))
    hooks := distinct (read.filterMap (·.hooks)).flatten
    importSources := distinct ((read.filterMap (·.imports)).map (·.map (·.source))).flatten
    totalIssues := total ((read.filterMap (·.issues)).map fun xs => (xs.length : Int))
    averageQuality := quality
    averageCyclomatic := cyclomatic
    averageMaintainability := maintainability
    totalCoupling := total ((read.filterMap (·.metrics)).map (·.coupling))
    totalWeightedMethods := total ((read.filterMap (·.metrics)).map (·.weightedMethods))
    totalTime := (Double.sum (read.map (·.time))).roundPlaces 2
    graph := Graph.merge (read.filterMap (·.graph))
    states := (read.filterMap (·.stateModel)).flatMap (·.states)
    transitions := (read.filterMap (·.stateModel)).flatMap (·.transitions)
    effects := (read.filterMap (·.stateModel)).flatMap (·.effects) }

/-- On records that have all findings if they were read, a summary is a matter of the averages. -/
theorem ofRecords_of_complete {records : List Record}
    (complete : ∀ r ∈ records.filter (·.ok), r.Complete) :
    ofRecords records = (do
      let read := records.filter (·.ok)
      let quality ← (mean (read.map (·.quality))).mapError .numeric
      let cyclomatic ← (mean ((read.filterMap (·.metrics)).map (·.cyclomatic))).mapError .numeric
      let maintainability ←
        (mean ((read.filterMap (·.metrics)).map (·.maintainability))).mapError .numeric
      return figures records quality cyclomatic maintainability) := by
  have metrics {β : Type} (fault : SummaryFault) (f : Metrics → β) :=
    collect_ok fault f fun r hr => (complete r hr).metrics
  simp only [ofRecords, countAll_ok fun r hr => (complete r hr).functions,
    countAll_ok fun r hr => (complete r hr).bindings,
    countAll_ok fun r hr => (complete r hr).handlers,
    countAll_ok fun r hr => (complete r hr).components,
    union_ok fun r hr => (complete r hr).hooks,
    union_ok fun r hr => (complete r hr).imports,
    countAll_ok fun r hr => (complete r hr).issues,
    collect_ok _ _ fun r hr => (complete r hr).graph,
    collect_ok _ _ fun r hr => (complete r hr).stateModel,
    metrics, List.map_id_fun, List.map_id_fun', id_eq, bind, Except.bind]
  rfl

theorem ofRecords_eq {records : List Record} {quality cyclomatic maintainability : Int}
    (complete : ∀ r ∈ records.filter (·.ok), r.Complete)
    (hq : mean ((records.filter (·.ok)).map (·.quality)) = .ok quality)
    (hc : mean (((records.filter (·.ok)).filterMap (·.metrics)).map (·.cyclomatic)) =
      .ok cyclomatic)
    (hm : mean (((records.filter (·.ok)).filterMap (·.metrics)).map (·.maintainability)) =
      .ok maintainability) :
    ofRecords records = .ok (figures records quality cyclomatic maintainability) := by
  simp only [ofRecords_of_complete complete, hq, hc, hm]
  rfl

/-- **A summary of complete records and blank ones has a value.** -/
theorem ofRecords_ok {records : List Record} (hc : ∀ r ∈ records, r.Complete ∨ r.Blank)
    (hb : ∀ r ∈ records, r.Bounded) :
    ∃ quality cyclomatic maintainability,
      mean ((records.filter (·.ok)).map (·.quality)) = .ok quality ∧
      mean (((records.filter (·.ok)).filterMap (·.metrics)).map (·.cyclomatic)) = .ok cyclomatic ∧
      mean (((records.filter (·.ok)).filterMap (·.metrics)).map (·.maintainability)) =
        .ok maintainability ∧
      ofRecords records = .ok (figures records quality cyclomatic maintainability) := by
  have complete : ∀ r ∈ records.filter (·.ok), r.Complete := by
    intro r hr
    obtain ⟨hr, hok⟩ := List.mem_filter.mp hr
    refine (hc r hr).resolve_right fun blank => ?_
    rw [Record.ok, ← Option.not_isSome, blank.error] at hok
    cases hok
  have bounded : ∀ r ∈ records.filter (·.ok), r.Bounded := fun r hr =>
    hb r (List.mem_of_mem_filter hr)
  obtain ⟨quality, hq⟩ : ∃ a, mean ((records.filter (·.ok)).map (·.quality)) = .ok a := by
    refine (exists_mean_iff _).mpr (hasMean_of_lt fun v hv => ?_)
    obtain ⟨r, hr, rfl⟩ := List.mem_map.mp hv
    exact (bounded r hr).quality
  have measured {measure : Metrics → Int}
      (h : ∀ r : Record, r.Bounded → ∀ m ∈ r.metrics, (measure m).natAbs < Double.limit) :
      ∃ a, mean (((records.filter (·.ok)).filterMap (·.metrics)).map measure) = .ok a := by
    refine (exists_mean_iff _).mpr (hasMean_of_lt fun v hv => ?_)
    obtain ⟨m, hm, rfl⟩ := List.mem_map.mp hv
    obtain ⟨r, hr, hm⟩ := List.mem_filterMap.mp hm
    exact h r (bounded r hr) m hm
  obtain ⟨cyclomatic, hcyc⟩ := measured fun r hr => hr.cyclomatic
  obtain ⟨maintainability, hm⟩ := measured fun r hr => hr.maintainability
  exact ⟨quality, cyclomatic, maintainability, hq, hcyc, hm, ofRecords_eq complete hq hcyc hm⟩

end Summary

/-! ## Reports on sources taken in turn -/

theorem analyzeSources_records (analyzer : Analyzer) {workers : Int} {sources : List Source}
    (h : workers ≤ 1 ∨ sources.length ≤ 1) (course : Course) :
    (analyzeSources analyzer workers course sources).records = sources.map (·.record analyzer) := by
  have few : (workers ≤ 1 || sources.length ≤ 1) = true := by simpa using h
  rw [analyzeSources, if_pos few, PoolRun.records, List.filterMap_map]
  exact List.filterMap_some

theorem failedFiles_figures (records : List Record) (q c m : Int) :
    (Summary.figures records q c m).failedFiles = records.countP (·.error.isSome) := by
  have split : records.length = records.countP (·.ok) + records.countP (·.error.isSome) := by
    rw [List.length_eq_countP_add_countP Record.ok]
    congr 2
    funext r
    cases h : r.error <;> simp [Record.ok, h]
  have read : (records.filter (·.ok)).length = records.countP (·.ok) :=
    List.countP_eq_length_filter.symm
  show (records.length : Int) - (records.filter (·.ok)).length = _
  omega

/-- **No record is half a success**, and their report does not fail: each record of sources that are
taken in turn is complete or blank, whatever their texts become and whichever analyses break off,
with one line more than its source has line feeds; and the report counts all sources, those that
failed, and the lines of all. -/
theorem analyzeSources_report (read : Source → TreeReader) (clock : Source → Clock)
    (crash : Source → Option String) {workers : Int} (sources : List Source)
    (h : workers ≤ 1 ∨ sources.length ≤ 1) (course : Course) (root : String) :
    let records := (analyzeSources (.given read clock crash) workers course sources).records
    records.length = sources.length ∧
    (∀ (i : Nat) (s : Source), sources[i]? = some s →
      ∃ r : Record, records[i]? = some r ∧ (r.Complete ∨ r.Blank) ∧
        r.lineCount = s.text.toList.count '\n' + 1) ∧
    ∃ report, Report.ofRecords root records = .ok report ∧ report.files = records ∧
      report.summary.totalFiles = sources.length ∧
      report.summary.failedFiles = records.countP (·.error.isSome) ∧
      report.summary.totalLines =
        (sources.map fun s => (s.text.toList.count '\n' + 1 : Int)).sum := by
  intro records
  have hrecords : records = sources.map (·.record (.given read clock crash)) :=
    analyzeSources_records _ h course
  have isOf (s : Source) := s.record_isOf read clock crash
  have lines (s : Source) : (s.record (.given read clock crash)).lineCount =
      s.text.toList.count '\n' + 1 := by
    rw [(isOf s).lineCount_eq, Text.lineCount_eq, Int.natCast_add, Int.natCast_one]
  refine ⟨by rw [hrecords, List.length_map], fun i s hs => ?_, ?_⟩
  · exact ⟨_, by rw [hrecords, List.getElem?_map, hs]; rfl, (isOf s).complete_or_blank, lines s⟩
  · have each : ∀ r ∈ records, ∃ s : Source, r.IsOf s.name (Text.lineCount s.text) := by
      intro r hr
      rw [hrecords] at hr
      obtain ⟨s, -, rfl⟩ := List.mem_map.mp hr
      exact ⟨s, isOf s⟩
    obtain ⟨q, c, m, -, -, -, hsum⟩ := Summary.ofRecords_ok
      (fun r hr => (each r hr).choose_spec.complete_or_blank)
      (fun r hr => (each r hr).choose_spec.bounded)
    refine ⟨{ root, files := records, summary := Summary.figures records q c m }, ?_, rfl, ?_,
      failedFiles_figures records q c m, ?_⟩
    · rw [Report.ofRecords, hsum]
      rfl
    · show (records.length : Int) = _
      rw [hrecords, List.length_map]
    · show (records.map (·.lineCount)).sum = _
      rw [hrecords, List.map_map]
      simp only [Function.comp_def, lines]

/-- One source is refused, the analysis of one breaks off without a message, and one is read. -/
theorem analyzeSources_report_mixed :
    let read : Source → TreeReader := fun s _ _ =>
      if s.name = "a.js" then .error ⟨"refused"⟩ else .ok .specimen
    let crash : Source → Option String := fun s => if s.name = "b.js" then some "" else none
    let records := (analyzeSources (.given read (fun _ => {}) crash) 1 (.smooth 3)
      [⟨"a.js", "\n"⟩, ⟨"b.js", ""⟩, ⟨"c.js", "x\ny"⟩]).records
    ∃ report, Report.ofRecords "src" records = .ok report ∧ report.summary.totalFiles = 3 ∧
      report.summary.failedFiles = 2 ∧ report.summary.totalLines = 5 := by
  intro read crash records
  obtain ⟨-, -, report, h, -, hfiles, hfailed, hlines⟩ :=
    analyzeSources_report read (fun _ => {}) crash _ (.inl (le_refl 1)) (.smooth 3) "src"
  refine ⟨report, h, hfiles, hfailed.trans ?_, hlines.trans (by decide)⟩
  obtain ⟨m, third⟩ : ∃ m, Source.record (.given read (fun _ => {}) crash) ⟨"c.js", "x\ny"⟩ =
      Node.specimen.recorded "c.js" (Text.lineCount "x\ny") m ({} : Clock).elapsed :=
    Source.record_eq_recorded (fun _ => {}) rfl rfl Node.specimen_cyclomatic_lt
  rw [analyzeSources_records _ (.inl (le_refl 1)), List.map_cons, List.map_cons, List.map_singleton,
    third]
  rfl

end ScriptSurvey
