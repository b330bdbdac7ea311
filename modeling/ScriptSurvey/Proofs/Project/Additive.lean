import ScriptSurvey.Proofs.Project.Summary

/-!
# Summaries of parts

A summary can be put together from the summaries of two parts of a project: its totals add up, and
its lists are the lists of the parts, one after the other (`Summary.IsSumOf`). The averages cannot
fail where they did not fail for the parts, since the mean of the whole lies between the means of
the parts (`Summary.HasMean.append`).

A file that was not read counts as a file with its lines and is otherwise passed over: all other
figures are those of the files that were read (`Summary.ofRecords_eq_map`).
-/

namespace ScriptSurvey

/-- The names of two lists, once each, may be taken of each list first. -/
theorem firstOccurrences_append {α : Type} [DecidableEq α] (as bs : List α) :
    FirstOccurrences (distinct as ++ distinct bs) (distinct (as ++ bs)) := by
  have staged : distinct (as ++ bs) = distinct (distinct as ++ distinct bs) := by
    simp only [distinct_append, distinct_eq_self (nodup_distinct _), mem_distinct]
  rw [staged]
  exact firstOccurrences_distinct _

namespace Summary

/-! ## Two parts -/

/-- A summary whose totals and lists are those of two others together. -/
structure IsSumOf (s a b : Summary) : Prop where
  totalFiles : s.totalFiles = a.totalFiles + b.totalFiles
  failedFiles : s.failedFiles = a.failedFiles + b.failedFiles
  totalLines : s.totalLines = a.totalLines + b.totalLines
  totalFunctions : s.totalFunctions = a.totalFunctions + b.totalFunctions
  totalVariables : s.totalVariables = a.totalVariables + b.totalVariables
  totalHandlers : s.totalHandlers = a.totalHandlers + b.totalHandlers
  totalComponents : s.totalComponents = a.totalComponents + b.totalComponents
  hooks : FirstOccurrences (a.hooks ++ b.hooks) s.hooks
  importSources : FirstOccurrences (a.importSources ++ b.importSources) s.importSources
  totalIssues : s.totalIssues = a.totalIssues + b.totalIssues
  totalCoupling : s.totalCoupling = a.totalCoupling + b.totalCoupling
  totalWeightedMethods :
    s.totalWeightedMethods = a.totalWeightedMethods + b.totalWeightedMethods
  states : s.states = a.states ++ b.states
  transitions : s.transitions = a.transitions ++ b.transitions
  effects : s.effects = a.effects ++ b.effects

/-- The totals and lists of a project are those of its parts, whatever the averages. -/
theorem figures_append (xs ys : List Record) (q c m q₁ c₁ m₁ q₂ c₂ m₂ : Int) :
    (figures (xs ++ ys) q c m).IsSumOf (figures xs q₁ c₁ m₁) (figures ys q₂ c₂ m₂) := by
  have sums {α : Type} (finding : Record → Option α) (size : α → Int) :
      total ((((xs ++ ys).filter (·.ok)).filterMap finding).map size) =
        total (((xs.filter (·.ok)).filterMap finding).map size) +
          total (((ys.filter (·.ok)).filterMap finding).map size) := by
    simp only [total_eq_sum, List.filter_append, List.filterMap_append, List.map_append,
      List.sum_append]
  have names {α : Type} (finding : Record → Option α) (list : α → List String) :
      FirstOccurrences
        (distinct (((xs.filter (·.ok)).filterMap finding).map list).flatten ++
          distinct (((ys.filter (·.ok)).filterMap finding).map list).flatten)
        (distinct ((((xs ++ ys).filter (·.ok)).filterMap finding).map list).flatten) := by
    simp only [List.filter_append, List.filterMap_append, List.map_append, List.flatten_append]
    exact firstOccurrences_append ..
  have hooks := names (·.hooks) id
  simp only [List.map_id] at hooks
  exact {
    totalFiles := by simp [figures]
    failedFiles := by simp [figures]; omega
    totalLines := by simp [figures, total_eq_sum]
    totalFunctions := sums ..
    totalVariables := sums ..
    totalHandlers := sums ..
    totalComponents := sums ..
    hooks
    importSources := names ..
    totalIssues := sums ..
    totalCoupling := sums ..
    totalWeightedMethods := sums ..
    states := by simp [figures]
    transitions := by simp [figures]
    effects := by simp [figures] }

/-! ## When there is a summary -/

/-- The mean of two lists lies between their means. -/
theorem HasMean.append {xs ys : List Int} (hx : HasMean xs) (hy : HasMean ys) :
    HasMean (xs ++ ys) := by
  rcases hx with rfl | hx
  · exact hy
  rcases hy with rfl | hy
  · rw [List.append_nil]
    exact .inr hx
  refine .inr ?_
  rw [List.sum_append, List.length_append, Nat.mul_add]
  exact (Int.natAbs_add_le _ _).trans_lt (Nat.add_lt_add hx hy)

/-- Whether the scores of the files that were read have means. -/
structure HasAverages (records : List Record) : Prop where
  quality : HasMean ((records.filter (·.ok)).map (·.quality))
  cyclomatic : HasMean (((records.filter (·.ok)).filterMap (·.metrics)).map (·.cyclomatic))
  maintainability :
    HasMean (((records.filter (·.ok)).filterMap (·.metrics)).map (·.maintainability))

theorem HasAverages.append {xs ys : List Record} (hx : HasAverages xs) (hy : HasAverages ys) :
    HasAverages (xs ++ ys) := by
  constructor <;> simp only [List.filter_append, List.filterMap_append, List.map_append]
  · exact hx.quality.append hy.quality
  · exact hx.cyclomatic.append hy.cyclomatic
  · exact hx.maintainability.append hy.maintainability

section Complete

variable {records : List Record} (complete : ∀ r ∈ records, r.ok → r.Complete)
include complete

theorem complete_of_mem_filter : ∀ r ∈ records.filter (·.ok), r.Complete := by
  intro r hr
  obtain ⟨hr, hok⟩ := List.mem_filter.mp hr
  exact complete r hr hok

theorem ofRecords_of_hasAverages (h : HasAverages records) :
    ∃ q c m, ofRecords records = .ok (figures records q c m) := by
  obtain ⟨q, hq⟩ := (exists_mean_iff _).mpr h.quality
  obtain ⟨c, hc⟩ := (exists_mean_iff _).mpr h.cyclomatic
  obtain ⟨m, hm⟩ := (exists_mean_iff _).mpr h.maintainability
  exact ⟨q, c, m, ofRecords_eq (complete_of_mem_filter complete) hq hc hm⟩

theorem hasAverages_of_ofRecords_eq_ok {s : Summary} (h : ofRecords records = .ok s) :
    HasAverages records ∧ ∃ q c m, s = figures records q c m := by
  simp only [ofRecords_of_complete (complete_of_mem_filter complete)] at h
  cases hq : mean ((records.filter (·.ok)).map (·.quality)) with
  | error fault =>
    rw [hq] at h
    cases h
  | ok q =>
  cases hc : mean (((records.filter (·.ok)).filterMap (·.metrics)).map (·.cyclomatic)) with
  | error fault =>
    rw [hq, hc] at h
    cases h
  | ok c =>
  cases hm : mean (((records.filter (·.ok)).filterMap (·.metrics)).map (·.maintainability)) with
  | error fault =>
    rw [hq, hc, hm] at h
    cases h
  | ok m =>
    rw [hq, hc, hm] at h
    exact ⟨⟨(exists_mean_iff _).mp ⟨q, hq⟩, (exists_mean_iff _).mp ⟨c, hc⟩,
      (exists_mean_iff _).mp ⟨m, hm⟩⟩, q, c, m, (Except.ok.inj h).symm⟩

end Complete

/-! ## Files that were not read -/

/-- A summary with one more file that was not read. -/
def withFailure (s : Summary) (lineCount : Int) : Summary :=
  { s with
    totalFiles := s.totalFiles + 1
    failedFiles := s.failedFiles + 1
    totalLines := s.totalLines + lineCount }

/-- A summary is that of the files that were read, but for the numbers of files and lines. -/
theorem ofRecords_eq_map (records : List Record) :
    ofRecords records = (ofRecords (records.filter (·.ok))).map fun s =>
      { s with
        totalFiles := records.length
        failedFiles := records.length - (records.filter (·.ok)).length
        totalLines := total (records.map (·.lineCount)) } := by
  show _ = _ <$> _
  simp only [ofRecords, List.filter_filter, Bool.and_self, map_bind, map_pure]

/-- A file that was not read is passed over, wherever it stands. -/
theorem ofRecords_insert (front back : List Record) {r : Record} (h : r.error.isSome) :
    ofRecords (front ++ r :: back) =
      (ofRecords (front ++ back)).map (·.withFailure r.lineCount) := by
  have unread : ¬ r.ok := by simp [Record.ok, Option.isSome_iff_ne_none.mp h]
  have read : (front ++ r :: back).filter (·.ok) = (front ++ back).filter (·.ok) := by
    rw [List.filter_append, List.filter_cons_of_neg unread, List.filter_append]
  rw [ofRecords_eq_map, ofRecords_eq_map (front ++ back), read]
  cases ofRecords ((front ++ back).filter (·.ok)) with
  | error fault => rfl
  | ok s =>
    simp only [Except.map, withFailure, total_eq_sum, List.length_append, List.length_cons,
      List.map_append, List.map_cons, List.sum_append, List.sum_cons, Except.ok.injEq,
      Summary.mk.injEq, and_true]
    omega

/-- **A summary is additive and passes failures over.** Of records that have all findings if their
files were read, there is a summary exactly if the scores have means within the range of doubles. If
two lists have one, so has the whole: its totals are the sums, its names those of both in the order
of first occurrence, and its states, transitions and effects those of both one after the other. The
record of a file that was not read adds a file, a failed file and its lines wherever it stands, and
changes nothing else, whether there is a summary or not. -/
theorem ofRecords_append {xs ys : List Record} (hx : ∀ r ∈ xs, r.ok → r.Complete)
    (hy : ∀ r ∈ ys, r.ok → r.Complete) :
    ((∃ a, ofRecords xs = .ok a) ↔ HasAverages xs) ∧
    (∀ a b, ofRecords xs = .ok a → ofRecords ys = .ok b →
      ∃ s, ofRecords (xs ++ ys) = .ok s ∧ s.IsSumOf a b) ∧
    ∀ (front back : List Record) (r : Record), r.error.isSome →
      ofRecords (front ++ r :: back) =
        (ofRecords (front ++ back)).map (·.withFailure r.lineCount) := by
  refine ⟨⟨?_, ?_⟩, ?_, fun front back r => ofRecords_insert front back⟩
  · rintro ⟨a, ha⟩
    exact (hasAverages_of_ofRecords_eq_ok hx ha).1
  · intro h
    obtain ⟨q, c, m, ha⟩ := ofRecords_of_hasAverages hx h
    exact ⟨_, ha⟩
  · intro a b ha hb
    obtain ⟨averages, q₁, c₁, m₁, rfl⟩ := hasAverages_of_ofRecords_eq_ok hx ha
    obtain ⟨averages', q₂, c₂, m₂, rfl⟩ := hasAverages_of_ofRecords_eq_ok hy hb
    have whole : ∀ r ∈ xs ++ ys, r.ok → r.Complete := List.forall_mem_append.mpr ⟨hx, hy⟩
    obtain ⟨q, c, m, hs⟩ := ofRecords_of_hasAverages whole (averages.append averages')
    exact ⟨_, hs, figures_append ..⟩

section Parts

/-- The record of a file with one component. -/
def component (name : String) (lines : Int) : Record where
  filename := name ++ ".jsx"
  lineCount := lines
  quality := 95
  functions := some [name]
  bindings := some []
  handlers := some []
  components := some [name]
  hooks := some ["useState"]
  imports := some [⟨"react", ["useState"]⟩]
  exports := some [name]
  complexity := some {}
  issues := some []
  metrics := some { weightedMethods := 1 }
  stateModel := some { states := [⟨"open", "setOpen", "false", name⟩] }
  graph := some { functions := [⟨name, "component"⟩], roots := [name] }

theorem component_complete (name : String) (lines : Int) : (component name lines).Complete := by
  constructor <;> rfl

theorem hasAverages_component (name : String) (lines : Int) :
    HasAverages [component name lines, Record.failed "b.js" 3 "refused"] := by
  have single {v : Int} (h₀ : 0 ≤ v) (h₁ : v ≤ 100) : HasMean [v] := by
    refine hasMean_of_lt fun w hw => ?_
    obtain rfl := List.mem_singleton.mp hw
    exact Double.natAbs_lt_limit_of_percent h₀ h₁
  exact ⟨single (v := 95) (by decide) (by decide), single (v := 1) (by decide) (by decide),
    single (v := 100) (by decide) (by decide)⟩

/-- Two files were read and two were not; a third failure is put between them. -/
theorem ofRecords_append_components :
    let refused := Record.failed "b.js" 3 "refused"
    let xs := [component "App" 20, refused]
    let ys := [component "Card" 7, refused]
    ∃ a b s, ofRecords xs = .ok a ∧ ofRecords ys = .ok b ∧ ofRecords (xs ++ ys) = .ok s ∧
      s.IsSumOf a b ∧ ofRecords (xs ++ refused :: ys) = .ok (s.withFailure 3) := by
  intro refused xs ys
  have complete : ∀ name lines, ∀ r ∈ [component name lines, refused], r.ok → r.Complete := by
    intro name lines r hr hok
    rcases List.mem_pair.mp hr with rfl | rfl
    · exact component_complete name lines
    · cases hok
  obtain ⟨first, additive, insert⟩ := ofRecords_append (complete "App" 20) (complete "Card" 7)
  obtain ⟨second, -⟩ := ofRecords_append (complete "Card" 7) (complete "App" 20)
  obtain ⟨a, ha⟩ := first.mpr (hasAverages_component "App" 20)
  obtain ⟨b, hb⟩ := second.mpr (hasAverages_component "Card" 7)
  obtain ⟨s, hs, sum⟩ := additive a b ha hb
  exact ⟨a, b, s, ha, hb, hs, sum, (insert xs ys refused rfl).trans (by rw [hs]; rfl)⟩

end Parts

end Summary

end ScriptSurvey
