import ScriptSurvey.Project.Pool
import ScriptSurvey.Proofs.Analysis

/-!
# What a pool returns

A pool may hand back its tasks in any order and in groups of any size, and stop at any time. The
slots do not depend on that: each holds what follows from its source and from how its own task ended
(`Pool.run_slots`).

While the pool is waited for, the slots of the tasks handed back so far are filled and the other
tasks are pending (`Pool.Handed`). Taking a group of tasks keeps this (`Pool.Handed.receive_group`),
and so does waiting (`Pool.Handed.await`), which ends with all tasks handed back before the first
empty group. The tasks that are then pending fill the slots that are left.
-/

namespace ScriptSurvey

/-- The tasks that a pool hands back before it hands back none, in order. -/
def Course.handed (course : Course) : List Nat :=
  (course.waits.takeWhile (!·.isEmpty)).flatten

/-- How a task ends, if it is handed back at all. -/
def Course.ending (course : Course) (i : Nat) : Option Outcome :=
  if i ∈ course.handed then some (course.outcome i) else none

namespace Pool

/-- The record for a source whose task ended in the given way, or did not end. -/
def entry (analyzer : Analyzer) (s : Source) : Option Outcome → Record
  | some .returned => s.record analyzer
  | some (.broken message) => s.failed ("Worker failed: " ++ message)
  | none => s.failed "Analysis timed out"

/-! ## Filling slots -/

section Filling

variable {sources : List Source} {f : Nat → Source → Option Record} {p : Progress}

/-- To fill the slot of a task is to decide what stands in it. -/
theorem fill_mapIdx (record : Nat → Source → Record) (i : Nat) :
    ((sources[i]?).elim (sources.mapIdx f) fun s => (sources.mapIdx f).set i (some (record i s))) =
      sources.mapIdx fun j s => if j = i then some (record j s) else f j s := by
  refine List.ext_getElem? fun j => ?_
  cases hs : sources[i]? with
  | none =>
    by_cases h : j = i
    · simp [h, hs]
    · simp [h]
  | some s =>
    by_cases h : j = i
    · obtain ⟨hi, rfl⟩ := List.getElem?_eq_some_iff.mp hs
      simp [h, hi]
    · simp [h, Ne.symm h]

/-- Steps that each fill the slot of one task fill the slots of all these tasks. -/
theorem foldl_slots {step : Progress → Nat → Progress} {record : Nat → Source → Record}
    (fills : ∀ p i, (step p i).slots =
      (sources[i]?).elim p.slots fun s => p.slots.set i (some (record i s)))
    (h : p.slots = sources.mapIdx f) (is : List Nat) :
    (is.foldl step p).slots =
      sources.mapIdx fun j s => if j ∈ is then some (record j s) else f j s := by
  induction is generalizing p f with
  | nil => simpa using h
  | cons i is ih =>
    have first := fills p i
    rw [h, fill_mapIdx] at first
    rw [List.foldl_cons, ih first]
    congr 1
    funext j s
    by_cases hj : j = i <;> by_cases hm : j ∈ is <;> simp [hj, hm]

end Filling

section Run

variable (analyzer : Analyzer) (course : Course) (sources : List Source)

/-! ## Waiting -/

/-- How far a run has come when the given tasks were handed back: their slots are filled, and the
other tasks are pending. -/
structure Handed (is : List Nat) (p : Progress) : Prop where
  slots : p.slots = sources.mapIdx fun i s =>
    if i ∈ is then some (handedRecord analyzer (course.outcome i) s) else none
  pending : p.pending = (List.range sources.length).filter (· ∉ is)

theorem receive_slots (p : Progress) (i : Nat) :
    (receive analyzer course sources p i).slots =
      (sources[i]?).elim p.slots fun s =>
        p.slots.set i (some (handedRecord analyzer (course.outcome i) s)) := by
  unfold receive
  cases sources[i]? <;> rfl

theorem foldl_receive_pending (is : List Nat) (p : Progress) :
    (is.foldl (receive analyzer course sources) p).pending = p.pending := by
  induction is generalizing p with
  | nil => rfl
  | cons i is ih =>
    rw [List.foldl_cons, ih]
    unfold receive
    cases sources[i]? <;> rfl

theorem handed_start : Handed analyzer course sources [] (.start sources.length) where
  slots := by
    refine List.ext_getElem? fun i => ?_
    by_cases hi : i < sources.length <;> simp [Progress.start, hi]
  pending := by simp [Progress.start]

variable {analyzer course sources}

/-- Taking a group of tasks. -/
theorem Handed.receive_group {is : List Nat} {p : Progress}
    (h : Handed analyzer course sources is p) (group : List Nat) :
    Handed analyzer course sources (is ++ group)
      (group.foldl (receive analyzer course sources)
        { p with pending := p.pending.filter (!group.contains ·) }) where
  slots := by
    have before : ({ p with pending := p.pending.filter (!group.contains ·) } : Progress).slots =
      _ := h.slots
    rw [foldl_slots (receive_slots analyzer course sources) before]
    congr 1
    funext j s
    by_cases hj : j ∈ group <;> simp [hj]
  pending := by
    rw [foldl_receive_pending, h.pending, List.filter_filter]
    refine List.filter_congr fun i _ => ?_
    by_cases hi : i ∈ group <;> simp [hi]

/-- When no task is pending, all have been handed back, and it does not matter what would be. -/
theorem Handed.append_of_not_pending {is : List Nat} {p : Progress}
    (h : Handed analyzer course sources is p) (hp : p.pending = []) (js : List Nat) :
    Handed analyzer course sources (is ++ js) p := by
  have all : ∀ i < sources.length, i ∈ is := by
    have := h.pending.symm.trans hp
    simpa using this
  constructor
  · rw [h.slots, List.mapIdx_eq_mapIdx_iff]
    intro i hi
    simp [all i hi]
  · rw [h.pending]
    refine List.filter_congr fun i hi => ?_
    simp [all i (List.mem_range.mp hi)]

/-- **Waiting** ends with the tasks handed back before the first empty group. -/
theorem Handed.await {is : List Nat} {p : Progress} (h : Handed analyzer course sources is p)
    (waits : List (List Nat)) :
    Handed analyzer course sources (is ++ (waits.takeWhile (!·.isEmpty)).flatten)
      (Pool.await analyzer course sources waits p) := by
  induction waits generalizing is p with
  | nil =>
    rw [Pool.await]
    simpa using h
  | cons group later ih =>
    rw [Pool.await]
    by_cases hg : group = []
    · simpa [hg] using h
    by_cases hp : p.pending = []
    · simpa [hp] using h.append_of_not_pending hp _
    · have taken := ih (h.receive_group group)
      rw [List.append_assoc] at taken
      simpa [hg, hp] using taken

/-! ## A whole run -/

theorem giveUp_slots (p : Progress) (i : Nat) :
    (giveUp sources p i).slots =
      (sources[i]?).elim p.slots fun s => p.slots.set i (some (s.failed "Analysis timed out")) := by
  unfold giveUp
  cases sources[i]? <;> rfl

theorem handed_awaited (analyzer : Analyzer) (course : Course) (sources : List Source) :
    Handed analyzer course sources course.handed
      (Pool.await analyzer course sources course.waits (.start sources.length)) := by
  rw [Course.handed]
  simpa using (handed_start analyzer course sources).await course.waits

/-- **Each slot holds what follows from its source and from how its own task ended.** -/
theorem run_slots (analyzer : Analyzer) (workers : Nat) (course : Course) (sources : List Source) :
    (run analyzer workers course sources).slots =
      sources.mapIdx fun i s => some (entry analyzer s (course.ending i)) := by
  have h := handed_awaited analyzer course sources
  refine (foldl_slots giveUp_slots h.slots _).trans ?_
  rw [List.mapIdx_eq_mapIdx_iff]
  intro i hi
  by_cases hm : i ∈ course.handed
  · simp only [h.pending, Course.ending, hm, handedRecord, entry]
    cases course.outcome i <;> simp [hm]
  · simp [h.pending, Course.ending, hm, hi, entry]

/-- The pool is waited for if every task was handed back, and else its workers are stopped. -/
theorem run_events (analyzer : Analyzer) (workers : Nat) (course : Course) (sources : List Source) :
    (run analyzer workers course sources).events =
      if ∀ i < sources.length, i ∈ course.handed then [.shutdown ⟨true, false⟩]
      else .shutdown ⟨false, true⟩ :: (List.range workers).map .terminate := by
  have h := handed_awaited analyzer course sources
  have all : (Pool.await analyzer course sources course.waits
      (.start sources.length)).pending.isEmpty ↔ ∀ i < sources.length, i ∈ course.handed := by
    simp [h.pending]
  simp only [run, stop, all]

/-- The pool is shut down once. -/
theorem length_run_shutdowns (analyzer : Analyzer) (workers : Nat) (course : Course)
    (sources : List Source) : (run analyzer workers course sources).shutdowns.length = 1 := by
  rw [PoolRun.shutdowns, run_events]
  split
  · rfl
  · simp [List.filterMap_map]

/-- If all tasks return, the slots are those of the sources taken in turn. -/
theorem run_slots_of_returned {analyzer : Analyzer} (workers : Nat) {course : Course}
    {sources : List Source} (h : ∀ i < sources.length, course.ending i = some .returned) :
    (run analyzer workers course sources).slots =
      (analyzeInTurn analyzer sources).value.map some := by
  rw [run_slots, analyzeInTurn, List.map_map]
  refine List.ext_getElem? fun i => ?_
  rw [List.getElem?_mapIdx, List.getElem?_map]
  cases hi : sources[i]? with
  | none => rfl
  | some s =>
    have hlt := (List.getElem?_eq_some_iff.mp hi).1
    simp only [Option.map_some, h i hlt, entry, Function.comp]

end Run

theorem entry_filename (read : Source → TreeReader) (clock : Source → Clock)
    (crash : Source → Option String) (s : Source) (ending : Option Outcome) :
    (entry (.given read clock crash) s ending).filename = s.name := by
  cases ending with
  | none => rfl
  | some outcome =>
    cases outcome with
    | returned => exact (s.record_isOf read clock crash).filename_eq
    | broken message => rfl

end Pool

theorem analyzeSources_eq_run (analyzer : Analyzer) {workers : Int} (course : Course)
    {sources : List Source} (hw : 1 < workers) (hs : 1 < sources.length) :
    analyzeSources analyzer workers course sources =
      Pool.run analyzer workers.toNat course sources := by
  have several : ¬ (workers ≤ 1 || sources.length ≤ 1) := by
    simp only [Bool.or_eq_true, decide_eq_true_eq]
    omega
  rw [analyzeSources, if_neg several]

/-- **What a pool of several workers returns on several sources**, in whatever order and groups it
hands back the tasks, and whenever it stops. Every slot is filled: with the record of its source if
the task returned, and else with one that says how it failed, under the name of the source. The pool
is shut down once: it is waited for if every task was handed back, and else the tasks are dropped
and then all workers are stopped. If all tasks return, the slots are those of the sources taken in
turn. -/
theorem analyzeSources_pool (read : Source → TreeReader) (clock : Source → Clock)
    (crash : Source → Option String) {workers : Int} (course : Course) {sources : List Source}
    (hw : 1 < workers) (hs : 1 < sources.length) :
    let run := analyzeSources (.given read clock crash) workers course sources
    run.slots = (sources.mapIdx fun i s => some (
      match course.ending i with
      | some .returned => s.record (.given read clock crash)
      | some (.broken message) => s.failed ("Worker failed: " ++ message)
      | none => s.failed "Analysis timed out")) ∧
    run.slots.length = sources.length ∧
    (∀ (i : Nat) (s : Source), sources[i]? = some s →
      ∃ r : Record, run.slots[i]? = some (some r) ∧ r.filename = s.name) ∧
    run.events =
      (if ∀ i < sources.length, i ∈ course.handed then [.shutdown ⟨true, false⟩]
      else .shutdown ⟨false, true⟩ :: (List.range workers.toNat).map .terminate) ∧
    run.shutdowns.length = 1 ∧
    ((∀ i < sources.length, course.ending i = some .returned) →
      run.slots = (analyzeSources (.given read clock crash) 1 course sources).slots) := by
  intro run
  have hrun : run = Pool.run (.given read clock crash) workers.toNat course sources :=
    analyzeSources_eq_run _ course hw hs
  have slots : run.slots = sources.mapIdx fun i s =>
      some (Pool.entry (.given read clock crash) s (course.ending i)) := by
    rw [hrun, Pool.run_slots]
  refine ⟨slots, by rw [slots, List.length_mapIdx], fun i s h => ?_, ?_, ?_, fun returned => ?_⟩
  · refine ⟨_, ?_, Pool.entry_filename read clock crash s (course.ending i)⟩
    rw [slots, List.getElem?_mapIdx, h]
    rfl
  · rw [hrun, Pool.run_events]
  · rw [hrun, Pool.length_run_shutdowns]
  · rw [hrun, Pool.run_slots_of_returned workers.toNat returned]
    rfl

/-- Three tasks: the last is handed back first and breaks down, the first returns, and the other is
never handed back. -/
theorem analyzeSources_pool_broken :
    let sources : List Source := [⟨"a.js", ""⟩, ⟨"b.js", ""⟩, ⟨"a.js", ""⟩]
    let course : Course :=
      ⟨fun i => if i = 2 then .broken "lost" else .returned, [[2], [0], [], [1]]⟩
    let run := analyzeSources (.given (fun _ _ _ => .error ⟨"refused"⟩) (fun _ => {}) fun _ => none)
      2 course sources
    run.slots.map (·.bind (·.error)) =
      [some "refused", some "Analysis timed out", some "Worker failed: lost"] ∧
    run.events = [.shutdown ⟨false, true⟩, .terminate 0, .terminate 1] := by
  intro sources course run
  obtain ⟨slots, -, -, events, -⟩ := analyzeSources_pool (fun _ _ _ => .error ⟨"refused"⟩)
    (fun _ => {}) (fun _ => none) course (show 1 < (2 : Int) by decide)
    (show 1 < sources.length by decide)
  refine ⟨?_, events.trans (by decide)⟩
  rw [slots]
  decide

end ScriptSurvey
