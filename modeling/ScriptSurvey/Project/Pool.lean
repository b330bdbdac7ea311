import ScriptSurvey.Project.Batch

/-!
# Many sources at once

The sources are given to a pool of workers as tasks, one task a source. The pool is waited for again
and again; each time it hands back a group of tasks that have finished, in whatever order, and the
record of each goes into the slot of its source. When the pool hands back none, or none is pending,
the waiting is over, and the tasks that are still pending count as timed out.
-/

namespace ScriptSurvey

/-- How a task ends, once it is handed back. -/
inductive Outcome where
  /-- It returns the record of its source. -/
  | returned
  /-- It breaks down with a message. -/
  | broken (message : String)
deriving DecidableEq, Repr

/-- How the pool is shut down. -/
structure Shutdown where
  /-- Whether to wait for the workers. -/
  wait : Bool
  /-- Whether tasks that have not started are dropped. -/
  cancel : Bool
deriving DecidableEq, Repr

/-- What is done to the pool. -/
inductive PoolEvent where
  | shutdown (how : Shutdown)
  /-- A worker is stopped by force. -/
  | terminate (worker : Nat)
deriving DecidableEq, Repr

/-- What a pool does: how each task ends, and which tasks it hands back at each time of waiting. -/
structure Course where
  outcome : Nat → Outcome
  waits : List (List Nat)

/-- The traces of a finished run. -/
structure PoolRun where
  /-- The record of each source, if there is one. -/
  slots : List (Option Record)
  lines : List String := []
  /-- What was done to the pool, in order. -/
  events : List PoolEvent := []

namespace PoolRun

/-- The records, in the order of the sources. -/
def records (run : PoolRun) : List Record :=
  run.slots.filterMap id

/-- How the pool was shut down, each time that it was. -/
def shutdowns (run : PoolRun) : List Shutdown :=
  run.events.filterMap fun
    | .shutdown how => some how
    | .terminate _ => none

/-- The workers that were stopped by force. -/
def terminated (run : PoolRun) : List Nat :=
  run.events.filterMap fun
    | .shutdown _ => none
    | .terminate worker => some worker

end PoolRun

namespace Pool

/-- How far a run has come: the slots, the tasks that are pending, and how many were handed back. -/
structure Progress where
  slots : List (Option Record)
  pending : List Nat
  done : Nat := 0
  lines : List String := []

/-- The beginning of a run: every slot is empty and every task is pending. -/
def Progress.start (count : Nat) : Progress where
  slots := List.replicate count none
  pending := List.range count

/-- Put a record into the slot of a task, and print a line for it. -/
def Progress.fill (p : Progress) (i : Nat) (r : Record) (line : String) : Progress :=
  { p with slots := p.slots.set i (some r), lines := p.lines ++ [line] }

/-- The record of a source whose task was handed back. -/
def handedRecord (analyzer : Analyzer) (outcome : Outcome) (s : Source) : Record :=
  match outcome with
  | .returned => s.record analyzer
  | .broken message => s.failed ("Worker failed: " ++ message)

/-- The line for a task that was handed back, the `done`-th of `total`. -/
def handedLine (analyzer : Analyzer) (outcome : Outcome) (done total : Nat) (s : Source) : String :=
  match outcome with
  | .returned => progressLine done total (s.record analyzer)
  | .broken message => s!"❌ [{done}/{total}] Exception analyzing " ++ s.name ++ ": " ++ message

/-- The line for a task that timed out. -/
def timeoutLine (s : Source) : String :=
  "❌ Timeout analyzing " ++ s.name ++ " (skipped)"

/-- Take a task that was handed back. -/
def receive (analyzer : Analyzer) (course : Course) (sources : List Source) (p : Progress)
    (i : Nat) : Progress :=
  match sources[i]? with
  | none => p
  | some s =>
    let done := p.done + 1
    ({ p with done }).fill i (handedRecord analyzer (course.outcome i) s)
      (handedLine analyzer (course.outcome i) done sources.length s)

/-- Wait for the pool, again and again, until it hands back no task or none is pending. -/
def await (analyzer : Analyzer) (course : Course) (sources : List Source) :
    List (List Nat) → Progress → Progress
  | [], p => p
  | group :: later, p =>
    if p.pending.isEmpty || group.isEmpty then p
    else
      let p := { p with pending := p.pending.filter (!group.contains ·) }
      await analyzer course sources later (group.foldl (receive analyzer course sources) p)

/-- Give up a task that is still pending. -/
def giveUp (sources : List Source) (p : Progress) (i : Nat) : Progress :=
  match sources[i]? with
  | none => p
  | some s => p.fill i (s.failed "Analysis timed out") (timeoutLine s)

/-- End a pool: it is waited for if no task is pending, and else its workers are stopped. -/
def stop (workers : Nat) (pending : List Nat) : List PoolEvent :=
  if pending.isEmpty then [.shutdown ⟨true, false⟩]
  else .shutdown ⟨false, true⟩ :: (List.range workers).map .terminate

/-- The run of a pool of `workers` workers on the sources. -/
def run (analyzer : Analyzer) (workers : Nat) (course : Course) (sources : List Source) : PoolRun :=
  let awaited := await analyzer course sources course.waits (.start sources.length)
  let ended := awaited.pending.foldl (giveUp sources) awaited
  { slots := ended.slots
    lines := ended.lines
    events := stop workers awaited.pending }

end Pool

/-- The records of the sources, at once where there are workers and sources enough for that. -/
def analyzeSources (analyzer : Analyzer) (workers : Int) (course : Course) (sources : List Source) :
    PoolRun :=
  if workers ≤ 1 || sources.length ≤ 1 then
    let told := analyzeInTurn analyzer sources
    { slots := told.value.map some, lines := told.lines }
  else Pool.run analyzer workers.toNat course sources

/-- The course of a pool in which nothing goes wrong and all is done in order. -/
def Course.smooth (count : Nat) : Course where
  outcome := fun _ => .returned
  waits := [List.range count]

end ScriptSurvey
