import ScriptSurvey.Survey.Source

/-!
# Many sources, one after the other

Every source gets its record, in the order of the sources, and a line is printed for each when it is
done.
-/

namespace ScriptSurvey

/-- A value, and the lines printed on the way to it. -/
structure Told (α : Type) where
  value : α
  lines : List String := []

/-- The line for a source that is done, the `done`-th of `total`. -/
def progressLine (done total : Nat) (r : Record) : String :=
  match r.error with
  | none => s!"✅ [{done}/{total}] Analyzed " ++ r.filename
  | some message => s!"❌ [{done}/{total}] Error analyzing " ++ r.filename ++ ": " ++ message

/-- The records of the sources, one source after the other. -/
def analyzeInTurn (analyzer : Analyzer) (sources : List Source) : Told (List Record) :=
  let records := sources.map (·.record analyzer)
  { value := records
    lines := records.mapIdx fun i r => progressLine (i + 1) records.length r }

end ScriptSurvey
