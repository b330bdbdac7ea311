import ScriptSurvey.Numeric.Number
import ScriptSurvey.Project.Merge

/-!
# The summary of a project

Line counts run over all files of a project; every other figure runs over the files that were read.
The figures are computed one after the other, so a record that lacks a finding is reported for the
first figure that needs it.
-/

namespace ScriptSurvey

/-- The figures of a project. -/
structure Summary where
  totalFiles : Int := 0
  failedFiles : Int := 0
  totalLines : Int := 0
  totalFunctions : Int := 0
  totalVariables : Int := 0
  totalHandlers : Int := 0
  totalComponents : Int := 0
  hooks : List String := []
  importSources : List String := []
  totalIssues : Int := 0
  averageQuality : Int := 0
  averageCyclomatic : Int := 0
  averageMaintainability : Int := 0
  totalCoupling : Int := 0
  totalWeightedMethods : Int := 0
  totalTime : Double := Double.zero false
  graph : Graph := {}
  states : List StateUnit := []
  transitions : List Transition := []
  effects : List Effect := []
deriving DecidableEq

/-- Why a summary could not be computed. -/
inductive SummaryFault where
  /-- A list that was to be counted is not there. -/
  | uncounted
  /-- A list that was to be gone through is not there. -/
  | unlisted
  /-- A group of findings is not there; `attribute` is what was wanted of it. -/
  | lacking (wanted : String)
  | numeric (fault : NumericFault)
deriving DecidableEq, Repr

/-- The wording of a summary's fault. -/
def SummaryFault.message : SummaryFault → String
  | .uncounted => "object of type 'NoneType' has no len()"
  | .unlisted => "'NoneType' object is not iterable"
  | .lacking wanted => "'NoneType' object has no attribute '" ++ wanted ++ "'"
  | .numeric fault => fault.message

namespace Summary

/-- The sum of integers. -/
def total (values : List Int) : Int :=
  values.foldr (· + ·) 0

/-- The mean of integers, a half going up; zero of none. -/
def mean (values : List Int) : Except NumericFault Int :=
  if values.isEmpty then .ok 0
  else do (← Double.ofQuotient (total values) values.length).roundHalfUp

/-- What a finding of each record gives, or the fault of the first record without it. -/
def collect {α β : Type} (records : List Record) (finding : Record → Option α)
    (fault : SummaryFault) (f : α → β) : Except SummaryFault (List β) :=
  records.mapM fun r =>
    match finding r with
    | some found => .ok (f found)
    | none => .error fault

/-- How many entries a list of each record has in all. -/
def countAll {α : Type} (records : List Record) (finding : Record → Option (List α)) :
    Except SummaryFault Int := do
  return total (← collect records finding .uncounted fun xs => (xs.length : Int))

/-- The entries of a list of each record, once each in order of first occurrence. -/
def union {α : Type} (records : List Record) (finding : Record → Option (List α))
    (name : α → String) : Except SummaryFault (List String) := do
  return distinct (← collect records finding .unlisted (·.map name)).flatten

/-- The figures of a project, from the records of its files. -/
def ofRecords (records : List Record) : Except SummaryFault Summary := do
  let read := records.filter (·.ok)
  let totalFunctions ← countAll read (·.functions)
  let totalVariables ← countAll read (·.bindings)
  let totalHandlers ← countAll read (·.handlers)
  let totalComponents ← countAll read (·.components)
  let hooks ← union read (·.hooks) id
  let importSources ← union read (·.imports) (·.source)
  let totalIssues ← countAll read (·.issues)
  let averageQuality ← (mean (read.map (·.quality))).mapError .numeric
  let cyclomatic ← collect read (·.metrics) (.lacking "cyclomatic_complexity") (·.cyclomatic)
  let averageCyclomatic ← (mean cyclomatic).mapError .numeric
  let maintainability ←
    collect read (·.metrics) (.lacking "maintainability_index") (·.maintainability)
  let averageMaintainability ← (mean maintainability).mapError .numeric
  let coupling ← collect read (·.metrics) (.lacking "coupling_between_objects") (·.coupling)
  let weighted ←
    collect read (·.metrics) (.lacking "weighted_methods_per_class") (·.weightedMethods)
  let graphs ← collect read (·.graph) (.lacking "functions") id
  let models ← collect read (·.stateModel) (.lacking "states") id
  return {
    totalFiles := records.length
    failedFiles := records.length - read.length
    totalLines := total (records.map (·.lineCount))
    totalFunctions, totalVariables, totalHandlers, totalComponents
    hooks, importSources, totalIssues
    averageQuality, averageCyclomatic, averageMaintainability
    totalCoupling := total coupling
    totalWeightedMethods := total weighted
    totalTime := (Double.sum (read.map (·.time))).roundPlaces 2
    graph := Graph.merge graphs
    states := models.flatMap (·.states)
    transitions := models.flatMap (·.transitions)
    effects := models.flatMap (·.effects) }

end Summary

end ScriptSurvey
