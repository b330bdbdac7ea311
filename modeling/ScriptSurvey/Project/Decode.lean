import ScriptSurvey.Json.Lenient
import ScriptSurvey.Project.Report

/-!
# Reports from JSON

The reading of reports. Members that are not known are passed over, and members that are missing
take their defaults where there are any.
-/

namespace ScriptSurvey

open Json (Decoder whenObject required? optional? toText? toInt? toDouble? toList? toOption?)

/-- An import from JSON. -/
def Import.ofJson? : Decoder Import := whenObject fun v => do
  return { source := ← required? v "source" toText?
           names := ← optional? v "imported_names" (toList? toText?) [] }

/-- An issue from JSON. -/
def Issue.ofJson? : Decoder Issue := whenObject fun v => do
  return { kind := ← required? v "kind" toText?
           message := ← required? v "message" toText?
           severity := ← required? v "severity" toText? }

/-- Complexity figures from JSON. -/
def Complexity.ofJson? : Decoder Complexity := whenObject fun v => do
  return { maxDepth := ← optional? v "max_depth" toInt? 0
           branches := ← optional? v "branch_count" toInt? 0
           loops := ← optional? v "loop_count" toInt? 0
           cyclomatic := ← optional? v "cyclomatic_complexity" toInt? 1 }

/-- Metrics from JSON. -/
def Metrics.ofJson? : Decoder Metrics := whenObject fun v => do
  return { cyclomatic := ← optional? v "cyclomatic_complexity" toInt? 1
           coupling := ← optional? v "coupling_between_objects" toInt? 0
           weightedMethods := ← optional? v "weighted_methods_per_class" toInt? 0
           maintainability := ← optional? v "maintainability_index" toInt? 100 }

/-- A piece of state from JSON. -/
def StateUnit.ofJson? : Decoder StateUnit := whenObject fun v => do
  return { name := ← required? v "name" toText?
           setter := ← required? v "setter_name" toText?
           initial := ← required? v "initial_value" toText?
           owner := ← required? v "owning_component" toText? }

/-- A transition from JSON. -/
def Transition.ofJson? : Decoder Transition := whenObject fun v => do
  return { state := ← required? v "state_name" toText?
           setter := ← required? v "setter_name" toText?
           owner := ← required? v "owning_component" toText? }

/-- An effect from JSON. -/
def Effect.ofJson? : Decoder Effect := whenObject fun v => do
  return { owner := ← required? v "owning_component" toText?
           dependencies := ← required? v "dependency_names" (toList? toText?)
           kind := ← required? v "effect_kind" toText? }

/-- A state model from JSON. -/
def StateModel.ofJson? : Decoder StateModel := whenObject fun v => do
  return { states := ← optional? v "states" (toList? StateUnit.ofJson?) []
           transitions := ← optional? v "transitions" (toList? Transition.ofJson?) []
           effects := ← optional? v "effects" (toList? Effect.ofJson?) [] }

/-- A declared function from JSON. -/
def Declared.ofJson? : Decoder Declared := whenObject fun v => do
  return { name := ← required? v "name" toText?
           kind := ← required? v "kind" toText? }

/-- An edge from JSON. -/
def Edge.ofJson? : Decoder Edge := whenObject fun v => do
  return { source := ← required? v "from_name" toText?
           target := ← required? v "to_name" toText?
           calls := ← required? v "call_count" toInt?
           sourceKind := ← required? v "from_kind" toText?
           targetKind := ← required? v "to_kind" toText? }

/-- A dependency graph from JSON. -/
def Graph.ofJson? : Decoder Graph := whenObject fun v => do
  return { functions := ← optional? v "functions" (toList? Declared.ofJson?) []
           edges := ← optional? v "edges" (toList? Edge.ofJson?) []
           roots := ← optional? v "render_roots" (toList? toText?) [] }

/-- A record from JSON. -/
def Record.ofJson? : Decoder Record := whenObject fun v => do
  let names (field : String) : Option (Option (List String)) :=
    optional? v field (toOption? (toList? toText?)) none
  return { filename := ← required? v "filename" toText?
           lineCount := ← required? v "line_count" toInt?
           time := ← optional? v "analysis_time" toDouble? (Double.zero false)
           error := ← optional? v "error" (toOption? toText?) none
           quality := ← optional? v "quality_score" toInt? 0
           functions := ← names "functions"
           bindings := ← names "variables"
           handlers := ← names "event_handlers"
           components := ← names "components"
           hooks := ← names "hooks"
           imports := ← optional? v "imports" (toOption? (toList? Import.ofJson?)) none
           exports := ← names "exports"
           complexity := ← optional? v "complexity" (toOption? Complexity.ofJson?) none
           issues := ← optional? v "issues" (toOption? (toList? Issue.ofJson?)) none
           metrics := ← optional? v "metrics" (toOption? Metrics.ofJson?) none
           stateModel := ← optional? v "state_model" (toOption? StateModel.ofJson?) none
           graph := ← optional? v "dependency_graph" (toOption? Graph.ofJson?) none }

/-- A summary from JSON. -/
def Summary.ofJson? : Decoder Summary := whenObject fun v => do
  let figure (field : String) : Option Int := optional? v field toInt? 0
  return { totalFiles := ← figure "total_files"
           failedFiles := ← figure "failed_files"
           totalLines := ← figure "total_loc"
           totalFunctions := ← figure "total_functions"
           totalVariables := ← figure "total_variables"
           totalHandlers := ← figure "total_event_handlers"
           totalComponents := ← figure "total_components"
           hooks := ← optional? v "hooks" (toList? toText?) []
           importSources := ← optional? v "import_sources" (toList? toText?) []
           totalIssues := ← figure "total_issues"
           averageQuality := ← figure "avg_quality_score"
           averageCyclomatic := ← figure "avg_cyclomatic_complexity"
           averageMaintainability := ← figure "avg_maintainability_index"
           totalCoupling := ← figure "total_cbo"
           totalWeightedMethods := ← figure "total_wmc"
           totalTime := ← optional? v "total_analysis_time" toDouble? (Double.zero false)
           graph := ← optional? v "dependency_graph" Graph.ofJson? {}
           states := ← optional? v "states" (toList? StateUnit.ofJson?) []
           transitions := ← optional? v "transitions" (toList? Transition.ofJson?) []
           effects := ← optional? v "effects" (toList? Effect.ofJson?) [] }

/-- A report from JSON. -/
def Report.ofJson? : Decoder Report := whenObject fun v => do
  return { root := ← required? v "root" toText?
           files := ← optional? v "files" (toList? Record.ofJson?) []
           summary := ← optional? v "summary" Summary.ofJson? {} }

/-- The report that a text holds. Lists and objects may be nested two hundred deep. -/
def Report.parse? (text : String) : Option Report :=
  match Json.read { depth := 200 } text with
  | .ok value => Report.ofJson? value
  | .error _ => none

end ScriptSurvey
