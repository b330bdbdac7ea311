import ScriptSurvey.Json.Write
import ScriptSurvey.Project.Report

/-!
# Reports as JSON

The members of each object stand in a fixed order. `Report.text` is the form in which a report is
kept and printed.
-/

namespace ScriptSurvey

/-- An import as JSON. -/
def Import.toJson (i : Import) : Json :=
  .object [("source", .text i.source), ("imported_names", .texts i.names)]

/-- An issue as JSON. -/
def Issue.toJson (i : Issue) : Json :=
  .object [("kind", .text i.kind), ("message", .text i.message), ("severity", .text i.severity)]

/-- Complexity figures as JSON. -/
def Complexity.toJson (c : Complexity) : Json :=
  .object [("max_depth", .int c.maxDepth), ("branch_count", .int c.branches),
    ("loop_count", .int c.loops), ("cyclomatic_complexity", .int c.cyclomatic)]

/-- Metrics as JSON. -/
def Metrics.toJson (m : Metrics) : Json :=
  .object [("cyclomatic_complexity", .int m.cyclomatic),
    ("coupling_between_objects", .int m.coupling),
    ("weighted_methods_per_class", .int m.weightedMethods),
    ("maintainability_index", .int m.maintainability)]

/-- A piece of state as JSON. -/
def StateUnit.toJson (s : StateUnit) : Json :=
  .object [("name", .text s.name), ("setter_name", .text s.setter),
    ("initial_value", .text s.initial), ("owning_component", .text s.owner)]

/-- A transition as JSON. -/
def Transition.toJson (t : Transition) : Json :=
  .object [("state_name", .text t.state), ("setter_name", .text t.setter),
    ("owning_component", .text t.owner)]

/-- An effect as JSON. -/
def Effect.toJson (e : Effect) : Json :=
  .object [("owning_component", .text e.owner), ("dependency_names", .texts e.dependencies),
    ("effect_kind", .text e.kind)]

/-- A state model as JSON. -/
def StateModel.toJson (m : StateModel) : Json :=
  .object [("states", .list (m.states.map (·.toJson))),
    ("transitions", .list (m.transitions.map (·.toJson))),
    ("effects", .list (m.effects.map (·.toJson)))]

/-- A declared function as JSON. -/
def Declared.toJson (d : Declared) : Json :=
  .object [("name", .text d.name), ("kind", .text d.kind)]

/-- An edge as JSON. -/
def Edge.toJson (e : Edge) : Json :=
  .object [("from_name", .text e.source), ("to_name", .text e.target), ("call_count", .int e.calls),
    ("from_kind", .text e.sourceKind), ("to_kind", .text e.targetKind)]

/-- A dependency graph as JSON. -/
def Graph.toJson (g : Graph) : Json :=
  .object [("functions", .list (g.functions.map (·.toJson))),
    ("edges", .list (g.edges.map (·.toJson))), ("render_roots", .texts g.roots)]

/-- A record as JSON. -/
def Record.toJson (r : Record) : Json :=
  .object [("filename", .text r.filename), ("line_count", .int r.lineCount),
    ("analysis_time", .real r.time), ("error", .orNull .text r.error),
    ("quality_score", .int r.quality), ("functions", .orNull .texts r.functions),
    ("variables", .orNull .texts r.bindings), ("event_handlers", .orNull .texts r.handlers),
    ("components", .orNull .texts r.components), ("hooks", .orNull .texts r.hooks),
    ("imports", .orNull (fun is => .list (is.map (·.toJson))) r.imports),
    ("exports", .orNull .texts r.exports), ("complexity", .orNull (·.toJson) r.complexity),
    ("issues", .orNull (fun is => .list (is.map (·.toJson))) r.issues),
    ("metrics", .orNull (·.toJson) r.metrics), ("state_model", .orNull (·.toJson) r.stateModel),
    ("dependency_graph", .orNull (·.toJson) r.graph)]

/-- A summary as JSON. -/
def Summary.toJson (s : Summary) : Json :=
  .object [("total_files", .int s.totalFiles), ("failed_files", .int s.failedFiles),
    ("total_loc", .int s.totalLines), ("total_functions", .int s.totalFunctions),
    ("total_variables", .int s.totalVariables), ("total_event_handlers", .int s.totalHandlers),
    ("total_components", .int s.totalComponents), ("hooks", .texts s.hooks),
    ("import_sources", .texts s.importSources), ("total_issues", .int s.totalIssues),
    ("avg_quality_score", .int s.averageQuality),
    ("avg_cyclomatic_complexity", .int s.averageCyclomatic),
    ("avg_maintainability_index", .int s.averageMaintainability),
    ("total_cbo", .int s.totalCoupling), ("total_wmc", .int s.totalWeightedMethods),
    ("total_analysis_time", .real s.totalTime), ("dependency_graph", s.graph.toJson),
    ("states", .list (s.states.map (·.toJson))),
    ("transitions", .list (s.transitions.map (·.toJson))),
    ("effects", .list (s.effects.map (·.toJson)))]

/-- A report as JSON. -/
def Report.toJson (r : Report) : Json :=
  .object [("root", .text r.root), ("files", .list (r.files.map (·.toJson))),
    ("summary", r.summary.toJson)]

namespace Report

/-- Doubles in a report are positional from `0.00001` to sixteen digits before the point; what is
not finite has no text of its own. -/
def real : Double → String
  | x@(.finite ..) => Decimal.write ⟨-5, 16, 1⟩ x
  | _ => "null"

/-- Reports are indented by two blanks a level. -/
def style : Json.Style := ⟨some 2, real⟩

/-- The text in which a report is kept and printed. -/
def text (r : Report) : String :=
  r.toJson.write style

/-- Whether the name of a file in the report has one of the given characters. -/
def names (r : Report) (stray : List Char) : Bool :=
  r.files.any (·.filename.toList.any (stray.contains ·))

/-- The text of a report, in a world where some characters stand for bytes that are no text. There
is none if the name of a file has such bytes. -/
def text? (r : Report) (stray : List Char) : Option String :=
  if r.names stray then none else some r.text

end Report

end ScriptSurvey
