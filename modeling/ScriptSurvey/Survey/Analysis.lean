import ScriptSurvey.Survey.Score
import ScriptSurvey.Survey.Walk
import ScriptSurvey.Syntax.Acceptance
import ScriptSurvey.Text.Split

/-!
# The analysis of one file

The tree of a file is walked and the tally turned into a record: names once each in order of first
occurrence, the references kept that lead to a declared function or a component, and the scores.
-/

namespace ScriptSurvey

namespace Tally

/-- The role of the target of a reference: that of its declaration, or of a component declared
elsewhere. -/
def targetRole? (t : Tally) (target : String) : Option Role :=
  t.roles.get? target <|> if Name.isComponent target then some .component else none

/-- The edges of the dependency graph, in the order in which the references were first met. -/
def edges (t : Tally) : List Edge :=
  t.references.filterMap fun ((source, target), calls) =>
    (t.targetRole? target).map fun role =>
      { source, target, calls,
        sourceKind := ((t.roles.get? source).getD (Role.ofName source)).label
        targetKind := role.label }

/-- The dependency graph of a file. -/
def graph (t : Tally) : Graph where
  functions := t.roles.map fun (name, role) => ⟨name, role.label⟩
  edges := t.edges
  roots := distinct t.roots

/-- The record of a file whose tree was walked, before its quality is known. -/
def record (t : Tally) (filename : String) (lineCount : Int) (maintainability : Int) : Record where
  filename
  lineCount
  functions := some (distinct t.functions)
  bindings := some (distinct t.bindings)
  handlers := some (distinct t.handlers)
  components := some (distinct t.components)
  hooks := some (distinct t.hooks)
  imports := some t.imports
  exports := some t.exports
  complexity := some
    { maxDepth := t.maxDepth, branches := t.branches, loops := t.loops, cyclomatic := t.cyclomatic }
  issues := some t.issues
  metrics := some
    { cyclomatic := t.cyclomatic, coupling := t.coupling, weightedMethods := t.weightedMethods
      maintainability }
  stateModel := some { states := t.states, transitions := t.transitions, effects := t.effects }
  graph := some t.graph

end Tally

/-- Why the analysis of a file broke off. -/
inductive Fault where
  | scope (fault : ScopeFault)
  | numeric (fault : NumericFault)
  | missing (finding : Score.Missing)
  | crash (message : String)
deriving DecidableEq, Repr

/-- The wording of a fault. -/
def Fault.message : Fault → String
  | .scope fault => fault.message
  | .numeric fault => fault.message
  | .missing finding => finding.message
  | .crash message => message

/-- The two readings of the clock around an analysis. -/
structure Clock where
  start : Double := Double.zero false
  stop : Double := Double.zero false

/-- The time between the two readings, to two decimal places. -/
def Clock.elapsed (clock : Clock) : Double :=
  (clock.stop - clock.start).roundPlaces 2

/-- The record of a walked tree, with both scores. -/
def examine (root : Node) (filename : String) (lineCount : Int) : Except Fault Record := do
  let t ← (tally root).mapError .scope
  let maintainability ← (Score.maintainability lineCount t.cyclomatic).mapError .numeric
  let record := t.record filename lineCount maintainability
  let quality ← (Score.quality record).mapError .missing
  return { record with quality }

/-- How a source text becomes a tree. -/
abbrev TreeReader := Syntax.Options → String → Except Syntax.ParseFailure Node

/-- The record of a file, given how its text becomes a tree. A text that is refused makes a record
of its own kind. -/
def analyzeWith (read : TreeReader) (clock : Clock) (filename source : String) :
    Except Fault Record := do
  let lineCount := Text.lineCount source
  match read (Syntax.Options.forFile filename) source with
  | .error failure => return Record.failed filename lineCount failure.message clock.elapsed
  | .ok root => return { ← examine root filename lineCount with time := clock.elapsed }

/-- The record of a file. -/
def analyze (filename source : String) : Except Fault Record :=
  analyzeWith Syntax.parse {} filename source

end ScriptSurvey
