import ScriptSurvey.Ledger
import ScriptSurvey.Survey.Record

/-!
# Merging dependency graphs

The graphs of several files make one. The calls between two functions add up; the kind of a function
is that of its last declaration, and the ends of an edge take it over. An end that no graph declares
keeps the kind that the last edge between the two gives it.
-/

namespace ScriptSurvey.Graph

/-- The kinds of the declared functions, the last declaration of a name deciding. -/
def kinds (graphs : List Graph) : Ledger String String :=
  (graphs.flatMap (·.functions)).foldl (fun l fn => l.put fn.name fn.kind) []

/-- The calls between two functions, and the kinds that the last edge gives its ends. -/
structure Link where
  calls : Int
  sourceKind : String
  targetKind : String
deriving DecidableEq

/-- The links between functions, in the order in which they were first met. -/
def links (graphs : List Graph) : Ledger (String × String) Link :=
  (graphs.flatMap (·.edges)).foldl
    (fun l edge => l.alter
      (fun old => ⟨(old.map (·.calls)).getD 0 + edge.calls, edge.sourceKind, edge.targetKind⟩)
      (edge.source, edge.target))
    []

/-- One graph of several. -/
def merge (graphs : List Graph) : Graph :=
  let kinds := kinds graphs
  { functions := kinds.map fun (name, kind) => ⟨name, kind⟩
    edges := (links graphs).map fun ((source, target), link) =>
      { source, target, calls := link.calls
        sourceKind := (kinds.get? source).getD link.sourceKind
        targetKind := (kinds.get? target).getD link.targetKind }
    roots := distinct (graphs.flatMap (·.roots)) }

end ScriptSurvey.Graph
