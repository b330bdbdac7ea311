import ScriptSurvey.Proofs.Walk.NameLists

/-!
# Functions that are exported where they stand

What a statement exports is read off the statement, and what it declares is found when the walk
comes to the nodes inside it. A function that is exported where it stands is met by both: as the
declaration of the statement, as a variable of that declaration, or as the value of the statement
(`Site.ExportsFunction`). The two agree on its name (`Site.ExportsFunction.declares`,
`Site.ExportsFunction.mem_exportedNames`), and it is one declaration.
-/

namespace ScriptSurvey

/-! ## The sites below a site -/

/-- The site of a child. -/
def Site.below (v : Site) (child : Node) : Site :=
  ⟨v.node :: v.ancestors, child⟩

/-- The walk comes to the named children of every node that it comes to. -/
theorem Node.below_mem_sites {n : Node} {ancestors : List Node} {v : Site} {child : Node}
    (hv : v ∈ n.sites ancestors) (hc : child ∈ v.node.namedChildren) :
    v.below child ∈ n.sites ancestors := by
  induction n using named_induction generalizing ancestors with
  | step n ih =>
    rw [sites_eq] at hv ⊢
    refine List.mem_cons_of_mem _ (List.mem_flatMap.mpr ?_)
    rcases List.mem_cons.mp hv with rfl | hv
    · refine ⟨child, hc, ?_⟩
      rw [sites_eq]
      exact List.mem_cons_self
    · obtain ⟨m, hm, hv⟩ := List.mem_flatMap.mp hv
      exact ⟨m, hm, ih m hm hv⟩

theorem Node.mem_namedChildren_of_childByField {n child : Node} {field : String}
    (h : n.childByField field = some child) (named : child.named) : child ∈ n.namedChildren :=
  List.mem_filter.mpr ⟨List.mem_of_find?_eq_some h, named⟩

/-! ## Functions and their statements -/

/-- The declaration of a function is no group of variables. -/
theorem not_mem_groups {kind : String} (h : kind ∈ functionDeclarations) :
    kind ∉ ["lexical_declaration", "variable_declaration"] := by
  simp only [functionDeclarations, List.mem_cons, List.not_mem_nil, or_false] at h
  rcases h with rfl | rfl <;> decide

namespace Site

/-- The functions that a statement exports where they stand, with their names: its declaration, the
variables of its declaration that hold functions, and its value. -/
inductive ExportsFunction (v : Site) : Site → String → Prop where
  | declaration {d name : Node} (field : v.node.childByField "declaration" = some d)
    (named : d.named) (function : d.kind ∈ functionDeclarations)
    (hname : d.childByField "name" = some name) :
    ExportsFunction v (v.below d) name.text
  | declarator {d w name value : Node} (field : v.node.childByField "declaration" = some d)
    (named : d.named) (group : d.kind ∈ ["lexical_declaration", "variable_declaration"])
    (child : w ∈ d.namedChildren) (kind : w.kind = "variable_declarator")
    (hname : w.childByField "name" = some name) (bare : name.kind = "identifier")
    (hvalue : w.childByField "value" = some value)
    (function : value.kind ∈ functionExpressions) :
    ExportsFunction v ((v.below d).below w) name.text
  | value {f name : Node} (field : v.node.childByField "value" = some f) (named : f.named)
    (function : f.kind ∈ functionExpressions) (hname : f.childByField "name" = some name) :
    ExportsFunction v (v.below f) name.text

namespace ExportsFunction

variable {v w : Site} {name : String}

/-- The walk comes to the function if it comes to the statement. -/
theorem mem_sites (h : v.ExportsFunction w name) {n : Node} {ancestors : List Node}
    (hv : v ∈ n.sites ancestors) : w ∈ n.sites ancestors := by
  cases h with
  | declaration field named =>
    exact Node.below_mem_sites hv (Node.mem_namedChildren_of_childByField field named)
  | declarator field named _ child =>
    have hd := Node.below_mem_sites hv (Node.mem_namedChildren_of_childByField field named)
    exact Node.below_mem_sites hd child
  | value field named =>
    exact Node.below_mem_sites hv (Node.mem_namedChildren_of_childByField field named)

/-- The function is declared under its name. -/
theorem declares (h : v.ExportsFunction w name) (statement : v.node.kind = "export_statement") :
    w.Declares name := by
  cases h with
  | declaration field named function hname => exact .inl ⟨function, _, hname, rfl⟩
  | declarator field named group child kind hname bare hvalue function =>
    exact .inr (.inl ⟨⟨kind, _, hvalue, function⟩, _, hname, bare, rfl⟩)
  | value field named function hname =>
    exact .inr (.inr ⟨function, congrArg some statement, _, hname, rfl⟩)

/-- The function is exported under its name. -/
theorem mem_exportedNames (h : v.ExportsFunction w name) : name ∈ v.node.exportedNames := by
  unfold Node.exportedNames
  simp only [List.mem_append]
  cases h with
  | declaration field named function hname =>
    refine .inl (.inl ?_)
    rw [field, Option.map_some, Option.getD_some, Node.declarationNames,
      if_neg (by simpa using not_mem_groups function), Node.fieldText?, hname]
    simp
  | declarator field named group child kind hname bare hvalue function =>
    refine .inl (.inl ?_)
    rw [field, Option.map_some, Option.getD_some, Node.declarationNames, if_pos (by simpa using group)]
    refine List.mem_filterMap.mpr ⟨_, List.mem_filter.mpr ⟨child, by simpa using kind⟩, ?_⟩
    exact Node.textOf?_eq_some_iff.mpr ⟨_, hname, bare, rfl⟩
  | value field named function hname =>
    refine .inl (.inr ?_)
    have listed : (functionExpressions ++ ["class"]).contains _ :=
      List.contains_iff_mem.mpr (List.mem_append_left _ function)
    simp only [field, listed, if_true, Node.fieldText?, hname]
    simp

end ExportsFunction

end Site

/-! ## Exported functions in a record -/

theorem Tally.survey_exports (vs : List Site) :
    (survey vs).exports = vs.flatMap (·.node.exportsHere) :=
  survey_flatMap rfl (fun t v => by rw [visitSite_eq, visit_eq]; rfl) vs

namespace Node

/-- The names that the statements of a tree export. -/
def exportedInTree (root : Node) : List String :=
  (root.sites []).flatMap (·.node.exportsHere)

theorem mem_exportedInTree {root : Node} {v : Site} (hv : v ∈ root.sites [])
    (statement : v.node.kind = "export_statement") {name : String}
    (h : name ∈ v.node.exportedNames) : name ∈ root.exportedInTree :=
  List.mem_flatMap.mpr ⟨v, hv, by simpa [exportsHere, statement] using h⟩

end Node

/-- **A function that is exported where it stands is exported and declared**, under the same name:
for every export statement that the walk comes to, the name of each such function is among the
exports and among the functions of the record, and the function is one of the weighted methods: its
site counts one besides those before it and those after it, and the expression that a variable
holds does not count again. There is a record unless the complexity of the tree lies beyond all
doubles. -/
theorem analyzeWith_exportedFunctions (read : TreeReader) (clock : Clock)
    {filename source : String} {root : Node}
    (hread : read (Syntax.Options.forFile filename) source = .ok root) :
    ((∃ r, analyzeWith read clock filename source = .ok r) ↔ root.cyclomatic < Double.limit) ∧
    ∀ r, analyzeWith read clock filename source = .ok r →
      ∃ exports functions metrics,
        r.exports = some exports ∧ r.functions = some functions ∧ r.metrics = some metrics ∧
        ∀ v ∈ root.sites [], v.node.kind = "export_statement" →
          ∀ w name, v.ExportsFunction w name →
            name ∈ exports ∧ name ∈ functions ∧ w ∈ root.sites [] ∧
            (∀ before after, root.sites [] = before ++ w :: after →
              metrics.weightedMethods =
                before.countP Site.IsDeclaration + 1 + after.countP Site.IsDeclaration) ∧
            ∀ value ∈ w.node.childByField "value", w.node.kind = "variable_declarator" →
              ¬ (w.below value).IsDeclaration := by
  refine ⟨exists_analyzeWith_iff clock hread, fun r h => ?_⟩
  obtain ⟨m, -, -, rfl⟩ := eq_recorded_of_analyzeWith_eq_ok hread h
  have exports : root.surveyed.exports = root.exportedInTree := Tally.survey_exports _
  have functions : root.surveyed.functions = root.declaredNames := Tally.survey_functions _
  refine ⟨root.exportedInTree, distinct root.declaredNames, _, congrArg some exports,
    congrArg (some <| distinct ·) functions, rfl, fun v hv statement w name exported => ?_⟩
  have declared : w.declared? = some name :=
    Site.declared?_eq_some_iff.mpr (exported.declares statement)
  have isDeclaration : w.IsDeclaration := w.declared?_isSome_iff.mp (by rw [declared]; rfl)
  have hw := exported.mem_sites hv
  refine ⟨Node.mem_exportedInTree hv statement exported.mem_exportedNames,
    mem_distinct.mpr (List.mem_filterMap.mpr ⟨w, hw, declared⟩), hw, ?_, ?_⟩
  · intro before after split
    show (root.surveyed.weightedMethods : Int) = _
    rw [root.surveyed_weightedMethods, split, List.countP_append, List.countP_cons_of_pos]
    · push_cast
      ring
    · exact decide_eq_true isDeclaration
  · intro value hvalue hk
    obtain ⟨⟨-, held, hheld, function⟩, -⟩ := (Site.declared?_of_declarator hk).mp declared
    obtain rfl := Option.mem_unique hheld hvalue
    exact Site.not_isDeclaration_value hk function

section Exporting

/-- The tree of a file that exports functions in each of the three ways, and a variable besides:

`export function load() {}`
`export const Card = () => load(), limit = 3;`
`export default function App() {}` -/
def Node.exporting : Node where
  kind := "program"
  children := [
    { kind := "export_statement"
      children := [
        { kind := "function_declaration", field := some "declaration"
          children := [bareName "name" "load"] }] },
    { kind := "export_statement"
      children := [
        { kind := "lexical_declaration", field := some "declaration"
          children := [
            { kind := "variable_declarator"
              children := [bareName "name" "Card",
                { kind := "arrow_function", field := some "value"
                  children := [callOf "load" []] }] },
            { kind := "variable_declarator"
              children := [bareName "name" "limit",
                { kind := "number", field := some "value", text := "3" }] }] }] },
    { kind := "export_statement"
      children := [
        { kind := "function_expression", field := some "value"
          children := [bareName "name" "App"] }] }]

theorem Node.exporting_cyclomatic_lt : exporting.cyclomatic < Double.limit :=
  Double.lt_limit_of_le_hundred (by decide)

/-- A child of the root is met by the walk. -/
theorem Node.child_mem_sites {root child : Node} (h : child ∈ root.namedChildren) :
    ⟨[root], child⟩ ∈ root.sites [] := by
  have top : ⟨[], root⟩ ∈ root.sites [] := by
    rw [sites_eq]
    exact List.mem_cons_self
  exact below_mem_sites top h

theorem analyzeWith_exportedFunctions_exporting :
    ∃ r, analyzeWith (fun _ _ => .ok .exporting) {} "app.jsx" "" = .ok r ∧
      ∃ exports functions, r.exports = some exports ∧ r.functions = some functions ∧
        ∀ name ∈ ["load", "Card", "App"], name ∈ exports ∧ name ∈ functions := by
  obtain ⟨exists_iff, content⟩ := analyzeWith_exportedFunctions (fun _ _ => .ok .exporting) {} rfl
  obtain ⟨r, h⟩ := exists_iff.mpr Node.exporting_cyclomatic_lt
  obtain ⟨exports, functions, metrics, hx, hf, -, each⟩ := content r h
  have met (name : String) {statement : Node} (hs : statement ∈ Node.exporting.namedChildren)
      (hk : statement.kind = "export_statement") {w : Site} (exported :
        Site.ExportsFunction ⟨[.exporting], statement⟩ w (Node.bareName "name" name).text) :
      name ∈ exports ∧ name ∈ functions := by
    obtain ⟨inExports, inFunctions, -⟩ := each _ (Node.child_mem_sites hs) hk w name exported
    exact ⟨inExports, inFunctions⟩
  refine ⟨r, h, exports, functions, hx, hf, ?_⟩
  simp only [List.forall_mem_cons, List.not_mem_nil, false_implies, implies_true, and_true]
  refine ⟨met "load" (.head _) rfl (.declaration rfl rfl ?_ rfl),
    met "Card" (.tail _ (.head _)) rfl (.declarator rfl rfl ?_ (.head _) rfl rfl rfl rfl ?_),
    met "App" (.tail _ (.tail _ (.head _))) rfl (.value rfl rfl ?_ rfl)⟩
  all_goals decide

end Exporting

end ScriptSurvey
