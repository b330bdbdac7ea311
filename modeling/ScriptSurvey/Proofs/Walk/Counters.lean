import ScriptSurvey.Proofs.Analysis

/-!
# Counters of a tree

The numbers in a record are counts over the sites of the tree, and the greatest depth is the height
of the tree along its named children (`Node.surveyed_maxDepth`). No rule of a visit hides another,
so each count is that of one property of a site.

A function is declared by a node of its own, by the variable that holds it, or by the statement that
exports it (`Site.IsDeclaration`). A function that a variable holds is no declaration besides
(`Site.not_isDeclaration_value`), so that it is counted once.
-/

namespace ScriptSurvey

namespace Node

/-! ## The height -/

mutual

/-- The number of steps from a node to the deepest one below it, along named children. -/
def height : Node → Nat
  | ⟨_, _, _, _, _, _, _, children⟩ => heightAll children

/-- The number of steps to the deepest node, from above a list of nodes. -/
def heightAll : List Node → Nat
  | [] => 0
  | n :: ns => if n.named then max (height n + 1) (heightAll ns) else heightAll ns

end

theorem heightAll_le_iff {ns : List Node} {d : Nat} :
    heightAll ns ≤ d ↔ ∀ n ∈ ns.filter (·.named), n.height + 1 ≤ d := by
  induction ns with
  | nil => simp [heightAll]
  | cons n ns ih =>
    rw [heightAll, List.filter_cons]
    split
    · rw [Nat.max_le, ih, List.forall_mem_cons]
    · exact ih

theorem height_le_iff {n : Node} {d : Nat} :
    n.height ≤ d ↔ ∀ child ∈ n.namedChildren, child.height + 1 ≤ d := by
  obtain ⟨⟩ := n
  exact heightAll_le_iff

/-- No site is deeper than the place of the tree and its height, and that bound is the least. -/
theorem sites_depth_le_iff (n : Node) (ancestors : List Node) (d : Nat) :
    (∀ v ∈ n.sites ancestors, v.ancestors.length ≤ d) ↔ ancestors.length + n.height ≤ d := by
  induction n using named_induction generalizing ancestors with
  | step n ih =>
    have below : (∀ v ∈ n.namedChildren.flatMap (sites (n :: ancestors)), v.ancestors.length ≤ d) ↔
        ∀ child ∈ n.namedChildren, ancestors.length + 1 + child.height ≤ d := by
      simp only [List.mem_flatMap, forall_exists_index, and_imp]
      constructor
      · intro h child hc
        exact (ih child hc (n :: ancestors)).mp fun v hv => h v child hc hv
      · intro h v child hc hv
        exact (ih child hc (n :: ancestors)).mpr (h child hc) v hv
    rw [sites_eq, List.forall_mem_cons, below]
    constructor
    · rintro ⟨hd, h⟩
      have hle : n.height ≤ d - ancestors.length := height_le_iff.mpr fun child hc => by
        have := h child hc
        omega
      dsimp only at hd
      omega
    · intro h
      have hle : n.height ≤ d - ancestors.length := by omega
      refine ⟨by dsimp only; omega, fun child hc => ?_⟩
      have := height_le_iff.mp hle child hc
      omega

end Node

theorem Tally.survey_maxDepth_le_iff (vs : List Site) (d : Nat) :
    (survey vs).maxDepth ≤ d ↔ ∀ v ∈ vs, v.ancestors.length ≤ d := by
  induction vs using List.reverseRecOn with
  | nil => simp [survey]
  | append_singleton vs v ih =>
    rw [survey_append_singleton, visitSite_eq, Nat.max_le, ih, List.forall_mem_append,
      List.forall_mem_singleton]

/-- **The greatest depth of a walk is the height of the tree.** -/
theorem Node.surveyed_maxDepth (root : Node) : root.surveyed.maxDepth = root.height :=
  eq_of_forall_ge_iff fun d => by
    rw [surveyed, Tally.survey_maxDepth_le_iff, sites_depth_le_iff, List.length_nil, Nat.zero_add]

/-! ## Declarations -/

/-- Whether a site declares a function: by itself, as the variable that holds it, or as the function
that the statement around it exports. -/
def Site.IsDeclaration (v : Site) : Prop :=
  (v.node.kind ∈ functionDeclarations ∧ (v.node.childByField "name").isSome) ∨
  (v.node.kind = "variable_declarator" ∧
    (∃ name ∈ v.node.childByField "name", name.kind = "identifier") ∧
    ∃ value ∈ v.node.childByField "value", value.kind ∈ functionExpressions) ∨
  (v.node.kind ∈ functionExpressions ∧ v.parentKind = some "export_statement" ∧
    (v.node.childByField "name").isSome)

/-- The three kinds of declarations exclude each other. -/
theorem not_mem_functionExpressions {kind : String}
    (h : kind ∈ functionDeclarations ∨ kind = "variable_declarator") :
    kind ∉ functionExpressions := by
  simp only [functionDeclarations, List.mem_cons, List.not_mem_nil, or_false] at h
  rcases h with (rfl | rfl) | rfl <;> decide

namespace Site

theorem declared?_isSome_iff (v : Site) : v.declared?.isSome ↔ v.IsDeclaration := by
  unfold declared? Node.declaredName? IsDeclaration
  by_cases hf : v.node.kind ∈ functionDeclarations
  · have hv : v.node.kind ≠ "variable_declarator" := fun e => absurd (e ▸ hf) (by decide)
    simp [hf, hv, not_mem_functionExpressions (.inl hf), Node.fieldText?]
  by_cases hv : v.node.kind = "variable_declarator"
  · have he := not_mem_functionExpressions (.inr hv)
    rw [hv] at hf he
    cases hvalue : v.node.childByField "value" with
    | none => simp [hf, he, hv]
    | some value =>
      cases hname : v.node.childByField "name" <;>
        by_cases hk : value.kind ∈ functionExpressions <;>
          simp [Node.textOf?, hf, he, hv, hname, hk]
  · by_cases he : v.node.kind ∈ functionExpressions <;>
      by_cases hp : v.parentKind = some "export_statement" <;>
        simp [Node.fieldText?, hf, hv, he, hp]

instance : DecidablePred IsDeclaration :=
  fun v => decidable_of_iff _ v.declared?_isSome_iff

/-- A function that a variable holds is no declaration of its own. -/
theorem not_isDeclaration_value {v : Site} {value : Node} (hv : v.node.kind = "variable_declarator")
    (he : value.kind ∈ functionExpressions) :
    ¬ IsDeclaration ⟨v.node :: v.ancestors, value⟩ := by
  rintro (⟨hk, -⟩ | ⟨hk, -⟩ | ⟨-, hp, -⟩)
  · exact not_mem_functionExpressions (.inl hk) he
  · exact not_mem_functionExpressions (.inr hk) he
  · simp [parentKind, hv] at hp

end Site

/-! ## The counters in a record -/

namespace Node

/-- The import statements in a tree. -/
def importStatements (root : Node) : Nat :=
  (root.sites []).countP (·.node.kind = "import_statement")

theorem surveyed_coupling (root : Node) : root.surveyed.coupling = root.importStatements :=
  Tally.survey_countP rfl (fun t v => by
    rw [Tally.visitSite_eq, Tally.visit_eq]
    by_cases h : v.node.kind = "import_statement" <;> simp [importsHere, h, Tally.inScope]) _

theorem length_surveyed_imports (root : Node) :
    root.surveyed.imports.length = root.importStatements := by
  rw [surveyed, Tally.survey_imports, List.length_flatMap, importStatements, ← Tally.sum_map_toNat]
  congr 2
  funext v
  by_cases h : v.node.kind = "import_statement" <;> simp [importsHere, h]

theorem surveyed_weightedMethods (root : Node) :
    root.surveyed.weightedMethods = (root.sites []).countP Site.IsDeclaration :=
  Tally.survey_countP rfl (fun t v => by
    have hd := v.declared?_isSome_iff
    rw [Tally.visitSite_eq, Tally.visit_eq]
    simp only [Tally.inScope, ← hd, Site.declared?]
    cases v.node.declaredName? v.parentKind <;> rfl) _

theorem length_surveyed_issues (root : Node) :
    root.surveyed.issues.length =
      (root.sites []).countP (·.node.called? = some "eval") +
        (root.sites []).countP (·.node.setsInnerMarkup) := by
  rw [surveyed, Tally.survey_issues, List.length_flatMap, ← Tally.sum_map_toNat,
    ← Tally.sum_map_toNat, ← List.sum_map_add]
  congr 2
  funext v
  by_cases he : v.node.called? = some "eval" <;> by_cases hm : v.node.setsInnerMarkup <;>
    simp [issuesHere, he, hm]

end Node

/-- **The numbers in a record are counts over the tree**: its depth is the height of the tree, its
complexity counts the branches, the loops and the operations that may skip an operand, its coupling
the import statements, its weighted methods the declarations of functions, none of them twice, and
there is an issue for each call of `eval` and for each attribute that sets markup from text. There
is a record unless the complexity lies beyond all doubles. -/
theorem analyzeWith_counters (read : TreeReader) (clock : Clock) {filename source : String}
    {root : Node} (hread : read (Syntax.Options.forFile filename) source = .ok root) :
    ((∃ r, analyzeWith read clock filename source = .ok r) ↔ root.cyclomatic < Double.limit) ∧
    ∀ r, analyzeWith read clock filename source = .ok r →
      r.complexity = some
        { maxDepth := root.height, branches := root.branches, loops := root.loops
          cyclomatic := root.cyclomatic } ∧
      (∃ maintainability, r.metrics = some
        { cyclomatic := root.cyclomatic, coupling := root.importStatements
          weightedMethods := (root.sites []).countP Site.IsDeclaration, maintainability }) ∧
      (∃ imports, r.imports = some imports ∧ imports.length = root.importStatements) ∧
      (∃ issues, r.issues = some issues ∧ issues.length =
        (root.sites []).countP (·.node.called? = some "eval") +
          (root.sites []).countP (·.node.setsInnerMarkup)) ∧
      ∀ v ∈ root.sites [], v.node.kind = "variable_declarator" →
        ∀ value ∈ v.node.childByField "value", value.kind ∈ functionExpressions →
          ¬ Site.IsDeclaration ⟨v.node :: v.ancestors, value⟩ := by
  refine ⟨exists_analyzeWith_iff clock hread, fun r h => ?_⟩
  obtain ⟨m, -, -, rfl⟩ := eq_recorded_of_analyzeWith_eq_ok hread h
  refine ⟨?_, ⟨m, ?_⟩, ⟨_, rfl, root.length_surveyed_imports⟩,
    ⟨_, rfl, root.length_surveyed_issues⟩, fun v _ hv _ _ he => Site.not_isDeclaration_value hv he⟩
  · simp only [Node.recorded, Tally.record, Node.surveyed_maxDepth, Node.surveyed_branches,
      Node.surveyed_loops, Node.surveyed_cyclomatic]
  · simp only [Node.recorded, Tally.record, Node.surveyed_cyclomatic, Node.surveyed_coupling,
      Node.surveyed_weightedMethods]

theorem analyzeWith_counters_specimen :
    ∃ r, analyzeWith (fun _ _ => .ok .specimen) {} "app.js" "" = .ok r ∧
      r.complexity = some { maxDepth := 6, branches := 1, loops := 1, cyclomatic := 4 } ∧
      (∃ maintainability, r.metrics = some
        { cyclomatic := 4, coupling := 1, weightedMethods := 2, maintainability }) ∧
      ∃ issues, r.issues = some issues ∧ issues.length = 2 := by
  obtain ⟨exists_iff, content⟩ := analyzeWith_counters (fun _ _ => .ok .specimen) {} rfl
  obtain ⟨r, h⟩ := exists_iff.mpr Node.specimen_cyclomatic_lt
  obtain ⟨hx, ⟨m, hm⟩, -, ⟨issues, hi, hl⟩, -⟩ := content r h
  refine ⟨r, h, hx.trans (by decide), ⟨m, hm.trans ?_⟩, issues, hi, hl.trans (by decide)⟩
  congr 2

end ScriptSurvey
