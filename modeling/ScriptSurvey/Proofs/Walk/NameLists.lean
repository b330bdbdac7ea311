import ScriptSurvey.Proofs.Walk.Counters
import ScriptSurvey.Proofs.Walk.References

/-!
# The name lists of a file

A record lists the names of functions, variables and hooks, and of the functions those that are
handlers and those that are components. The walk gathers each list on its own and puts the roles of
the functions into a ledger besides. All of them come from three histories: the functions declared
(`Site.declared?`), the variables bound to something else (`Site.bound?`) and the hooks called
(`Site.hook?`). Every list has the first occurrences of a history, or of those members of it that
have one role, and so has the ledger (`analyzeWith_nameLists`).
-/

namespace ScriptSurvey

namespace Site

/-! ## The names at a site -/

/-- The variable that a site introduces, unless it holds a function. -/
def bound? (v : Site) : Option String :=
  v.node.boundName? v.parentKind

/-- The hook that a site calls. -/
def hook? (v : Site) : Option String :=
  v.node.called?.filter Name.isHook

/-- Whether a site is a declarator whose value is a function. -/
def HoldsFunction (v : Site) : Prop :=
  v.node.kind = "variable_declarator" ∧
    ∃ value ∈ v.node.childByField "value", value.kind ∈ functionExpressions

/-- Whether a site declares a function of this name: by itself, as the variable that holds it, or as
the function that the statement around it exports. -/
def Declares (v : Site) (name : String) : Prop :=
  (v.node.kind ∈ functionDeclarations ∧ ∃ child ∈ v.node.childByField "name", child.text = name) ∨
  (v.HoldsFunction ∧
    ∃ child ∈ v.node.childByField "name", child.kind = "identifier" ∧ child.text = name) ∨
  (v.node.kind ∈ functionExpressions ∧ v.parentKind = some "export_statement" ∧
    ∃ child ∈ v.node.childByField "name", child.text = name)

/-- Whether a site is the declarator of a variable of this name that holds no function. -/
def Binds (v : Site) (name : String) : Prop :=
  v.node.kind = "variable_declarator" ∧ ¬ v.HoldsFunction ∧
    ∃ child ∈ v.node.childByField "name", child.kind = "identifier" ∧ child.text = name

theorem declared?_of_declarator {v : Site} (hk : v.node.kind = "variable_declarator")
    {name : String} :
    v.declared? = some name ↔ v.HoldsFunction ∧
      ∃ child ∈ v.node.childByField "name", child.kind = "identifier" ∧ child.text = name := by
  have hf : "variable_declarator" ∉ functionDeclarations := by decide
  unfold declared? Node.declaredName? HoldsFunction
  cases v.node.childByField "value" with
  | none => simp [hk, hf]
  | some value =>
    by_cases he : value.kind ∈ functionExpressions
    · simp [hk, hf, he, Node.textOf?_eq_some_iff]
    · simp [hk, hf, he]

theorem declared?_eq_some_iff {v : Site} {name : String} :
    v.declared? = some name ↔ v.Declares name := by
  by_cases hv : v.node.kind = "variable_declarator"
  · have hf : "variable_declarator" ∉ functionDeclarations := by decide
    have he : "variable_declarator" ∉ functionExpressions := by decide
    simp [declared?_of_declarator hv, Declares, hv, hf, he]
  · unfold declared? Node.declaredName? Declares HoldsFunction
    by_cases hf : v.node.kind ∈ functionDeclarations
    · simp [hf, hv, not_mem_functionExpressions (.inl hf), Node.fieldText?]
    · by_cases he : v.node.kind ∈ functionExpressions ∧ v.parentKind = some "export_statement"
      · simp [hf, hv, he, Node.fieldText?]
      · simp only [List.contains_eq_mem, hf, hv, beq_iff_eq, decide_false, Bool.false_eq_true,
          if_false, Bool.and_eq_true, decide_eq_true_eq, he, false_and, false_or, reduceCtorEq,
          false_iff]
        rintro ⟨hk, hp, -⟩
        exact he ⟨hk, hp⟩

theorem bound?_eq_some_iff {v : Site} {name : String} : v.bound? = some name ↔ v.Binds name := by
  unfold bound? Node.boundName? Binds
  by_cases hv : v.node.kind = "variable_declarator"
  · have text : v.node.textOf? "name" "identifier" = some name ↔
        ∃ child ∈ v.node.childByField "name", child.kind = "identifier" ∧ child.text = name :=
      Node.textOf?_eq_some_iff
    by_cases hh : v.HoldsFunction
    -- The name of a declarator that holds a function is that of the function.
    · have none : ¬ ((v.node.declaredName? v.parentKind).isNone = true ∧
          v.node.textOf? "name" "identifier" = some name) := by
        rintro ⟨undeclared, named⟩
        have declared := (declared?_of_declarator hv).mpr ⟨hh, text.mp named⟩
        rw [declared?] at declared
        rw [declared] at undeclared
        cases undeclared
      simpa [hv, hh] using none
    · have undeclared : v.node.declaredName? v.parentKind = none := by
        refine Option.eq_none_iff_forall_not_mem.mpr fun other declared => hh ?_
        exact ((declared?_of_declarator hv).mp declared).1
      simpa [hv, hh, undeclared] using text
  · simp [hv]

theorem hook?_eq_some_iff {v : Site} {name : String} :
    v.hook? = some name ↔ v.node.Calls name ∧ "use".toList <+: name.toList := by
  rw [hook?, Option.filter_eq_some_iff, Node.called?_eq_some_iff, Name.isHook,
    List.isPrefixOf_iff_prefix]

end Site

/-! ## The lists after a walk -/

namespace Tally

variable (vs : List Site)

theorem survey_bindings : (survey vs).bindings = vs.filterMap Site.bound? :=
  survey_filterMap rfl (fun t v => by rw [visitSite_eq, visit_eq]; rfl) vs

theorem survey_hooks : (survey vs).hooks = vs.filterMap Site.hook? :=
  survey_filterMap rfl (fun t v => by
    rw [visitSite_eq, visit_eq, Site.hook?, Option.toList_filter]; rfl) vs

/-- A list to which every declaration of one role is added has the functions of that role. -/
theorem survey_ofRole {field : Tally → List String} {role : Role} (start : field {} = [])
    (visit : ∀ t v, field (t.visitSite v) =
      field t ++ (Site.declared? v).toList.filter (Role.ofName · = role)) :
    field (survey vs) = (vs.filterMap Site.declared?).filter (Role.ofName · = role) := by
  rw [survey_flatMap start visit, List.filterMap_eq_flatMap_toList, List.filter_flatMap]

theorem survey_components :
    (survey vs).components =
      (vs.filterMap Site.declared?).filter (Role.ofName · = .component) :=
  survey_ofRole vs rfl fun t v => by rw [visitSite_eq, visit_eq]; rfl

theorem survey_roots :
    (survey vs).roots = (vs.filterMap Site.declared?).filter (Role.ofName · = .component) :=
  survey_ofRole vs rfl fun t v => by rw [visitSite_eq, visit_eq]; rfl

theorem survey_handlers :
    (survey vs).handlers = (vs.filterMap Site.declared?).filter (Role.ofName · = .handler) :=
  survey_ofRole vs rfl fun t v => by rw [visitSite_eq, visit_eq]; rfl

end Tally

namespace Node

/-- The names of the variables in a tree that hold no functions, in order. -/
def boundNames (root : Node) : List String :=
  (root.sites []).filterMap Site.bound?

/-- The hooks that are called in a tree, in order. -/
def hookNames (root : Node) : List String :=
  (root.sites []).filterMap Site.hook?

/-- The names of the functions of one role that are declared in a tree, in order. -/
def namesOfRole (root : Node) (role : Role) : List String :=
  root.declaredNames.filter (Role.ofName · = role)

/-- Every declaration counts, also of a name that was declared before. -/
theorem length_declaredNames (root : Node) :
    root.declaredNames.length = root.surveyed.weightedMethods := by
  rw [surveyed_weightedMethods, declaredNames, List.length_filterMap_eq_countP]
  refine List.countP_congr fun v _ => ?_
  rw [v.declared?_isSome_iff, decide_eq_true_eq]

theorem not_mem_namesOfRole {root : Node} {name : String} {role other : Role} (hne : role ≠ other)
    (h : name ∈ root.namesOfRole role) : name ∉ root.namesOfRole other := by
  intro h'
  have first := of_decide_eq_true (List.mem_filter.mp h).2
  have second := of_decide_eq_true (List.mem_filter.mp h').2
  exact hne (first.symm.trans second)

end Node

/-- **The name lists of a file.** The functions, variables, hooks, handlers and components of a
record are the names met in the tree, each once and in the order of first occurrence. The dependency
graph declares exactly the functions of the record, with the roles that their names give them. The
components, which are also the roots, and the handlers are those of the functions that have the
role, so that none is both. The weighted methods are at least as many as the functions, and as many
only if no function is declared twice. There is a record unless the complexity of the tree lies
beyond all doubles. -/
theorem analyzeWith_nameLists (read : TreeReader) (clock : Clock) {filename source : String}
    {root : Node} (hread : read (Syntax.Options.forFile filename) source = .ok root) :
    ((∃ r, analyzeWith read clock filename source = .ok r) ↔ root.cyclomatic < Double.limit) ∧
    (∀ r, analyzeWith read clock filename source = .ok r →
      ∃ functions bindings handlers components hooks graph metrics,
        r.functions = some functions ∧ r.bindings = some bindings ∧
        r.handlers = some handlers ∧ r.components = some components ∧ r.hooks = some hooks ∧
        r.graph = some graph ∧ r.metrics = some metrics ∧
        FirstOccurrences root.declaredNames functions ∧
        FirstOccurrences root.boundNames bindings ∧
        FirstOccurrences (root.namesOfRole .handler) handlers ∧
        FirstOccurrences (root.namesOfRole .component) components ∧
        FirstOccurrences root.hookNames hooks ∧
        graph.functions = functions.map (fun name => ⟨name, (Role.ofName name).label⟩) ∧
        components = functions.filter (Role.ofName · = .component) ∧
        graph.roots = components ∧
        handlers = functions.filter (Role.ofName · = .handler) ∧
        (∀ name ∈ components, name ∉ handlers) ∧
        (∀ hook ∈ hooks, "use".toList <+: hook.toList) ∧
        (functions.length : Int) ≤ metrics.weightedMethods ∧
        (metrics.weightedMethods = functions.length ↔ root.declaredNames.Nodup)) ∧
    (∀ v name, Site.declared? v = some name ↔ v.Declares name) ∧
    (∀ v name, Site.bound? v = some name ↔ v.Binds name) ∧
    ∀ v name, Site.hook? v = some name ↔ v.node.Calls name ∧ "use".toList <+: name.toList := by
  refine ⟨exists_analyzeWith_iff clock hread, fun r h => ?_, fun _ _ => Site.declared?_eq_some_iff,
    fun _ _ => Site.bound?_eq_some_iff, fun _ _ => Site.hook?_eq_some_iff⟩
  obtain ⟨m, -, -, rfl⟩ := eq_recorded_of_analyzeWith_eq_ok hread h
  have functions : root.surveyed.functions = root.declaredNames := Tally.survey_functions _
  have bindings : root.surveyed.bindings = root.boundNames := Tally.survey_bindings _
  have hooks : root.surveyed.hooks = root.hookNames := Tally.survey_hooks _
  have handlers : root.surveyed.handlers = root.namesOfRole .handler := Tally.survey_handlers _
  have components : root.surveyed.components = root.namesOfRole .component :=
    Tally.survey_components _
  have roots : root.surveyed.roots = root.namesOfRole .component := Tally.survey_roots _
  have weighted := root.length_declaredNames
  refine ⟨distinct root.declaredNames, distinct root.boundNames, distinct (root.namesOfRole .handler),
    distinct (root.namesOfRole .component), distinct root.hookNames, root.surveyed.graph, _,
    congrArg (some <| distinct ·) functions, congrArg (some <| distinct ·) bindings,
    congrArg (some <| distinct ·) handlers, congrArg (some <| distinct ·) components,
    congrArg (some <| distinct ·) hooks, rfl, rfl, firstOccurrences_distinct _,
    firstOccurrences_distinct _, firstOccurrences_distinct _, firstOccurrences_distinct _,
    firstOccurrences_distinct _, ?_, distinct_filter .., congrArg distinct roots,
    distinct_filter .., fun name hc hh => ?_, fun hook hm => ?_, ?_, ?_⟩
  · rw [Tally.graph, root.surveyed_roles, List.map_map]
    rfl
  · rw [mem_distinct] at hc hh
    exact Node.not_mem_namesOfRole (by decide) hc hh
  · obtain ⟨v, -, hv⟩ := List.mem_filterMap.mp (mem_distinct.mp hm)
    exact (Site.hook?_eq_some_iff.mp hv).2
  · have hle := (distinct_sublist root.declaredNames).length_le
    rw [weighted] at hle
    exact Int.ofNat_le.mpr hle
  · rw [← length_distinct_eq_iff, weighted, Int.natCast_inj, eq_comm]

section Redeclared

/-- The tree of a file in which a handler is declared a second time, inside a component:

`function handleSave() { useSave(); useSave() }`
`function Card() { const key = 1; const handleSave = () => useKey() }` -/
def Node.redeclared : Node where
  kind := "program"
  children := [
    { kind := "function_declaration"
      children := [bareName "name" "handleSave", callOf "useSave" [], callOf "useSave" []] },
    { kind := "function_declaration"
      children := [bareName "name" "Card",
        { kind := "variable_declarator"
          children := [bareName "name" "key",
            { kind := "number", field := some "value", text := "1" }] },
        { kind := "variable_declarator"
          children := [bareName "name" "handleSave",
            { kind := "arrow_function", field := some "value"
              children := [callOf "useKey" []] }] }] }]

theorem Node.redeclared_cyclomatic_lt : redeclared.cyclomatic < Double.limit :=
  Double.lt_limit_of_le_hundred (by decide)

theorem analyzeWith_nameLists_redeclared :
    ∃ r, analyzeWith (fun _ _ => .ok .redeclared) {} "card.jsx" "" = .ok r ∧
      r.functions = some ["handleSave", "Card"] ∧ r.bindings = some ["key"] ∧
      r.handlers = some ["handleSave"] ∧ r.components = some ["Card"] ∧
      r.hooks = some ["useSave", "useKey"] ∧
      ∃ metrics, r.metrics = some metrics ∧ metrics.weightedMethods ≠ 2 := by
  obtain ⟨exists_iff, content, -⟩ := analyzeWith_nameLists (fun _ _ => .ok .redeclared) {} rfl
  obtain ⟨r, h⟩ := exists_iff.mpr Node.redeclared_cyclomatic_lt
  obtain ⟨functions, bindings, handlers, components, hooks, graph, metrics, hf, hb, hh, hc, hk, -,
    hm, ff, fb, fh, fc, fk, -, -, -, -, -, -, -, equal⟩ := content r h
  have names : functions = ["handleSave", "Card"] := ff.eq_distinct.trans (by decide)
  refine ⟨r, h, hf.trans (congrArg some names), hb.trans (congrArg some ?_),
    hh.trans (congrArg some ?_), hc.trans (congrArg some ?_), hk.trans (congrArg some ?_), metrics,
    hm, fun both => ?_⟩
  · exact fb.eq_distinct.trans (by decide)
  · exact fh.eq_distinct.trans (by decide)
  · exact fc.eq_distinct.trans (by decide)
  · exact fk.eq_distinct.trans (by decide)
  · have twice : ¬ Node.redeclared.declaredNames.Nodup := by decide
    rw [names] at equal
    exact twice (equal.mp both)

end Redeclared

end ScriptSurvey
