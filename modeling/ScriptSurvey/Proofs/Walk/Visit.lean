import ScriptSurvey.Survey.Walk

/-!
# What a visit adds

`Tally.visit` chooses among a dozen rules by the kind of the node. Seen from one field of the tally
a visit is simpler: it adds what the node contributes to that field. The contributions are functions
of the node (`Node.called?`, `Node.stateAt?`, …), and `Tally.visit_eq` is the visit as one update of
all fields, put together from `Tally.declare_eq`, `Tally.bind_eq` and `Tally.construct_eq`.
-/

namespace ScriptSurvey

namespace Node

/-! ## Contributions of a node -/

/-- The name that a node calls, if it is the call of a bare name. -/
def called? (n : Node) : Option String :=
  if n.kind == "call_expression" then n.calleeName? else none

/-- The component that a node renders, if it is the use of a component's tag. -/
def rendered? (n : Node) : Option String :=
  if tagKinds.contains n.kind then (n.fieldText? "name").filter Name.isComponent else none

/-- The name that a node refers to, by calling or rendering it. -/
def referred? (n : Node) : Option String :=
  n.called? <|> n.rendered?

/-- The variable that a node introduces, unless it holds a function. -/
def boundName? (parent : Option String) (n : Node) : Option String :=
  if n.kind == "variable_declarator" && (n.declaredName? parent).isNone then
    n.textOf? "name" "identifier"
  else none

/-- The state that a node introduces. -/
def stateAt? (n : Node) (owner : String) : Option StateUnit :=
  if n.kind == "variable_declarator" then n.stateOf? owner else none

/-- The effect that a node makes. -/
def effectAt? (n : Node) (owner : String) : Option Effect :=
  (n.called?.filter effectHooks.contains).map fun name => ⟨owner, n.dependencyNames, name⟩

/-- The imports that a node makes. -/
def importsHere (n : Node) : List Import :=
  if n.kind == "import_statement" then [n.importOf] else []

/-- The names that a node exports. -/
def exportsHere (n : Node) : List String :=
  if n.kind == "export_statement" then n.exportedNames else []

/-- Whether a node is an operation that may skip its right operand. -/
def isLogical (n : Node) : Bool :=
  n.kind == "binary_expression" && (n.fieldText? "operator").any logicalOperators.contains

/-- Whether a node sets markup from text. -/
def setsInnerMarkup (n : Node) : Bool :=
  n.kind == "jsx_attribute" && n.namedChildren.head?.any (·.text == "dangerouslySetInnerHTML")

/-- The issues of a node. -/
def issuesHere (n : Node) : List Issue :=
  (if n.called? = some "eval" then [evalIssue] else []) ++
    (if n.setsInnerMarkup then [innerMarkupIssue] else [])

theorem textOf?_eq_some_iff {n : Node} {field kind text : String} :
    n.textOf? field kind = some text ↔
      ∃ child, n.childByField field = some child ∧ child.kind = kind ∧ child.text = text := by
  unfold textOf?
  cases n.childByField field <;> simp

/-! ## Calls and uses of components -/

/-- Whether a node is the call of a bare name. -/
def Calls (n : Node) (name : String) : Prop :=
  n.kind = "call_expression" ∧
    ∃ callee, n.childByField "function" = some callee ∧ callee.kind = "identifier" ∧
      callee.text = name

/-- Whether a node uses the tag of a component. -/
def Renders (n : Node) (name : String) : Prop :=
  n.kind ∈ tagKinds ∧ Name.isComponent name ∧
    ∃ tag, n.childByField "name" = some tag ∧ tag.text = name

theorem called?_eq_some_iff {n : Node} {name : String} : n.called? = some name ↔ n.Calls name := by
  unfold called? Calls
  by_cases h : n.kind = "call_expression" <;> simp [h, calleeName?, textOf?_eq_some_iff]

theorem rendered?_eq_some_iff {n : Node} {name : String} :
    n.rendered? = some name ↔ n.Renders name := by
  unfold rendered? Renders fieldText?
  by_cases h : n.kind ∈ tagKinds
  · simp only [List.contains_eq_mem, h, decide_true, if_true, Option.filter_eq_some_iff,
      Option.map_eq_some_iff, true_and]
    exact and_comm
  · simp [h]

/-- A node that calls a name is no tag. -/
theorem referred?_eq_some_iff {n : Node} {name : String} :
    n.referred? = some name ↔ n.Calls name ∨ n.Renders name := by
  rw [← called?_eq_some_iff, ← rendered?_eq_some_iff, referred?]
  cases hc : n.called? with
  | none => simp
  | some callee =>
    have hk : n.kind = "call_expression" := (called?_eq_some_iff.mp hc).1
    have hr : n.rendered? = none := by simp [rendered?, hk, tagKinds]
    simp [hr]

/-! ## Contributions that exclude each other -/

/-- A pair of names is no single name. -/
theorem stateOf?_eq_none {n : Node} {name : String} (h : n.textOf? "name" "identifier" = some name)
    (owner : String) : n.stateOf? owner = none := by
  obtain ⟨child, hc, hk, -⟩ := textOf?_eq_some_iff.mp h
  have hg : (guard (child.kind == "array_pattern") : Option Unit) = none := by rw [hk]; rfl
  rw [stateOf?, hc]
  show (guard (child.kind == "array_pattern") >>= _) = none
  rw [hg]
  rfl

/-- A node that declares a function introduces no state. -/
theorem stateAt?_eq_none_of_declaredName? {n : Node} {parent : Option String} {name : String}
    (h : n.declaredName? parent = some name) (owner : String) : n.stateAt? owner = none := by
  unfold stateAt?
  split
  · rename_i hk
    rw [beq_iff_eq] at hk
    simp only [declaredName?, hk, functionDeclarations, List.contains_cons, String.reduceBEq,
      List.contains_nil, Bool.or_self, Bool.false_eq_true, if_false, BEq.rfl, if_true] at h
    split at h
    · split at h
      · exact stateOf?_eq_none h owner
      · cases h
    · cases h
  · rfl

end Node

/-- Effect hooks are hooks by their names. -/
theorem Name.isHook_of_effectHook {name : String} (h : effectHooks.contains name = true) :
    Name.isHook name = true := by
  simp only [effectHooks, List.contains_cons, List.contains_nil, Bool.or_false, Bool.or_eq_true,
    beq_iff_eq] at h
  rcases h with rfl | rfl | rfl <;> decide

namespace Tally

/-- The transition that a call of `name` makes in the present scope. -/
def transition? (t : Tally) (name : String) : Option Transition :=
  (t.setters.get? name).map fun state => ⟨state, name, t.scope.current⟩

/-! ## Visits as updates -/

theorem hook_eq (t : Tally) (n : Node) (name : String) :
    (if Name.isHook name then t.useHook n name else t) =
    { t with
      hooks := t.hooks ++ [name].filter Name.isHook
      effects := t.effects ++ ([name].filter effectHooks.contains).map fun name =>
        ⟨t.scope.current, n.dependencyNames, name⟩ } := by
  cases he : effectHooks.contains name with
  | true =>
    simp only [useHook, Name.isHook_of_effectHook he, he, if_true, List.filter_cons,
      List.filter_nil, List.map_cons, List.map_nil]
  | false =>
    cases hh : Name.isHook name <;>
      simp only [useHook, hh, he, if_true, Bool.false_eq_true, if_false, List.filter_cons,
        List.filter_nil, List.map_nil, List.append_nil]

theorem transit_eq (t : Tally) (name : String) :
    t.transit name = { t with transitions := t.transitions ++ (t.transition? name).toList } := by
  unfold transit transition?
  cases t.setters.get? name <;> simp

theorem refer_eq (t : Tally) (target : String) :
    t.refer target =
      { t with
        references :=
          if t.countsReference target then t.references.increase (t.scope.current, target) 1
          else t.references } := by
  unfold refer
  split <;> rfl

theorem bind_eq (t : Tally) (n : Node) :
    t.bind n =
      { t with
        bindings := t.bindings ++ (n.textOf? "name" "identifier").toList
        states := t.states ++ (n.stateOf? t.scope.current).toList
        setters := (n.stateOf? t.scope.current).elim t.setters
          fun u => t.setters.put u.setter u.name } := by
  unfold bind
  cases hn : n.textOf? "name" "identifier" with
  | some name => simp [Node.stateOf?_eq_none hn]
  | none => cases n.stateOf? t.scope.current <;> simp

theorem call_eq (t : Tally) (n : Node) (name : String) (h : n.calleeName? = some name) : t.call n =
    { t with
      hooks := t.hooks ++ [name].filter Name.isHook
      issues := t.issues ++ if name = "eval" then [evalIssue] else []
      transitions := t.transitions ++ (t.transition? name).toList
      effects := t.effects ++ ([name].filter effectHooks.contains).map fun name =>
        ⟨t.scope.current, n.dependencyNames, name⟩
      references := (t.refer name).references } := by
  simp only [call, h]
  rw [hook_eq, transit_eq, refer_eq, refer_eq]
  by_cases hv : name = "eval"
  · rw [if_pos (beq_iff_eq.mpr hv), if_pos hv]
    rfl
  · rw [if_neg (mt beq_iff_eq.mp hv), if_neg hv, List.append_nil]
    rfl

theorem tag_eq (t : Tally) (n : Node) : t.tag n =
    { t with
      references := ((n.fieldText? "name").filter Name.isComponent).elim t.references
        fun target => (t.refer target).references } := by
  unfold tag
  cases n.fieldText? "name" with
  | none => rfl
  | some name =>
    cases h : Name.isComponent name with
    | true =>
      simp only [if_true, Option.filter_some, h, Option.elim_some]
      rw [refer_eq]
    | false => simp only [Bool.false_eq_true, if_false, Option.filter_some, h, Option.elim_none]

theorem construct_eq (t : Tally) (n : Node) : t.construct n =
    { t with
      hooks := t.hooks ++ n.called?.toList.filter Name.isHook
      imports := t.imports ++ n.importsHere
      exports := t.exports ++ n.exportsHere
      issues := t.issues ++ n.issuesHere
      branches := t.branches + (branchKinds.contains n.kind).toNat
      loops := t.loops + (loopKinds.contains n.kind).toNat
      cyclomatic := t.cyclomatic + (branchKinds.contains n.kind).toNat +
        (loopKinds.contains n.kind).toNat + n.isLogical.toNat
      coupling := t.coupling + n.importsHere.length
      transitions := t.transitions ++ (n.called?.bind t.transition?).toList
      effects := t.effects ++ (n.effectAt? t.scope.current).toList
      references := n.referred?.elim t.references fun target => (t.refer target).references } := by
  by_cases hc : n.kind = "call_expression"
  · have hr : n.referred? = n.called? := by simp [Node.referred?, Node.rendered?, hc, tagKinds]
    have hcalled : n.called? = n.calleeName? := by simp [Node.called?, hc]
    cases hn : n.calleeName? with
    | none =>
      simp [construct, call, Node.importsHere, Node.exportsHere, Node.issuesHere, Node.isLogical,
        Node.setsInnerMarkup, Node.effectAt?, hc, hr, hcalled, hn, branchKinds, loopKinds]
    | some name =>
      simp [construct, call_eq t n name hn, Node.importsHere, Node.exportsHere, Node.issuesHere,
        Node.isLogical, Node.setsInnerMarkup, Node.effectAt?, hc, hr, hcalled, hn, branchKinds,
        loopKinds]
      by_cases he : name ∈ effectHooks <;> simp [Option.filter, he]
  -- the other kinds that have a rule of their own, and then all that have none
  simp only [construct, Node.referred?, Node.importsHere, Node.exportsHere, Node.issuesHere,
    Node.isLogical, Node.setsInnerMarkup, Node.effectAt?, Node.called?, Node.rendered?]
  by_cases ht : n.kind ∈ tagKinds
  · simp only [tagKinds, List.mem_cons, List.not_mem_nil, or_false] at ht
    rcases ht with ht | ht <;> simp [tag_eq, ht, tagKinds, branchKinds, loopKinds]
  by_cases hb : n.kind ∈ branchKinds
  · simp only [branchKinds, List.mem_cons, List.not_mem_nil, or_false] at hb
    rcases hb with hb | hb | hb | hb | hb <;> simp [hb, tagKinds, branchKinds, loopKinds]
  by_cases hl : n.kind ∈ loopKinds
  · simp only [loopKinds, List.mem_cons, List.not_mem_nil, or_false] at hl
    rcases hl with hl | hl | hl | hl <;> simp [hl, tagKinds, branchKinds, loopKinds]
  by_cases hi : n.kind = "import_statement"
  · simp [hi, tagKinds, branchKinds, loopKinds]
  by_cases hx : n.kind = "export_statement"
  · simp [hx, tagKinds, branchKinds, loopKinds]
  by_cases hy : n.kind = "binary_expression"
  · cases ho : (n.fieldText? "operator").any logicalOperators.contains <;>
      simp [hy, tagKinds, branchKinds, loopKinds]
  by_cases hj : n.kind = "jsx_attribute"
  · simp only [hj, tagKinds, branchKinds, loopKinds]
    by_cases hm : n.namedChildren.head?.any (·.text == "dangerouslySetInnerHTML") = true <;>
      simp [hm]
  have hy' : (n.kind == "binary_expression") = false := by simp [hy]
  simp [hc, ht, hb, hl, hi, hx, hy', hj]

theorem declare_eq (t : Tally) (name : String) : t.declare name =
    { t with
      functions := t.functions ++ [name]
      handlers := t.handlers ++ [name].filter (Role.ofName · = .handler)
      components := t.components ++ [name].filter (Role.ofName · = .component)
      weightedMethods := t.weightedMethods + 1
      roles := t.roles.put name (Role.ofName name)
      roots := t.roots ++ [name].filter (Role.ofName · = .component) } := by
  unfold declare
  cases h : Role.ofName name <;> simp [h]

/-- **A visit as one update.** -/
theorem visit_eq (t : Tally) (parent : Option String) (n : Node) : t.visit parent n =
    { t with
      functions := t.functions ++ (n.declaredName? parent).toList
      bindings := t.bindings ++ (n.boundName? parent).toList
      handlers := t.handlers ++ (n.declaredName? parent).toList.filter (Role.ofName · = .handler)
      components :=
        t.components ++ (n.declaredName? parent).toList.filter (Role.ofName · = .component)
      hooks := t.hooks ++ n.called?.toList.filter Name.isHook
      imports := t.imports ++ n.importsHere
      exports := t.exports ++ n.exportsHere
      issues := t.issues ++ n.issuesHere
      branches := t.branches + (branchKinds.contains n.kind).toNat
      loops := t.loops + (loopKinds.contains n.kind).toNat
      cyclomatic := t.cyclomatic + (branchKinds.contains n.kind).toNat +
        (loopKinds.contains n.kind).toNat + n.isLogical.toNat
      coupling := t.coupling + n.importsHere.length
      weightedMethods := t.weightedMethods + (n.declaredName? parent).toList.length
      roles := (n.declaredName? parent).elim t.roles fun name => t.roles.put name (Role.ofName name)
      roots := t.roots ++ (n.declaredName? parent).toList.filter (Role.ofName · = .component)
      states := t.states ++ (n.stateAt? t.scope.current).toList
      transitions := t.transitions ++ (n.called?.bind t.transition?).toList
      effects := t.effects ++ (n.effectAt? t.scope.current).toList
      setters := (n.stateAt? t.scope.current).elim t.setters fun u => t.setters.put u.setter u.name
      references := n.referred?.elim t.references fun target => (t.refer target).references } := by
  simp only [visit, construct_eq]
  cases hd : n.declaredName? parent with
  | some name =>
    have hb : n.boundName? parent = none := by simp [Node.boundName?, hd]
    have hs := Node.stateAt?_eq_none_of_declaredName? hd t.scope.current
    simp only [declare_eq, hb, hs, refer_eq, Option.toList_none, List.append_nil, Option.elim_none]
    rfl
  | none =>
    by_cases hk : n.kind = "variable_declarator"
    · have hb : n.boundName? parent = n.textOf? "name" "identifier" := by
        simp [Node.boundName?, hd, hk]
      have hs : n.stateAt? t.scope.current = n.stateOf? t.scope.current := by
        simp [Node.stateAt?, hk]
      -- a declarator is neither a call nor a tag, so that the new setter is not looked up yet
      have hc : n.called? = none := by simp [Node.called?, hk]
      have hr : n.referred? = none := by simp [Node.referred?, hc, Node.rendered?, hk, tagKinds]
      simp [bind_eq, hk, hb, hs, hc, hr]
    · have hb : n.boundName? parent = none := by simp [Node.boundName?, hk]
      have hs : n.stateAt? t.scope.current = none := by simp [Node.stateAt?, hk]
      simp [hk, hb, hs]

/-- Arriving at a node is a visit, and the depth is noted. -/
theorem arrive_eq (t : Tally) (parent : Option String) (n : Node) (depth : Nat) :
    t.arrive parent n depth = { t.visit parent n with maxDepth := max t.maxDepth depth } := by
  simp only [arrive, visit_eq, refer_eq]
  rfl

@[simp] theorem arrive_scope (t : Tally) (parent : Option String) (n : Node) (depth : Nat) :
    (t.arrive parent n depth).scope = t.scope := by
  rw [arrive_eq, visit_eq]

end Tally

end ScriptSurvey
