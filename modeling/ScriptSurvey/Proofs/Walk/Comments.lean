import ScriptSurvey.Proofs.Syntax.Acceptance
import ScriptSurvey.Proofs.Walk.Counters

/-!
# Comments

A comment may stand anywhere among the children of a node, and several rules read children by their
place: the pair of a state, the arguments of a call, the list of what an effect depends on. All of
them pass over comments. Only the attribute of a tag is told by its first named child, whatever that
is, so no comment may come before it.

* `Node.AddsComment` puts one comment into a tree, `Relation.ReflTransGen` of it any number.
* What is read of a node without regard to comments is *blind* (`Node.Blind`). The readings that a
  visit is made of are put together from blind ones, so a visit is blind (`Tally.visit_blind`).
* A walk meets the comments that were added and learns nothing but their depth
  (`descend_addsComment`).
-/

namespace ScriptSurvey

namespace Node

/-! ## Adding comments -/

/-- A comment between the parts of a construct: named, in no field, without children. -/
structure IsRemark (c : Node) : Prop where
  kind : c.kind = "comment"
  named : c.named = true
  field : c.field = none
  children : c.children = []

/-- The second tree is the first with one comment put in: among the children of the root, but not as
the first named child of an attribute, or within a child. -/
inductive AddsComment : Node → Node → Prop where
  | among {n c : Node} (before after : List Node) (hc : c.IsRemark)
      (hn : n.children = before ++ after)
      (first : n.kind = "jsx_attribute" → ∃ m ∈ before, m.named) :
      AddsComment n { n with children := before ++ c :: after }
  | within {n child child' : Node} (before after : List Node)
      (hn : n.children = before ++ child :: after) (h : AddsComment child child') :
      AddsComment n { n with children := before ++ child' :: after }

/-- Whether a reading of nodes is the same with a comment put in. -/
def Blind {α : Type} (g : Node → α) : Prop :=
  ∀ ⦃n n' : Node⦄, n.AddsComment n' → g n' = g n

namespace Blind

section Combinators

variable {α β : Type} {g g' : Node → α} {k : Node → β} {gs : Node → List β} {q : String → Bool}

/-- Any number of comments may be put in. -/
theorem many (hg : Blind g) {n n' : Node} (h : Relation.ReflTransGen AddsComment n n') :
    g n' = g n := by
  induction h with
  | refl => rfl
  | tail _ step ih => exact (hg step).trans ih

protected theorem kind : Blind Node.kind := by
  rintro _ _ (_ | _) <;> rfl

protected theorem text : Blind Node.text := by
  rintro _ _ (_ | _) <;> rfl

protected theorem named : Blind Node.named := by
  rintro _ _ (_ | _) <;> rfl

protected theorem field : Blind Node.field := by
  rintro _ _ (_ | _) <;> rfl

protected theorem isError : Blind Node.isError := by
  rintro _ _ (_ | _) <;> rfl

theorem const (a : α) : Blind fun _ => a := fun _ _ _ => rfl

theorem pair (hg : Blind g) (hk : Blind k) : Blind fun n => (g n, k n) :=
  fun _ _ h => Prod.ext (hg h) (hk h)

/-- What is made of a blind reading is blind. -/
theorem through (hk : Blind k) (f : β → α) (hg : ∀ n, g n = f (k n)) : Blind g := by
  intro n n' h
  rw [hg, hg, hk h]

/-- So is a choice between two by the kind of the node. -/
theorem byKind (q : String → Bool) (hg : Blind g) (hg' : Blind g') :
    Blind fun n => if q n.kind then g n else g' n := by
  intro n n' h
  simp only [Blind.kind h, hg h, hg' h]

/-- Gathering from the children is blind, if nothing is gathered from comments. -/
theorem flatMap_children (hg : Blind gs) (hc : ∀ c, IsRemark c → gs c = []) :
    Blind fun n => n.children.flatMap gs := by
  intro n n' h
  cases h with
  | among _ _ hr hn _ => simp [hn, hc _ hr]
  | within _ _ hn h => simp [hn, hg h]

theorem flatMap_filter_children {p : Node → Bool} (hp : Blind p) (hg : Blind gs)
    (hc : ∀ c, IsRemark c → p c → gs c = []) :
    Blind fun n => (n.children.filter p).flatMap gs := by
  have guarded (ns : List Node) :
      (ns.filter p).flatMap gs = ns.flatMap fun n => if p n then gs n else [] := by
    induction ns with
    | nil => rfl
    | cons n ns ih => cases hn : p n <;> simp [hn, ih]
  intro n n' h
  dsimp only
  rw [guarded, guarded]
  refine flatMap_children (fun n n' h => ?_) (fun c hr => ?_) h
  · rw [hp h, hg h]
  · split
    · exact hc c hr ‹_›
    · rfl

/-- What is read of the child in a field. -/
theorem childByField (f : String) (hg : Blind g) : Blind fun n => (n.childByField f).map g := by
  have inField : Blind fun n => (n.children.filter (·.field == some f)).flatMap fun n => [g n] := by
    refine flatMap_filter_children (fun n n' h => ?_) (fun n n' h => ?_) fun c hr hf => ?_
    · rw [Blind.field h]
    · rw [hg h]
    · simp [hr.field] at hf
  refine inField.through List.head? fun n => ?_
  rw [← List.map_eq_flatMap, List.head?_map, List.head?_filter, Node.childByField]

theorem flatMap_namedChildren (hg : Blind gs) (hc : ∀ c, IsRemark c → gs c = []) :
    Blind fun n => n.namedChildren.flatMap gs :=
  flatMap_filter_children .named hg fun c hr _ => hc c hr

/-- What is gathered from the named children of some kinds, unless comments are among them. -/
theorem flatMap_ofKinds (hq : q "comment" = false) (hg : Blind gs) :
    Blind fun n => (n.namedChildren.filter (q ·.kind)).flatMap gs := by
  intro n n' h
  simp only [namedChildren, List.filter_filter]
  refine flatMap_filter_children (fun n n' h => ?_) hg (fun c hr hp => ?_) h
  · rw [Blind.kind h, Blind.named h]
  · simp [hr.kind, hq] at hp

theorem map_ofKinds (hq : q "comment" = false) (hg : Blind g) :
    Blind fun n => (n.namedChildren.filter (q ·.kind)).map g := by
  simp only [List.map_eq_flatMap]
  exact flatMap_ofKinds hq (hg.through (fun a => [a]) fun _ => rfl)

theorem filterMap_ofKinds {g : Node → Option α} (hq : q "comment" = false) (hg : Blind g) :
    Blind fun n => (n.namedChildren.filter (q ·.kind)).filterMap g := by
  simp only [List.filterMap_eq_flatMap_toList]
  exact flatMap_ofKinds hq (hg.through Option.toList fun _ => rfl)

end Combinators

/-! ## The readings of a visit -/

section Readings

variable {α : Type} {g : Node → α}

theorem unquoted : Blind Node.unquoted :=
  Blind.text.through stripQuotes fun _ => rfl

theorem fieldText? (f : String) : Blind (·.fieldText? f) := childByField f .text

theorem textOf? (f kind : String) : Blind (·.textOf? f kind) := by
  refine (childByField f (pair .kind .text)).through
    (·.bind fun seen => if seen.1 == kind then some seen.2 else none) fun n => ?_
  unfold Node.textOf?
  cases n.childByField f <;> rfl

theorem calleeName? : Blind Node.calleeName? := textOf? "function" "identifier"

theorem parts (hg : Blind g) : Blind fun n => n.parts.map g :=
  map_ofKinds (q := fun kind => !kind == "comment") rfl hg

theorem arguments (hg : Blind g) : Blind fun n => n.arguments.map g := by
  refine (childByField "arguments" (parts hg)).through (·.getD []) fun n => ?_
  unfold Node.arguments
  cases n.childByField "arguments" <;> rfl

theorem localName? (hg : Blind g) : Blind fun n => n.localName?.map g := by
  refine (pair (childByField "alias" hg) (childByField "name" hg)).through
    (fun seen => seen.1 <|> seen.2) fun n => ?_
  unfold Node.localName?
  cases n.childByField "alias" <;> rfl

/-- The texts of the bare names among the children. -/
theorem bareNames :
    Blind fun n => (n.namedChildren.filter (·.kind == "identifier")).map (·.text) :=
  map_ofKinds (q := (· == "identifier")) rfl .text

theorem declaredName? (parent : Option String) : Blind (Node.declaredName? parent) := by
  refine (pair .kind (pair (fieldText? "name") (pair (childByField "value" .kind)
    (textOf? "name" "identifier")))).through (fun (kind, name, value, bare) =>
      if functionDeclarations.contains kind then name
      else if kind == "variable_declarator" then
        if value.any functionExpressions.contains then bare else none
      else if functionExpressions.contains kind && parent == some "export_statement" then name
      else none) fun n => ?_
  unfold Node.declaredName?
  cases n.childByField "value" <;> rfl

theorem boundName? (parent : Option String) : Blind (Node.boundName? parent) := by
  refine (pair .kind (pair (declaredName? parent) (textOf? "name" "identifier"))).through
    (fun (kind, declared, bare) =>
      if kind == "variable_declarator" && declared.isNone then bare else none) fun n => ?_
  rfl

theorem called? : Blind Node.called? :=
  byKind (· == "call_expression") calleeName? (const none)

theorem rendered? : Blind Node.rendered? :=
  byKind tagKinds.contains ((fieldText? "name").through (·.filter Name.isComponent) fun _ => rfl)
    (const none)

theorem referred? : Blind Node.referred? :=
  (pair called? rendered?).through (fun seen => seen.1 <|> seen.2) fun _ => rfl

/-- The value of a state is told by the kind and the text of the first argument. -/
theorem initialValue : Blind fun n => Node.initialValue n.arguments.head? := by
  refine (arguments (pair .kind .text)).through (fun seen =>
    Node.initialValue (seen.head?.map fun first => { kind := first.1, text := first.2 }))
    fun n => ?_
  cases n.arguments <;> rfl

theorem stateOf? (owner : String) : Blind (·.stateOf? owner) := by
  have pattern := childByField "name" (pair .kind (parts (pair .kind .text)))
  have value := childByField "value" (pair .kind (pair calleeName? initialValue))
  refine (pair pattern value).through (fun seen => do
    let pattern ← seen.1
    guard (pattern.1 == "array_pattern")
    let value ← seen.2
    guard (value.1 == "call_expression")
    guard (value.2.1 == some "useState")
    let name ← pattern.2[0]?
    let setter ← pattern.2[1]?
    guard pattern.2[2]?.isNone
    guard (name.1 == "identifier" && setter.1 == "identifier")
    return { name := name.2, setter := setter.2, initial := value.2.2, owner }) fun n => ?_
  unfold Node.stateOf?
  cases n.childByField "name" with
  | none => rfl
  | some pattern =>
    cases n.childByField "value" with
    | none => rfl
    | some value =>
      simp only [Option.map_some, Option.bind_eq_bind, Option.bind_some]
      rcases pattern.parts with _ | ⟨name, _ | ⟨setter, _ | _⟩⟩ <;> rfl

theorem stateAt? (owner : String) : Blind (·.stateAt? owner) :=
  byKind (· == "variable_declarator") (stateOf? owner) (const none)

theorem dependencyNames : Blind Node.dependencyNames := by
  have listed := arguments (byKind (· == "array") bareNames (const []))
  refine listed.through (fun seen => (seen[1]?).getD []) fun n => ?_
  unfold Node.dependencyNames
  rcases n.arguments with _ | ⟨effect, _ | ⟨list, _⟩⟩ <;> rfl

theorem effectAt? (owner : String) : Blind (·.effectAt? owner) :=
  (pair called? dependencyNames).through (fun (called, dependencies) =>
    (called.filter effectHooks.contains).map fun name => ⟨owner, dependencies, name⟩) fun _ => rfl

theorem importClauseNames : Blind Node.importClauseNames := by
  have specifiers := filterMap_ofKinds (q := (· == "import_specifier")) rfl (localName? .text)
  refine flatMap_namedChildren ?_ fun c hr => by simp [hr.kind]
  refine byKind (· == "identifier") (Blind.text.through (fun text => [text]) fun _ => rfl) ?_
  refine byKind (· == "namespace_import") bareNames ?_
  exact byKind (· == "named_imports") specifiers (const [])

theorem requiredModule? (hg : Blind g) : Blind fun n => n.requiredModule?.map g := by
  refine (map_ofKinds (q := (· == "string")) rfl hg).through List.head? fun n => ?_
  rw [List.head?_map, List.head?_filter, Node.requiredModule?]

theorem importOf : Blind Node.importOf := by
  have required := filterMap_ofKinds (q := (· == "import_require_clause")) rfl
    (requiredModule? unquoted)
  have names : Blind fun n => n.namedChildren.flatMap fun child =>
      if child.kind == "import_clause" then child.importClauseNames
      else if child.kind == "import_require_clause" then
        (child.namedChildren.filter (·.kind == "identifier")).map (·.text)
      else [] := by
    refine flatMap_namedChildren ?_ fun c hr => by simp [hr.kind]
    refine byKind (· == "import_clause") importClauseNames ?_
    exact byKind (· == "import_require_clause") bareNames (const [])
  refine (pair (pair (childByField "source" unquoted) required) names).through
    (fun ((source, required), names) =>
      { source := (source <|> required.head?).getD "", names }) fun n => ?_
  unfold Node.importOf
  cases n.childByField "source" with
  | some source => rfl
  | none =>
    show Import.mk ((Option.map _ (List.findSome? _ _)).getD "") _ =
      Import.mk ((List.head? _).getD "") _
    rw [List.map_findSome?, List.head?_filterMap]
    rfl

theorem importsHere : Blind Node.importsHere :=
  byKind (· == "import_statement") (importOf.through (fun i => [i]) fun _ => rfl) (const [])

theorem declarationNames : Blind Node.declarationNames := by
  refine byKind ["lexical_declaration", "variable_declaration"].contains ?_ ?_
  · exact filterMap_ofKinds (q := (· == "variable_declarator")) rfl (textOf? "name" "identifier")
  · exact (fieldText? "name").through Option.toList fun _ => rfl

theorem exportedNames : Blind Node.exportedNames := by
  have declared := childByField "declaration" declarationNames
  have valued := childByField "value" (byKind (functionExpressions ++ ["class"]).contains
    ((fieldText? "name").through Option.toList fun _ => rfl) (const []))
  have specifiers := filterMap_ofKinds (q := (· == "export_specifier")) rfl (localName? unquoted)
  have listed := flatMap_ofKinds (q := (· == "export_clause")) rfl specifiers
  refine (pair declared (pair valued listed)).through (fun (declared, valued, listed) =>
    declared.getD [] ++ valued.getD [] ++ listed) fun n => ?_
  unfold Node.exportedNames
  cases n.childByField "value" <;> rfl

theorem exportsHere : Blind Node.exportsHere :=
  byKind (· == "export_statement") exportedNames (const [])

theorem isLogical : Blind Node.isLogical :=
  (pair .kind (fieldText? "operator")).through (fun (kind, operator) =>
    kind == "binary_expression" && operator.any logicalOperators.contains) fun _ => rfl

/-- The name of an attribute is its first named child, before which no comment is put. -/
theorem setsInnerMarkup : Blind Node.setsInnerMarkup := by
  intro n n' h
  by_cases hk : n.kind = "jsx_attribute"
  · unfold Node.setsInnerMarkup Node.namedChildren
    rw [Blind.kind h]
    cases h with
    | among before after hr hn first =>
      obtain ⟨m, hm, named⟩ := first hk
      obtain ⟨name, hname⟩ : ∃ name, (before.filter (·.named)).head? = some name := by
        rw [← Option.isSome_iff_exists, List.isSome_head?]
        exact List.ne_nil_of_mem (List.mem_filter.mpr ⟨hm, named⟩)
      simp only [hn, List.filter_append, List.head?_append, hname, Option.some_or]
    | @within _ child _ before after hn h =>
      simp only [hn, List.filter_append, List.head?_append, List.filter_cons, Blind.named h]
      cases (before.filter (·.named)).head? with
      | some name => rfl
      | none => cases child.named <;> simp [Blind.text h]
  · have other : (n.kind == "jsx_attribute") = false := beq_false_of_ne hk
    rw [Node.setsInnerMarkup, Node.setsInnerMarkup, Blind.kind h, other, Bool.false_and,
      Bool.false_and]

theorem issuesHere : Blind Node.issuesHere :=
  (pair called? setsInnerMarkup).through (fun (called, sets) =>
    (if called = some "eval" then [evalIssue] else []) ++ (if sets then [innerMarkupIssue] else []))
    fun _ => rfl

end Readings

end Blind

end Node

/-! ## The walk -/

namespace Tally

/-- The findings without the depth. -/
def shallow (t : Tally) : Tally :=
  { t with maxDepth := 0 }

/-- A visit has no regard to comments. -/
theorem visit_blind (t : Tally) (parent : Option String) : Node.Blind (t.visit parent) := by
  intro n n' h
  have states : n'.stateAt? t.scope.current = n.stateAt? t.scope.current :=
    Node.Blind.stateAt? _ h
  have effects : n'.effectAt? t.scope.current = n.effectAt? t.scope.current :=
    Node.Blind.effectAt? _ h
  rw [visit_eq t parent n', visit_eq t parent n, Node.Blind.declaredName? parent h,
    Node.Blind.boundName? parent h, Node.Blind.called? h, Node.Blind.importsHere h,
    Node.Blind.exportsHere h, Node.Blind.issuesHere h, Node.Blind.kind h, Node.Blind.isLogical h,
    Node.Blind.referred? h, states, effects]

/-- A comment adds nothing. -/
theorem visit_remark (t : Tally) (parent : Option String) {c : Node} (hc : c.IsRemark) :
    t.visit parent c = t := by
  simp [visit, construct, Node.declaredName?, hc.kind, functionDeclarations, functionExpressions,
    tagKinds, branchKinds, loopKinds]

theorem arrive_shallow (t : Tally) (parent : Option String) (n : Node) (depth : Nat) :
    (t.arrive parent n depth).shallow = (t.shallow.visit parent n).shallow := by
  simp only [arrive_eq, visit_eq, refer_eq]
  rfl

/-- Whether two outcomes differ at most in the depth. -/
def Alike (x y : Except ScopeFault Tally) : Prop :=
  x.map shallow = y.map shallow

theorem Alike.bind {x y : Except ScopeFault Tally} {f g : Tally → Except ScopeFault Tally}
    (h : Alike x y) (next : ∀ t t', t.shallow = t'.shallow → Alike (f t) (g t')) :
    Alike (x >>= f) (y >>= g) := by
  cases x with
  | error fault =>
    cases y with
    | error fault' => exact congrArg Except.error (Except.error.inj h)
    | ok t' => cases h
  | ok t =>
    cases y with
    | error fault' => cases h
    | ok t' => exact next t t' (Except.ok.inj h)

theorem leave_alike {t t' : Tally} (h : t.shallow = t'.shallow) (previous : String) :
    Alike (t.leave previous) (t'.leave previous) := by
  have hscope : t.scope = t'.scope := congrArg (·.scope) h
  unfold leave
  rw [hscope]
  cases t'.scope.leave previous with
  | error fault => rfl
  | ok scope => exact congrArg (fun t => Except.ok (t.inScope scope)) h

theorem foldlM_alike {f g : Tally → Node → Except ScopeFault Tally} {ns : List Node}
    (each : ∀ n ∈ ns, ∀ t t', t.shallow = t'.shallow → Alike (f t n) (g t' n)) (t t' : Tally)
    (h : t.shallow = t'.shallow) : Alike (ns.foldlM f t) (ns.foldlM g t') := by
  induction ns generalizing t t' with
  | nil => exact congrArg Except.ok h
  | cons n ns ih =>
    rw [List.foldlM_cons, List.foldlM_cons]
    exact (each n (by simp) t t' h).bind (ih fun m hm => each m (by simp [hm]))

end Tally

/-- Whether the walks below two nodes find the same apart from the depth, wherever the nodes stand
and whatever has been found before. -/
def WalkedAlike (n n' : Node) : Prop :=
  ∀ parent depth depth' t t', Tally.shallow t = Tally.shallow t' →
    Tally.Alike (descend parent depth t n) (descend parent depth' t' n')

/-- The walks below two nodes that are visited alike are alike if those below their children
are. -/
theorem walkedAlike_of_visit {n n' : Node} (kind : n'.kind = n.kind)
    (declared : ∀ parent, n'.declaredName? parent = n.declaredName? parent)
    (visit : ∀ (t : Tally) parent, t.visit parent n' = t.visit parent n)
    (below : ∀ parent depth depth' t t', Tally.shallow t = Tally.shallow t' →
      Tally.Alike (n.namedChildren.foldlM (descend parent depth) t)
        (n'.namedChildren.foldlM (descend parent depth') t')) :
    WalkedAlike n n' := by
  intro parent depth depth' t t' h
  have arrived : (t.arrive parent n depth).shallow = (t'.arrive parent n' depth').shallow := by
    rw [Tally.arrive_shallow, Tally.arrive_shallow, h, visit]
  rw [descend_eq, descend_eq, kind, declared]
  cases n.declaredName? parent with
  | none => exact below _ _ _ _ _ arrived
  | some name =>
    have previous : (t.arrive parent n depth).scope.current =
        (t'.arrive parent n' depth').scope.current := congrArg (·.scope.current) arrived
    have entered : ((t.arrive parent n depth).enter name).2.shallow =
        ((t'.arrive parent n' depth').enter name).2.shallow :=
      congrArg (fun t => (t.enter name).2) arrived
    refine (below _ _ _ _ _ entered).bind fun t₁ t₁' h₁ => ?_
    exact previous ▸ Tally.leave_alike h₁ _

theorem walkedAlike_self (n : Node) : WalkedAlike n n := by
  induction n using Node.named_induction with
  | step n ih =>
    refine walkedAlike_of_visit rfl (fun _ => rfl) (fun _ _ => rfl) fun parent depth depth' => ?_
    exact Tally.foldlM_alike fun child hc => ih child hc parent depth depth'

theorem foldlM_descend_alike (ns : List Node) (parent : Option String) (depth depth' : Nat)
    (t t' : Tally) (h : t.shallow = t'.shallow) :
    Tally.Alike (ns.foldlM (descend parent depth) t) (ns.foldlM (descend parent depth') t') :=
  Tally.foldlM_alike (fun n _ => walkedAlike_self n parent depth depth') t t' h

theorem descend_remark {c : Node} (hc : c.IsRemark) (parent : Option String) (depth : Nat)
    (t : Tally) :
    descend parent depth t c = .ok { t with maxDepth := max t.maxDepth depth } := by
  have declared : c.declaredName? parent = none := by
    simp [Node.declaredName?, hc.kind, functionDeclarations, functionExpressions]
  have childless : c.namedChildren = [] := by simp [Node.namedChildren, hc.children]
  rw [descend_eq, declared, childless, Tally.arrive_eq, Tally.visit_remark t parent hc]
  rfl

/-- **A comment is walked over**: the walks below a node with and without it find the same apart
from the depth. -/
theorem descend_addsComment {n n' : Node} (h : n.AddsComment n') : WalkedAlike n n' := by
  induction h with
  | @among n c before after hc hn first =>
    have added := Node.AddsComment.among before after hc hn first
    refine walkedAlike_of_visit rfl (fun parent => Node.Blind.declaredName? parent added)
      (fun t parent => Tally.visit_blind t parent added) fun parent depth depth' t t' ht => ?_
    simp only [Node.namedChildren, hn, List.filter_append, List.filter_cons, hc.named, if_true,
      List.foldlM_append, List.foldlM_cons]
    refine (foldlM_descend_alike _ parent depth depth' t t' ht).bind fun t₁ t₁' h₁ => ?_
    rw [descend_remark hc]
    exact foldlM_descend_alike _ parent depth depth' _ _ h₁
  | @within n child child' before after hn inner ih =>
    have added := Node.AddsComment.within before after hn inner
    refine walkedAlike_of_visit rfl (fun parent => Node.Blind.declaredName? parent added)
      (fun t parent => Tally.visit_blind t parent added) fun parent depth depth' t t' ht => ?_
    simp only [Node.namedChildren, hn, List.filter_append, List.filter_cons, List.foldlM_append,
      Node.Blind.named inner]
    refine (foldlM_descend_alike _ parent depth depth' t t' ht).bind fun t₁ t₁' h₁ => ?_
    split
    · rw [List.foldlM_cons, List.foldlM_cons]
      exact (ih parent depth depth' t₁ t₁' h₁).bind (foldlM_descend_alike _ parent depth depth')
    · exact foldlM_descend_alike _ parent depth depth' _ _ h₁

/-! ## Records -/

/-- What is found in a whole tree, apart from the depth, has no regard to comments. -/
theorem surveyed_blind : Node.Blind fun root => (root.surveyed.inScope {}).shallow := by
  intro root root' h
  have walked (root : Node) : descend none 0 {} root = .ok (root.surveyed.inScope {}) :=
    descend_eq_foldl root [] {} rfl
  have alike := descend_addsComment h none 0 0 {} {} rfl
  rw [walked, walked] at alike
  exact (Except.ok.inj alike).symm

theorem surveyed_eq_of_comments {root root' : Node}
    (h : Relation.ReflTransGen Node.AddsComment root root') :
    root'.surveyed =
      { root.surveyed with scope := root'.surveyed.scope, maxDepth := root'.height } := by
  rw [← root'.surveyed_maxDepth]
  exact congrArg (fun t : Tally =>
    { t with scope := root'.surveyed.scope, maxDepth := root'.surveyed.maxDepth })
    (surveyed_blind.many h)

/-- What a tree is refused for with recovery has no regard to comments. -/
theorem refusal_blind : Node.Blind fun n => n.isError || n.children.any (·.kind == "ERROR") := by
  intro n n' h
  dsimp only
  rw [Node.Blind.isError h]
  cases h with
  | among _ _ hr hn _ => simp [hn, hr.kind]
  | within _ _ hn h => simp [hn, Node.Blind.kind h]

theorem accept_of_comments {root root' : Node}
    (h : Relation.ReflTransGen Node.AddsComment root root')
    (accepted : Syntax.accept true root = .ok root) : Syntax.accept true root' = .ok root' := by
  rcases Syntax.accept_ok_or_error true root' with ok | refused
  · exact ok
  · have top : (root'.isError || root'.children.any (·.kind == "ERROR")) = true := by
      simpa using Syntax.accept_recovering_iff.mp refused
    rw [refusal_blind.many h] at top
    obtain ⟨failure, hf⟩ := Syntax.accept_recovering_iff.mpr (by simpa using top)
    rw [accepted] at hf
    cases hf

/-- The record of a file whose tree has another depth. -/
def Record.atDepth (r : Record) (depth : Nat) : Record :=
  { r with complexity := r.complexity.map fun c => { c with maxDepth := depth } }

/-- **Comments do not change the analysis.** A tree that is accepted is accepted with comments put
in, and then has the same record, apart from the depth of the tree and the quality, which is that of
the record with this depth. There is a record unless the complexity of the tree lies beyond all
doubles. -/
theorem analyzeWith_comments {root root' : Node}
    (added : Relation.ReflTransGen Node.AddsComment root root')
    (accepted : Syntax.accept true root = .ok root) (clock : Clock) (filename source : String) :
    Syntax.accept true root' = .ok root' ∧
    ((∃ r, analyzeWith (.ofTrees fun _ _ => root) clock filename source = .ok r) ↔
      root.cyclomatic < Double.limit) ∧
    ∀ r, analyzeWith (.ofTrees fun _ _ => root) clock filename source = .ok r →
      ∃ quality, Score.quality (r.atDepth root'.height) = .ok quality ∧
        analyzeWith (.ofTrees fun _ _ => root') clock filename source =
          .ok { r.atDepth root'.height with quality } := by
  have accepted' := accept_of_comments added accepted
  refine ⟨accepted', exists_analyzeWith_iff clock accepted, fun r h => ?_⟩
  have same := surveyed_eq_of_comments added
  have cyclomatic : root'.surveyed.cyclomatic = root.surveyed.cyclomatic := by rw [same]
  rw [analyzeWith_eq_map accepted] at h
  rw [analyzeWith_eq_map accepted', cyclomatic]
  cases hm : Score.maintainability (Text.lineCount source) root.surveyed.cyclomatic with
  | error fault =>
    rw [hm] at h
    cases h
  | ok m =>
    rw [hm] at h
    obtain rfl := Except.ok.inj h
    refine ⟨root'.surveyed.quality (Text.lineCount source), ?_, ?_⟩
    · rw [same]
      rfl
    · refine congrArg Except.ok ?_
      unfold Node.recorded
      rw [same]
      rfl

section Remarks

/-- A comment. -/
def Node.remark : Node where
  kind := "comment"
  text := "/* from zero */"

theorem Node.isRemark_remark : remark.IsRemark := ⟨rfl, rfl, rfl, rfl⟩

/-- The tree of `const [n, setN] = useState(0)`, with the given nodes after the first name and
before the argument. -/
def Node.stateWith (inPair inCall : List Node) : Node where
  kind := "program"
  children := [
    { kind := "variable_declarator"
      children := [
        { kind := "array_pattern", field := some "name"
          children := { kind := "identifier", text := "n" } :: inPair ++
            [{ kind := "identifier", text := "setN" }] },
        { callOf "useState" (inCall ++ [{ kind := "number", text := "0" }]) with
          field := some "value" }] }]

theorem Node.stateWith_pair (inCall : List Node) :
    AddsComment (stateWith [] inCall) (stateWith [remark] inCall) := by
  refine .within [] _ rfl (.within [] _ rfl ?_)
  exact .among [_] _ isRemark_remark rfl (fun h => absurd h (by decide))

theorem Node.stateWith_call (inPair : List Node) :
    AddsComment (stateWith inPair []) (stateWith inPair [remark]) := by
  refine .within [] _ rfl (.within [_] _ rfl (.within [_] _ rfl ?_))
  exact .among [] _ isRemark_remark rfl (fun h => absurd h (by decide))

theorem Node.stateWith_cyclomatic_lt : (stateWith [] []).cyclomatic < Double.limit :=
  Double.lt_limit_of_le_hundred (by decide)

theorem analyzeWith_comments_state :
    Relation.ReflTransGen Node.AddsComment (.stateWith [] []) (.stateWith [.remark] [.remark]) ∧
    Syntax.accept true (.stateWith [] []) = .ok (.stateWith [] []) ∧
    ∃ r quality, analyzeWith (.ofTrees fun _ _ => .stateWith [] []) {} "app.js" "" = .ok r ∧
      analyzeWith (.ofTrees fun _ _ => .stateWith [.remark] [.remark]) {} "app.js" "" =
        .ok { r.atDepth 4 with quality } := by
  have added : Relation.ReflTransGen Node.AddsComment (.stateWith [] [])
      (.stateWith [.remark] [.remark]) :=
    .tail (.single (Node.stateWith_pair [])) (Node.stateWith_call [.remark])
  have accepted : Syntax.accept true (.stateWith [] []) = .ok (.stateWith [] []) := rfl
  obtain ⟨-, exists_iff, same⟩ := analyzeWith_comments added accepted {} "app.js" ""
  obtain ⟨r, h⟩ := exists_iff.mpr Node.stateWith_cyclomatic_lt
  obtain ⟨quality, -, h'⟩ := same r h
  exact ⟨added, accepted, r, quality, h, h'⟩

end Remarks

end ScriptSurvey
