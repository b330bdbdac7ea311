import ScriptSurvey.Ledger
import ScriptSurvey.Survey.Record
import ScriptSurvey.Survey.Role
import ScriptSurvey.Survey.Scope
import ScriptSurvey.Syntax.Node

/-!
# What a node contributes

A tally gathers the findings of one file while its tree is walked. `Tally.visit` adds what one node
contributes, whatever its children; `declaredName?` tells the nodes that declare a function, whose
body then is the scope of what stands in it.
-/

namespace ScriptSurvey

/-! ## Kinds of nodes -/

/-- Declarations of functions. -/
def functionDeclarations : List String :=
  ["function_declaration", "generator_function_declaration"]

/-- Expressions whose value is a function. -/
def functionExpressions : List String :=
  ["arrow_function", "function_expression", "function", "generator_function"]

/-- Constructs at which control may go one of several ways. -/
def branchKinds : List String :=
  ["if_statement", "ternary_expression", "switch_case", "switch_default", "catch_clause"]

/-- Loops. -/
def loopKinds : List String :=
  ["for_statement", "for_in_statement", "while_statement", "do_statement"]

/-- Uses of a tag in markup. -/
def tagKinds : List String :=
  ["jsx_opening_element", "jsx_self_closing_element"]

/-- Operators that may skip their right operand. -/
def logicalOperators : List String :=
  ["&&", "||"]

/-- Names that every environment provides; a use of one is no dependency. -/
def builtinNames : List String :=
  ["alert", "console", "setTimeout", "setInterval", "clearTimeout", "clearInterval", "parseInt",
   "parseFloat", "isNaN", "isFinite", "encodeURI", "decodeURI", "encodeURIComponent",
   "decodeURIComponent", "JSON", "Math", "Date", "Array", "Object", "String", "Number", "Boolean",
   "Symbol", "Map", "Set", "WeakMap", "WeakSet", "Promise", "fetch", "require"]

/-- The hooks that run a function when one of the values it depends on changes. -/
def effectHooks : List String :=
  ["useEffect", "useCallback", "useMemo"]

/-! ## Texts of nodes -/

/-- The marks that may surround a literal. -/
def isQuoteMark (c : Char) : Bool :=
  c == '\x27' || c == '"' || c == '\x60'

/-- A text without the quote marks at its two ends. -/
def stripQuotes (text : String) : String :=
  String.ofList ((text.toList.dropWhile isQuoteMark).reverse.dropWhile isQuoteMark).reverse

namespace Node

/-- The text of a literal without the quote marks at its two ends. -/
def unquoted (n : Node) : String :=
  stripQuotes n.text

/-- The arguments of a call. -/
def arguments (call : Node) : List Node :=
  match call.childByField "arguments" with
  | none => []
  | some list => list.parts

/-- The text of the child in a field, if that child is of the given kind. -/
def textOf? (n : Node) (field kind : String) : Option String :=
  match n.childByField field with
  | some child => if child.kind == kind then some child.text else none
  | none => none

/-- The text of the child in a field, of whatever kind. -/
def fieldText? (n : Node) (field : String) : Option String :=
  (n.childByField field).map (·.text)

/-- The name that a call refers to, if its callee is a bare name. -/
def calleeName? (call : Node) : Option String :=
  call.textOf? "function" "identifier"

/-- The name by which an import or export specifier is known on this side. -/
def localName? (spec : Node) : Option Node :=
  spec.childByField "alias" <|> spec.childByField "name"

/-- A short text for the first value of a piece of state. -/
def initialValue : Option Node → String
  | none => "undefined"
  | some n =>
    if n.kind == "string" then "\"" ++ n.unquoted ++ "\""
    else if n.kind == "number" then n.text
    else if ["true", "false", "null"].contains n.kind then n.kind
    else if n.kind == "array" then "[]"
    else if n.kind == "object" then "\x7b\x7d"
    else if functionExpressions.contains n.kind then "() => ..."
    else "undefined"

/-- The name of the function that a node declares, given the kind of the node around it: a function
declaration, a variable that holds a function, or a function exported where it stands. -/
def declaredName? (parent : Option String) (n : Node) : Option String :=
  if functionDeclarations.contains n.kind then n.fieldText? "name"
  else if n.kind == "variable_declarator" then
    match n.childByField "value" with
    | some value =>
      if functionExpressions.contains value.kind then n.textOf? "name" "identifier" else none
    | none => none
  else if functionExpressions.contains n.kind && parent == some "export_statement" then
    n.fieldText? "name"
  else none

/-- The names bound by the clause of an import. -/
def importClauseNames (clause : Node) : List String :=
  clause.namedChildren.flatMap fun child =>
    if child.kind == "identifier" then [child.text]
    else if child.kind == "namespace_import" then
      (child.namedChildren.filter (·.kind == "identifier")).map (·.text)
    else if child.kind == "named_imports" then
      (child.namedChildren.filter (·.kind == "import_specifier")).filterMap
        fun spec => spec.localName?.map (·.text)
    else []

/-- The string in the clause of an import that calls `require`. -/
def requiredModule? (clause : Node) : Option Node :=
  clause.namedChildren.find? (·.kind == "string")

/-- The import that a statement makes. -/
def importOf (n : Node) : Import :=
  let required := n.namedChildren.filter (·.kind == "import_require_clause")
  let source := n.childByField "source" <|> required.findSome? requiredModule?
  let names := n.namedChildren.flatMap fun child =>
    if child.kind == "import_clause" then child.importClauseNames
    else if child.kind == "import_require_clause" then
      (child.namedChildren.filter (·.kind == "identifier")).map (·.text)
    else []
  { source := (source.map unquoted).getD "", names }

/-- The names that an exported declaration declares. -/
def declarationNames (declaration : Node) : List String :=
  if ["lexical_declaration", "variable_declaration"].contains declaration.kind then
    (declaration.namedChildren.filter (·.kind == "variable_declarator")).filterMap
      (·.textOf? "name" "identifier")
  else (declaration.fieldText? "name").toList

/-- The names that a statement exports: those of its declaration, of the function or class that is
its value, and of its export clauses. -/
def exportedNames (n : Node) : List String :=
  let declared := ((n.childByField "declaration").map declarationNames).getD []
  let valued :=
    match n.childByField "value" with
    | some value =>
      if (functionExpressions ++ ["class"]).contains value.kind then
        (value.fieldText? "name").toList
      else []
    | none => []
  let listed := (n.namedChildren.filter (·.kind == "export_clause")).flatMap fun clause =>
    (clause.namedChildren.filter (·.kind == "export_specifier")).filterMap
      fun spec => spec.localName?.map unquoted
  declared ++ valued ++ listed

/-- The names that an effect depends on: the bare names in the list that is its second argument. -/
def dependencyNames (call : Node) : List String :=
  match call.arguments with
  | _ :: list :: _ =>
    if list.kind == "array" then
      (list.namedChildren.filter (·.kind == "identifier")).map (·.text)
    else []
  | _ => []

/-- The state that a declarator introduces: a pair of names bound to a call of `useState`. -/
def stateOf? (declarator : Node) (owner : String) : Option StateUnit := do
  let pattern ← declarator.childByField "name"
  guard (pattern.kind == "array_pattern")
  let value ← declarator.childByField "value"
  guard (value.kind == "call_expression")
  guard (value.calleeName? == some "useState")
  match pattern.parts with
  | [name, setter] =>
    guard (name.kind == "identifier" && setter.kind == "identifier")
    return { name := name.text, setter := setter.text,
             initial := initialValue value.arguments.head?, owner }
  | _ => none

end Node

/-! ## The tally -/

/-- The findings of a walk so far. -/
structure Tally where
  scope : Scope := {}
  functions : List String := []
  bindings : List String := []
  handlers : List String := []
  components : List String := []
  hooks : List String := []
  imports : List Import := []
  exports : List String := []
  issues : List Issue := []
  maxDepth : Nat := 0
  branches : Nat := 0
  loops : Nat := 0
  cyclomatic : Nat := 1
  coupling : Nat := 0
  weightedMethods : Nat := 0
  /-- The role of each declared function. -/
  roles : Ledger String Role := []
  roots : List String := []
  states : List StateUnit := []
  transitions : List Transition := []
  effects : List Effect := []
  /-- The state that each setter sets. -/
  setters : Ledger String String := []
  /-- How often one function refers to another. -/
  references : Ledger (String × String) Int := []
deriving DecidableEq

/-- The issue of a call that runs text as code. -/
def evalIssue : Issue :=
  ⟨"security", "eval() usage detected - code injection risk", "high"⟩

/-- The issue of an attribute that sets markup from text. -/
def innerMarkupIssue : Issue :=
  ⟨"security", "dangerouslySetInnerHTML usage detected - XSS risk", "high"⟩

namespace Tally

/-- Add the declaration of a function. -/
def declare (t : Tally) (name : String) : Tally :=
  let role := Role.ofName name
  let t := { t with
    functions := t.functions ++ [name]
    weightedMethods := t.weightedMethods + 1
    roles := t.roles.put name role }
  match role with
  | .component => { t with components := t.components ++ [name], roots := t.roots ++ [name] }
  | .handler => { t with handlers := t.handlers ++ [name] }
  | .helper => t

/-- Add a variable, or a piece of state, that holds no function. -/
def bind (t : Tally) (declarator : Node) : Tally :=
  match declarator.textOf? "name" "identifier" with
  | some name => { t with bindings := t.bindings ++ [name] }
  | none =>
    match declarator.stateOf? t.scope.current with
    | some unit => { t with
        states := t.states ++ [unit]
        setters := t.setters.put unit.setter unit.name }
    | none => t

/-- Whether a use of `target` in the present scope makes a dependency. -/
def countsReference (t : Tally) (target : String) : Bool :=
  !t.scope.atFileScope && target != t.scope.current && !builtinNames.contains target &&
    !Name.isHook target && !Name.isSetter target && (t.setters.get? target).isNone

/-- Count a use of `target` in the present scope. -/
def refer (t : Tally) (target : String) : Tally :=
  if t.countsReference target then
    { t with references := t.references.increase (t.scope.current, target) 1 }
  else t

/-- Add the use of a hook. -/
def useHook (t : Tally) (call : Node) (name : String) : Tally :=
  let t := { t with hooks := t.hooks ++ [name] }
  if effectHooks.contains name then
    { t with effects := t.effects ++ [⟨t.scope.current, call.dependencyNames, name⟩] }
  else t

/-- Add the call of a setter. -/
def transit (t : Tally) (name : String) : Tally :=
  match t.setters.get? name with
  | some state => { t with transitions := t.transitions ++ [⟨state, name, t.scope.current⟩] }
  | none => t

/-- Add a call. -/
def call (t : Tally) (node : Node) : Tally :=
  match node.calleeName? with
  | none => t
  | some name =>
    let t := if Name.isHook name then t.useHook node name else t
    let t := (t.transit name).refer name
    if name == "eval" then { t with issues := t.issues ++ [evalIssue] } else t

/-- Add the use of a tag; the tags of components are references. -/
def tag (t : Tally) (node : Node) : Tally :=
  match node.fieldText? "name" with
  | some name => if Name.isComponent name then t.refer name else t
  | none => t

/-- Add a node by its kind. -/
def construct (t : Tally) (n : Node) : Tally :=
  if n.kind == "call_expression" then t.call n
  else if tagKinds.contains n.kind then t.tag n
  else if n.kind == "import_statement" then
    { t with imports := t.imports ++ [n.importOf], coupling := t.coupling + 1 }
  else if n.kind == "export_statement" then { t with exports := t.exports ++ n.exportedNames }
  else if branchKinds.contains n.kind then
    { t with branches := t.branches + 1, cyclomatic := t.cyclomatic + 1 }
  else if loopKinds.contains n.kind then
    { t with loops := t.loops + 1, cyclomatic := t.cyclomatic + 1 }
  else if n.kind == "binary_expression" then
    if (n.fieldText? "operator").any logicalOperators.contains then
      { t with cyclomatic := t.cyclomatic + 1 }
    else t
  else if n.kind == "jsx_attribute" then
    if n.namedChildren.head?.any (·.text == "dangerouslySetInnerHTML") then
      { t with issues := t.issues ++ [innerMarkupIssue] }
    else t
  else t

/-- Add what one node contributes, given the kind of the node around it. -/
def visit (t : Tally) (parent : Option String) (n : Node) : Tally :=
  let t :=
    match n.declaredName? parent with
    | some name => t.declare name
    | none => if n.kind == "variable_declarator" then t.bind n else t
  t.construct n

end Tally

end ScriptSurvey
