import ScriptSurvey.Syntax.Grammar.Member

/-!
# Expressions

An expression starts with a prefix operator or a primary expression and is then extended to the
right, as long as the next operator binds tightly enough. Calls, member accesses and assignments
bind most tightly; then come the binary operators by `binaryLevel`, and the conditional operator.

A cast (`as`, `satisfies`) or a non-null mark applies to everything on its left up to the operator
whose right operand is being read, so it waits until that operand is complete.
-/

namespace ScriptSurvey.Syntax

open Reader

/-! ## Operators -/

/-- The operators that start with a punctuation character, longer ones first. -/
def operatorSigns : List String :=
  [">>>=", "===", "!==", "**=", "<<=", ">>=", ">>>", "&&=", "||=", "??=", "=>", "==", "!=", "<=",
    ">=", "&&", "||", "??", "?.", "++", "--", "+=", "-=", "*=", "/=", "%=", "&=", "|=", "^=", "<<",
    ">>", "**", "+", "-", "*", "/", "%", "&", "|", "^", "!", "?", "=", "<", ">"]

/-- How tightly a binary operator binds. -/
def binaryLevel : String → Option Nat
  | "??" => some 1
  | "||" => some 2
  | "&&" => some 3
  | "|" => some 4
  | "^" => some 5
  | "&" => some 6
  | "==" | "!=" | "===" | "!==" => some 7
  | "<" | "<=" | ">" | ">=" | "instanceof" | "in" => some 8
  | "<<" | ">>" | ">>>" => some 9
  | "+" | "-" => some 10
  | "*" | "/" | "%" => some 11
  | "**" => some 12
  | _ => none

/-- The level of the operand of a prefix operator. -/
def prefixLevel : Nat := 13

/-- The operators that assign and compute at once. -/
def augmentedSigns : List String :=
  [">>>=", "**=", "<<=", ">>=", "&&=", "||=", "??=", "+=", "-=", "*=", "/=", "%=", "&=", "|=", "^="]

/-- The kinds of expressions that can be assigned to. -/
def assignableKinds : List String :=
  ["identifier", "undefined", "member_expression", "subscript_expression",
    "parenthesized_expression", "non_null_expression"]

/-- The operator that comes next, a sign or a word. The dot of a fraction does not belong to the
question mark before it. -/
def nextOperator : Reader String :=
  lookahead do
    let i ← here
    let cs := (← read).chars
    match operatorSigns.find? (fun s => startsWith cs i s.toList) with
    | some "?." => pure (if cs[i + 2]?.any Char.isDigit then "?" else "?.")
    | some s => pure s
    | none => anyName

/-! ## Primary expressions -/

/-- An expression between parentheses, or the arrow function that starts like one. In the middle
of a conditional expression, a colon after the parentheses starts a result type only if another
colon follows. -/
def parenthesisOrArrow (r : Rules) : Reader Unit := do
  let i ← here
  let plain : Reader Unit := do
    node "parenthesized_expression" (parenthesized r.expressions)
    let arrow (p : Reader Unit) : Reader Unit := do
      revise Node.toParameters
      wrap "arrow_function" i "parameters" (do p; arrowBody r)
    let next ← upcoming
    if next == some '=' then
      discard (attempt (arrow (pure ())))
    else if next == some ':' then
      let middle := (← read).middle
      discard (attempt (do
        arrow (field "return_type" (resultAscription r))
        if middle then ensure (← ahead (token ":"))))
  plain <|> arrowFunction r

/-- What starts with a left angle bracket: a generic arrow function, and a markup element or a type
assertion. -/
def angled (r : Rules) : Reader Unit := do
  let arrow : Reader Unit := node "arrow_function" do
    field "type_parameters" (typeParameters r)
    field "parameters" (parameters r)
    discard (attempt (field "return_type" (resultAscription r)))
    arrowBody r
  let assertion : Reader Unit := node "type_assertion" do
    typeArguments r <|> node "type_arguments" (do token "<"; word "const"; token ">")
    r (.operand prefixLevel false)
  arrow <|> (if (← read).markup then r .element else assertion)

/-- A name, or the arrow function that starts with it. -/
def nameOrArrow (r : Rules) : Reader Unit := do
  let i ← here
  identifier
  discard (attempt (wrap "arrow_function" i "parameter" (arrowBody r)))

/-- An expression that starts with the word `async`. -/
def asynchronous (r : Rules) : Reader Unit :=
  choice [
    functionExpression r,
    do
      notAhead (do word "async"; token "=>")
      arrowFunction r,
    nameOrArrow r]

/-- An object is made. -/
def construction (r : Rules) : Reader Unit :=
  let access (i : Nat) : Reader Unit := choice [
    wrap "member_expression" i "object" (do tokenBut "." ['.']; field "property" memberName),
    wrap "subscript_expression" i "object" (bracketed (field "index" r.expressions)),
    wrap "call_expression" i "function" (field "arguments" (template r))]
  let constructor (primary : Reader Unit) : Reader Unit := do
    let i ← here
    primary
    many (access i)
  let target : Reader Unit := node "meta_property" (do word "new"; token "."; word "target")
  target <|> node "new_expression" do
    word "new"
    field "constructor" (constructor (choice [
      node "parenthesized_expression" (parenthesized r.expressions),
      node "this" (word "this"),
      node "import" (do word "import"; ensure (← ahead (token "("))),
      classExpression r,
      functionExpression r,
      do ensure (← ahead (word "new")); r (.operand 14 false),
      identifier]))
    discard (attempt (do
      field "type_arguments" (typeArguments r)
      ensure ((← upcoming) == some '(')))
    discard (attempt (field "arguments" r.arguments))

/-- A result is handed out of a generator. -/
def yielding (r : Rules) : Reader Unit :=
  node "yield_expression" do
    word "yield"
    if ← attempt (tokenBut "*" ['*', '=']) then
      r.expression
    else if (← read).breaks && lineEndCloses (← read).chars (← position) then
      pure ()
    else
      discard (attempt r.expression)

/-- A prefix operator written as a word, and its operand. -/
def wordOperator (r : Rules) : Reader Unit :=
  node "unary_expression" do
    marked "operator" (oneOf ["typeof", "void", "delete"])
    field "argument" (r (.operand prefixLevel false))

/-- What starts with the word `import`. -/
def importing : Reader Unit :=
  node "meta_property" (do word "import"; token "."; word "meta") <|>
    node "import" (do word "import"; ensure (← ahead (token "(" <|> token ".")))

/-- A namespace as an expression. -/
def namespaceName : Reader Unit := do
  let i ← here
  let path : Reader Unit := do
    identifier
    let extend : Reader Unit := do
      revise fun n =>
        if n.kind == "nested_identifier" then { n with kind := "member_expression" } else n
      wrap "nested_identifier" i "object" (do token "."; field "property" memberName)
    many extend
  string <|> path

/-- A primary expression, or a prefix operator and its operand. -/
def start (r : Rules) : Reader Unit := do
  gap
  match ← peek with
  | some '(' => parenthesisOrArrow r
  | some '[' => array r
  | some '{' => object r
  | some '"' | some '\x27' => string
  | some '\x60' => template r
  | some '/' => regex
  | some '<' => angled r
  | some '@' => classExpression r
  | some '!' | some '~' =>
    node "unary_expression" do
      marked "operator" (literally "!" <|> literally "~")
      field "argument" (r (.operand prefixLevel false))
  | some '+' | some '-' =>
    let update : Reader Unit := node "update_expression" do
      marked "operator" (literally "++" <|> literally "--")
      field "argument" (r (.operand prefixLevel false))
    update <|> node "unary_expression" do
      marked "operator" (literally "+" <|> literally "-")
      field "argument" (r (.operand prefixLevel false))
  | some '.' => number
  | some '#' => privateName
  | _ =>
    if (← peek).any Char.isDigit then number
    else match ← lookahead anyName with
      | "function" => functionExpression r
      | "async" => asynchronous r
      | "class" => classExpression r
      | "new" => construction r
      | "await" =>
        node "await_expression" (do word "await"; r (.operand prefixLevel true)) <|> nameOrArrow r
      | "yield" => yielding r
      | "typeof" | "void" | "delete" => wordOperator r
      | "import" => importing
      | "this" => node "this" (word "this")
      | "super" => node "super" (word "super")
      | "null" => node "null" (word "null")
      | "true" => node "true" (word "true")
      | "false" => node "false" (word "false")
      | _ => nameOrArrow r

/-! ## Extending to the right -/

/-- A member access, call or index after a question mark and a dot. -/
def optionalAccess (r : Rules) (i : Nat) : Reader Unit :=
  let mark : Reader Unit := field "optional_chain" (node "optional_chain" (literally "?."))
  choice [
    wrap "call_expression" i "function" (do
      token "?."
      discard (attempt (field "type_arguments" (typeArguments r)))
      field "arguments" r.arguments),
    wrap "subscript_expression" i "object" (do mark; bracketed (field "index" r.expressions)),
    wrap "member_expression" i "object" (do mark; field "property" memberName)]

/-- A call with type arguments. -/
def genericCall (r : Rules) (i : Nat) : Reader Unit :=
  wrap "call_expression" i "function" do
    field "type_arguments" (typeArguments r)
    field "arguments" r.arguments

/-- Type arguments that stand alone: nothing after them can be the operand of a comparison. -/
def instantiation (r : Rules) (i : Nat) : Reader Unit :=
  wrap "instantiation_expression" i none do
    field "type_arguments" (typeArguments r)
    match ← upcoming with
    | none => pure ()
    | some c => ensure ([')', ']', ',', ';', ':', '}', '.', '?', '=', '&', '|'].contains c)

/-- A binary operation with the operator `op` of the level `level`. -/
def binary (r : Rules) (i : Nat) (op : String) (level : Nat) : Reader Unit :=
  wrap "binary_expression" i "left" do
    marked "operator" (literally op)
    field "right" (if op == "**" then r (.operand level true) else r (.operand (level + 1) false))

/-- A conditional expression. The question mark of an optional parameter does not start one. -/
def conditional (r : Rules) (i : Nat) : Reader Unit :=
  wrap "ternary_expression" i "condition" do
    token "?"
    match ← upcoming with
    | some c => ensure !([':', ')', ','].contains c)
    | none => failure
    field "consequence" (withReader (fun s => { s with middle := true }) r.expression)
    token ":"
    field "alternative" r.expression

/-- A cast by one of the words `as` and `satisfies`. -/
def cast (r : Rules) (i : Nat) (w : String) : Reader Unit := do
  if (← read).breaks then sameLine
  wrap (if w == "as" then "as_expression" else "satisfies_expression") i none do
    word w
    (do ensure (w == "as"); word "const") <|> r .type

/-- An assignment to the expression read last. -/
def assignment (r : Rules) (i : Nat) : Reader Unit := do
  let left ← latest
  ensure (assignableKinds.contains left.kind || left.kind == "array" || left.kind == "object")
  revise Node.toPattern
  wrap "assignment_expression" i "left" (do token "="; field "right" r.expression)

/-- An assignment that computes with the old value. -/
def augmentedAssignment (r : Rules) (i : Nat) (op : String) : Reader Unit := do
  ensure (assignableKinds.contains (← latest).kind)
  wrap "augmented_assignment_expression" i "left" do
    marked "operator" (literally op)
    field "right" r.expression

/-- Extends the expression read last, which starts at `i`, by one operator. -/
def extension (r : Rules) (level : Nat) (castable : Bool) (i : Nat) : Reader Unit := do
  match ← upcoming with
  | none => failure
  | some '.' =>
    wrap "member_expression" i "object" (do tokenBut "." ['.']; field "property" memberName)
  | some '(' => wrap "call_expression" i "function" (field "arguments" r.arguments)
  | some '[' => wrap "subscript_expression" i "object" (bracketed (field "index" r.expressions))
  | some '\x60' => wrap "call_expression" i "function" (field "arguments" (template r))
  | some _ =>
    let op ← nextOperator
    if op == "?." then
      optionalAccess r i
    else if op == "++" || op == "--" then
      sameLine
      wrap "update_expression" i "argument" (marked "operator" (literally op))
    else if op == "!" then
      ensure castable
      if (← read).breaks then sameLine
      wrap "non_null_expression" i none (token "!")
    else if op == "as" || op == "satisfies" then
      ensure castable
      cast r i op
    else if op == "?" then
      ensure (level ≤ 1)
      conditional r i
    else if op == "=" then
      assignment r i
    else if augmentedSigns.contains op then
      augmentedAssignment r i op
    else
      match binaryLevel op with
      | none => failure
      | some k =>
        let compare : Reader Unit := do
          ensure (level ≤ k)
          binary r i op k
        if op == "<" then
          choice [genericCall r i, do ensure (level ≤ 13); instantiation r i, compare]
        else
          compare

/-- An expression whose infix operators bind at least as tightly as `level`. -/
def operand (r : Rules) (level : Nat) (castable : Bool) : Reader Unit := do
  let i ← here
  start r
  many (extension r level castable i)

end ScriptSurvey.Syntax
