import ScriptSurvey.Syntax.Grammar.Expression

/-!
# Statements and declarations

Each statement is told by its first word or character. What no rule claims is a labelled statement
or an expression. A declaration of variables whose initial value cannot be read keeps its names,
and what is skipped up to the semicolon becomes an error node inside it.
-/

namespace ScriptSurvey.Syntax

open Reader

/-- An expression between parentheses, as a condition. -/
def condition (r : Rules) : Reader Unit :=
  node "parenthesized_expression" (parenthesized r.expressions)

/-! ## Error nodes -/

/-- Passes one token, and gathers it if it is a name, a number or a string. -/
def skippedToken : Reader Unit :=
  choice [identifier, number, string, do
    gap
    ensure (← peek).isSome
    moveTo ((← position) + 1)]

/-- Passes tokens up to one that `stop` reads, and makes an error node of them. -/
def skipped (stop : Reader Unit) : Reader Unit :=
  node "ERROR" (do skippedToken; many (do notAhead stop; skippedToken))

/-! ## Variables -/

/-- A variable with its type and initial value. -/
def declarator (r : Rules) : Reader Unit :=
  node "variable_declarator" do
    field "name" (choice [objectBinding r, arrayBinding r, identifier])
    discard (attempt (tokenBut "!" ['=']))
    discard (attempt (field "type" (typeAscription r)))
    discard (attempt r.initializer)

/-- Variables after one of the words that declare them. -/
def declarators (kind : String) (ws : List String) (r : Rules) : Reader Unit :=
  node kind do
    oneOf ws
    sepBy1 (declarator r)
    semicolon <|> do
      skipped (token ";" <|> token "\x7d")
      semicolon

/-- Variables that live in their block. -/
def lexical (r : Rules) : Reader Unit :=
  declarators "lexical_declaration" ["let", "const"] r

/-- Variables that live in their function. -/
def variable_ (r : Rules) : Reader Unit :=
  declarators "variable_declaration" ["var"] r

/-! ## Control flow -/

/-- Two ways on. -/
def ifStatement (r : Rules) : Reader Unit :=
  node "if_statement" do
    word "if"
    field "condition" (condition r)
    field "consequence" (r .statement)
    discard (attempt (field "alternative" (node "else_clause" (do word "else"; r .statement))))

/-- The header of a loop over the members or elements of a value. -/
def forHeader (r : Rules) : Reader Unit := do
  let left : Reader Unit := choice [
    do
      oneOf ["let", "const", "var"]
      field "left" (choice [objectBinding r, arrayBinding r, identifier])
      discard (attempt r.initializer),
    do
      field "left" (r (.operand prefixLevel false))
      revise Node.toPattern]
  parenthesized do
    left
    oneOf ["in", "of"]
    field "right" r.expressions

/-- A loop. -/
def forStatement (r : Rules) : Reader Unit :=
  let iteration : Reader Unit := node "for_in_statement" do
    word "for"
    discard (attempt (word "await"))
    forHeader r
    field "body" (r .statement)
  let empty : Reader Unit := node "empty_statement" (token ";")
  let counted : Reader Unit := node "for_statement" do
    word "for"
    parenthesized do
      field "initializer" (lexical r <|> variable_ r <|> empty) <|> do
        field "initializer" r.expressions
        token ";"
      field "condition" empty <|> do
        field "condition" r.expressions
        token ";"
      discard (attempt (field "increment" r.expressions))
    field "body" (r .statement)
  iteration <|> counted

/-- A loop with its condition in front. -/
def whileStatement (r : Rules) : Reader Unit :=
  node "while_statement" do
    word "while"
    field "condition" (condition r)
    field "body" (r .statement)

/-- A loop with its condition behind. -/
def doStatement (r : Rules) : Reader Unit :=
  node "do_statement" do
    word "do"
    field "body" (r .statement)
    word "while"
    field "condition" (condition r)
    discard (attempt semicolon)

/-- A choice by value. -/
def switchStatement (r : Rules) : Reader Unit :=
  let body : Reader Unit := field "body" (many do
    notAhead (word "case" <|> do word "default"; token ":")
    r .statement)
  let case : Reader Unit := node "switch_case" do
    word "case"
    field "value" r.expressions
    token ":"
    opened body
  let default : Reader Unit := node "switch_default" do
    word "default"
    token ":"
    opened body
  node "switch_statement" do
    word "switch"
    field "value" (condition r)
    field "body" (node "switch_body" (braced (many (case <|> default))))

/-- A block whose failures are handled. -/
def tryStatement (r : Rules) : Reader Unit :=
  let handler : Reader Unit := node "catch_clause" do
    word "catch"
    discard (attempt (parenthesized do
      field "parameter" (choice [objectBinding r, arrayBinding r, identifier])
      discard (attempt (field "type" (typeAscription r)))))
    field "body" (block r)
  node "try_statement" do
    word "try"
    field "body" (block r)
    discard (attempt (field "handler" handler))
    discard (attempt (field "finalizer" (node "finally_clause" do
      word "finally"
      field "body" (block r))))

/-- A jump by one of the words `break` and `continue`. -/
def jump (kind w : String) : Reader Unit :=
  node kind do
    word w
    impliedEnd <|> do
      discard (attempt (field "label" (do identifier; revise fun n =>
        { n with kind := "statement_identifier" })))
      semicolon

/-- Values after a word that ends the flow of control. -/
def leaving (kind w : String) (r : Rules) : Reader Unit :=
  node kind do
    word w
    impliedEnd <|> token ";" <|> do
      r.expressions
      semicolon

/-- A statement with a label. -/
def labelled (r : Rules) : Reader Unit :=
  node "labeled_statement" do
    field "label" (do identifier; revise fun n => { n with kind := "statement_identifier" })
    token ":"
    field "body" (r .statement)

/-- An expression as a statement. -/
def expressionStatement (r : Rules) : Reader Unit :=
  node "expression_statement" (do r.expressions; semicolon)

/-! ## Declarations -/

/-- The declaration of a function, or only of its signature. -/
def functionDeclaration (r : Rules) : Reader Unit :=
  let whole : Reader Unit :=
    functionLiteral "function_declaration" "generator_function_declaration"
      (field "name" identifier) r
  let bare : Reader Unit := node "function_signature" do
    discard (attempt (do word "async"; sameLine))
    word "function"
    discard (attempt (token "*"))
    field "name" identifier
    signature r
    semicolon
  whole <|> bare

/-- An interface. -/
def interfaceDeclaration (r : Rules) : Reader Unit :=
  node "interface_declaration" do
    word "interface"
    sameLine
    field "name" typeName
    discard (attempt (field "type_parameters" (typeParameters r)))
    discard (attempt (node "extends_type_clause" do
      word "extends"
      sepBy1 (field "type" (nominalType r))))
    field "body" (objectType "interface_body" r)

/-- An enumeration. -/
def enumDeclaration (r : Rules) : Reader Unit :=
  let case : Reader Unit := do
    let i ← here
    field "name" (propertyName r)
    if ← ahead (tokenBut "=" ['=', '>']) then
      wrap "enum_assignment" i "name" r.initializer
  node "enum_declaration" do
    discard (attempt (word "const"))
    word "enum"
    field "name" identifier
    field "body" (node "enum_body" (braced (enclosed (listed case))))

/-- A name for a type. -/
def typeAlias (r : Rules) : Reader Unit :=
  node "type_alias_declaration" do
    word "type"
    sameLine
    field "name" typeName
    discard (attempt (field "type_parameters" (typeParameters r)))
    tokenBut "=" ['=', '>']
    field "value" (r .type)
    semicolon

/-- A namespace or a module. -/
def namespaceParts (r : Rules) : Reader Unit := do
  sameLine
  field "name" namespaceName
  discard (attempt (field "body" (block r)))

/-- A namespace, after the word `namespace`. -/
def internalModule (r : Rules) : Reader Unit :=
  node "internal_module" (do word "namespace"; namespaceParts r)

/-- A module, after the word `module`. -/
def moduleDeclaration (r : Rules) : Reader Unit :=
  node "module" (do word "module"; namespaceParts r)

/-- A short name for a member of a namespace. -/
def importAlias : Reader Unit :=
  node "import_alias" do
    word "import"
    identifier
    tokenBut "=" ['=', '>']
    namespaceName
    semicolon

/-- A declaration, in the places that ask for one. -/
def declaration (r : Rules) : Reader Unit :=
  choice [
    enumDeclaration r,
    lexical r,
    variable_ r,
    functionDeclaration r,
    classDeclaration r,
    abstractClass r,
    interfaceDeclaration r,
    typeAlias r,
    internalModule r,
    moduleDeclaration r,
    importAlias]

/-- A declaration of something that exists elsewhere. -/
def ambientDeclaration (r : Rules) : Reader Unit :=
  node "ambient_declaration" do
    word "declare"
    sameLine
    choice [
      do word "global"; block r,
      declaration r]

/-! ## Imports and exports -/

/-- A string that names a module. -/
def fromClause : Reader Unit := do
  word "from"
  field "source" string

/-- The name of an import or export in its own module. -/
def exportedName : Reader Unit :=
  string <|> named "identifier"

/-- A name on its own or with another name after `as`; the marks of types may stand before it. -/
def specifier (kind : String) : Reader Unit :=
  let renamed : Reader Unit := do
    field "name" exportedName
    word "as"
    field "alias" exportedName
  let single : Reader Unit := do
    renamed <|> field "name" exportedName
    ensure (← ahead (token "," <|> token "\x7d"))
  node kind (single <|> do
    oneOf ["type", "typeof"]
    single)

/-- What is imported. -/
def importClause : Reader Unit :=
  let everything : Reader Unit :=
    node "namespace_import" (do token "*"; word "as"; identifier)
  let chosen : Reader Unit :=
    node "named_imports" (braced (listed (specifier "import_specifier")))
  node "import_clause" (choice [everything, chosen, do
    identifier
    discard (attempt (do token ","; everything <|> chosen))])

/-- An import. -/
def importStatement (r : Rules) : Reader Unit :=
  let required : Reader Unit := node "import_require_clause" do
    identifier
    token "="
    word "require"
    parenthesized (field "source" string)
  let what : Reader Unit :=
    choice [do importClause; fromClause, required, field "source" string]
  node "import_statement" do
    word "import"
    what <|> do
      oneOf ["type", "typeof"]
      what
    discard (attempt (node "import_attribute" (do oneOf ["with", "assert"]; object r)))
    semicolon

/-- What is exported from lists of names. -/
def exportNames : Reader Unit :=
  let clause : Reader Unit :=
    node "export_clause" (braced (listed (specifier "export_specifier")))
  choice [
    do
      node "namespace_export" (do token "*"; word "as"; exportedName)
      fromClause,
    do token "*"; fromClause,
    do
      discard (attempt (do word "type"; ensure ((← upcoming) == some '{')))
      clause
      discard (attempt fromClause)]

/-- An export. -/
def exportStatement (r : Rules) : Reader Unit :=
  let defaulted : Reader Unit := do
    word "default"
    field "declaration" (choice [
      functionDeclaration r, classDeclaration r, abstractClass r, interfaceDeclaration r]) <|> do
        field "value" r.expression
        semicolon
  node "export_statement" do
    decorators r
    word "export"
    choice [
      do exportNames; semicolon,
      defaulted,
      do tokenBut "=" ['=', '>']; r.expression; semicolon,
      do word "as"; word "namespace"; identifier; semicolon,
      field "declaration" (ambientDeclaration r <|> declaration r)]

/-! ## Statements -/

/-- A statement or a declaration. -/
def statement (r : Rules) : Reader Unit := do
  gap
  let plain : Reader Unit := labelled r <|> expressionStatement r
  match ← peek with
  | some '{' => block r
  | some ';' => node "empty_statement" (token ";")
  | some '@' => choice [exportStatement r, classDeclaration r, abstractClass r, plain]
  | _ =>
    match ← lookahead (anyName <|> pure "") with
    | "let" => lexical r <|> plain
    | "const" => enumDeclaration r <|> lexical r
    | "var" => variable_ r
    | "function" => functionDeclaration r
    | "async" => functionDeclaration r <|> plain
    | "class" => classDeclaration r
    | "if" => ifStatement r
    | "for" => forStatement r
    | "while" => whileStatement r
    | "do" => doStatement r
    | "switch" => switchStatement r
    | "try" => tryStatement r
    | "with" => node "with_statement" do
        word "with"
        field "object" (condition r)
        field "body" (r .statement)
    | "break" => jump "break_statement" "break"
    | "continue" => jump "continue_statement" "continue"
    | "return" => leaving "return_statement" "return" r
    | "throw" => leaving "throw_statement" "throw" r
    | "debugger" => node "debugger_statement" (do word "debugger"; semicolon)
    | "import" => choice [importStatement r, importAlias, plain]
    | "export" => exportStatement r
    | "type" => typeAlias r <|> plain
    | "interface" => interfaceDeclaration r <|> plain
    | "enum" => enumDeclaration r
    | "abstract" => abstractClass r <|> plain
    | "declare" => ambientDeclaration r <|> plain
    | "module" => moduleDeclaration r <|> plain
    | "namespace" => node "expression_statement" (do internalModule r; semicolon) <|> plain
    | _ => plain

end ScriptSurvey.Syntax
