import ScriptSurvey.Syntax.Grammar.Markup

/-!
# Functions, objects and classes

Function literals, object literals with their properties and methods, and classes with their
members.
-/

namespace ScriptSurvey.Syntax

open Reader

/-! ## Functions -/

/-- A function or generator with an optional name. The kinds are those of a plain function and of
a generator. -/
def functionLiteral (plain generator : String) (name : Reader Unit) (r : Rules) : Reader Unit :=
  built do
    discard (attempt (do word "async"; sameLine; ensure (← ahead (word "function"))))
    word "function"
    let isGenerator ← attempt (token "*")
    name
    signature r
    field "body" (block r)
    return if isGenerator then generator else plain

/-- A function as an expression. -/
def functionExpression (r : Rules) : Reader Unit :=
  functionLiteral "function_expression" "generator_function"
    (discard (attempt (field "name" identifier))) r

/-- The arrow and the body of an arrow function. -/
def arrowBody (r : Rules) : Reader Unit := do
  token "=>"
  field "body" (do
    if (← upcoming) == some '{' then block r else r.expression)

/-- An arrow function with one bare parameter, or with a full signature. -/
def arrowFunction (r : Rules) : Reader Unit :=
  node "arrow_function" do
    discard (attempt (do word "async"; sameLine; notAhead (token "=>")))
    field "parameter" identifier <|> signature r
    arrowBody r

/-! ## Objects -/

/-- A method of an object or a class. -/
def method (r : Rules) : Reader Unit :=
  node "method_definition" do
    discard (attempt accessibility)
    discard (attempt (modifier "static"))
    discard (attempt overriding)
    discard (attempt (modifier "readonly"))
    discard (attempt (modifier "async"))
    discard (attempt (modifier "get" <|> modifier "set" <|> token "*"))
    field "name" (propertyName r)
    discard (attempt (token "?"))
    ensure (← ahead (token "(" <|> token "<"))
    signature r
    field "body" (block r)

/-- A property given by the name of a variable. A default value is allowed here, because the
object may turn out to be a pattern. -/
def shorthand (r : Rules) : Reader Unit := do
  let i ← here
  node "shorthand_property_identifier" do
    ensure !(reservedWords.contains (← anyName))
  if ← ahead (tokenBut "=" ['=', '>']) then
    revise Node.toPattern
    wrap "object_assignment_pattern" i "left" (do token "="; field "right" r.expression)

/-- A property of an object. -/
def property (r : Rules) : Reader Unit :=
  choice [
    r.spread,
    node "pair" (do field "key" (propertyName r); token ":"; field "value" r.expression),
    method r,
    shorthand r]

/-- An object. -/
def object (r : Rules) : Reader Unit :=
  node "object" (braced (enclosed (elements (property r))))

/-- An array. -/
def array (r : Rules) : Reader Unit :=
  node "array" (bracketed (elements (r.spread <|> r.expression)))

/-! ## Classes -/

/-- What a class extends and implements. -/
def heritage (r : Rules) : Reader Unit :=
  let extended : Reader Unit := node "extends_clause" do
    word "extends"
    sepBy1 do
      field "value" (r (.operand 14 false))
      discard (attempt (field "type_arguments" (typeArguments r)))
  let implemented : Reader Unit := node "implements_clause" do
    word "implements"
    sepBy1 (r .type)
  node "class_heritage" do
    if ← attempt extended then discard (attempt implemented) else implemented

/-- A member of a class from its modifiers on; gives its kind. -/
def memberParts (r : Rules) : Reader String := do
  discard (attempt accessibility)
  discard (attempt (modifier "declare"))
  discard (attempt accessibility)
  discard (attempt (modifier "static"))
  discard (attempt overriding)
  let early ← attempt (modifier "abstract")
  discard (attempt overriding)
  discard (attempt (modifier "readonly"))
  let late ← attempt (modifier "abstract")
  discard (attempt (modifier "accessor"))
  discard (attempt (modifier "async"))
  discard (attempt (modifier "get" <|> modifier "set" <|> token "*"))
  field "name" (propertyName r)
  discard (attempt (token "?" <|> tokenBut "!" ['=']))
  if ← ahead (token "(" <|> token "<") then
    signature r
    if ← attempt (field "body" (block r)) then
      return "method_definition"
    return if early || late then "abstract_method_signature" else "method_signature"
  else
    discard (attempt (field "type" (typeAscription r)))
    discard (attempt r.initializer)
    return "public_field_definition"

/-- A member of a class and what closes it. The decorators of a field stand inside it, those of
anything else beside it. -/
def classMember (r : Rules) : Reader Unit := do
  let outer ← here
  let ((), before) ← gathering (do decorators r; gap)
  let inner ← position
  let (kind, parts) ← gathering (memberParts r)
  if kind == "public_field_definition" then
    gather (← covering kind outer (before ++ parts))
  else
    before.forM gather
    gather (← covering kind inner parts)
  if kind == "method_definition" then
    discard (attempt semicolon)
  else
    semicolon <|> token ","

/-- The members of a class. -/
def classBody (r : Rules) : Reader Unit :=
  let static : Reader Unit := node "class_static_block" do
    word "static"
    field "body" (block r)
  let indexed : Reader Unit := do
    indexSignature r
    semicolon <|> token ","
  node "class_body" (braced (opened (many (choice [token ";", static, indexed, classMember r]))))

/-- A class from its name on. -/
def classParts (r : Rules) : Reader Unit := do
  discard (attempt (do
    notAhead (word "implements")
    field "name" typeName))
  discard (attempt (field "type_parameters" (typeParameters r)))
  discard (attempt (heritage r))
  field "body" (classBody r)

/-- A class as an expression. -/
def classExpression (r : Rules) : Reader Unit :=
  node "class" (do decorators r; word "class"; classParts r)

/-- The declaration of a class. -/
def classDeclaration (r : Rules) : Reader Unit :=
  node "class_declaration" do
    decorators r
    word "class"
    ensure (← ahead typeName)
    classParts r
    discard (attempt impliedEnd)

/-- The declaration of an abstract class. -/
def abstractClass (r : Rules) : Reader Unit :=
  node "abstract_class_declaration" do
    decorators r
    word "abstract"
    sameLine
    word "class"
    classParts r

end ScriptSurvey.Syntax
