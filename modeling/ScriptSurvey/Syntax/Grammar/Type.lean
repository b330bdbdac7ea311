import ScriptSurvey.Syntax.Grammar.Signature

/-!
# Types

From loose to tight: conditional types, unions, intersections, and primary types with brackets
after them. Function types, `readonly` types and inferred names reach as far as they can.
-/

namespace ScriptSurvey.Syntax

open Reader

/-- The names of the built-in types. -/
def builtinTypes : List String :=
  ["any", "number", "boolean", "string", "symbol", "void", "unknown", "never", "object"]

/-! ## Members of object types -/

/-- The parameters of a mapped type. -/
def mappedClause (r : Rules) : Reader Unit :=
  node "mapped_type_clause" do
    field "name" typeName
    word "in"
    field "type" (r .type)
    discard (attempt (do word "as"; field "alias" (r .type)))

/-- The type of the members of an index signature, with what becomes of their optionality. -/
def indexAscription (r : Rules) : Reader Unit :=
  choice [
    node "omitting_type_annotation" (do token "-?:"; r .type),
    node "adding_type_annotation" (do token "+?:"; r .type),
    node "opting_type_annotation" (do token "?:"; r .type),
    typeAscription r]

/-- An index signature, or a mapped type. -/
def indexSignature (r : Rules) : Reader Unit :=
  node "index_signature" do
    discard (attempt (do
      discard (attempt (token "-" <|> token "+"))
      word "readonly"
      ensure (← ahead (token "["))))
    bracketed (mappedClause r <|> do
      field "name" (named "identifier")
      token ":"
      field "index_type" (r .type))
    field "type" (indexAscription r)

/-- A signature with `new`. -/
def constructSignature (r : Rules) : Reader Unit :=
  node "construct_signature" do
    discard (attempt (word "abstract"))
    word "new"
    discard (attempt (field "type_parameters" (typeParameters r)))
    field "parameters" (parameters r)
    discard (attempt (field "type" (typeAscription r)))

/-- A property or a method of an object type. -/
def memberSignature (r : Rules) : Reader Unit :=
  built do
    discard (attempt accessibility)
    discard (attempt (modifier "static"))
    discard (attempt overriding)
    discard (attempt (modifier "readonly"))
    discard (attempt (modifier "async"))
    discard (attempt (modifier "get" <|> modifier "set" <|> token "*"))
    field "name" (propertyName r)
    discard (attempt (token "?"))
    if ← ahead (token "(" <|> token "<") then
      signature r
      return "method_signature"
    else
      discard (attempt (field "type" (typeAscription r)))
      return "property_signature"

/-- The members of an object type between braces. -/
def objectType (kind : String) (r : Rules) : Reader Unit :=
  let member : Reader Unit := choice [
    constructSignature r,
    node "call_signature" (signature r),
    indexSignature r,
    memberSignature r]
  let separator : Reader Unit := token "," <|> semicolon
  node kind (braced (opened do
    discard (attempt (token "," <|> token ";"))
    many (do member; separator)
    discard (attempt member)))

/-! ## Primary types -/

/-- A member of a tuple type. -/
def tupleMember (r : Rules) : Reader Unit :=
  let labelled : Reader Unit := built do
    field "name" (node "rest_pattern" (do token "..."; identifier) <|> identifier)
    let isOptional ← attempt (token "?")
    field "type" (typeAscription r)
    return if isOptional then "optional_parameter" else "required_parameter"
  let plain : Reader Unit := do
    let i ← here
    r .type
    discard (attempt (wrap "optional_type" i none (token "?")))
  choice [labelled, node "rest_type" (do token "..."; r .type), plain]

/-- A function type. -/
def functionType (r : Rules) : Reader Unit :=
  node "function_type" do
    discard (attempt (field "type_parameters" (typeParameters r)))
    field "parameters" (parameters r)
    token "=>"
    field "return_type" (choice [assertion r, typePredicate r, r .type])

/-- The type of a constructor. -/
def constructorType (r : Rules) : Reader Unit :=
  node "constructor_type" do
    discard (attempt (word "abstract"))
    word "new"
    discard (attempt (field "type_parameters" (typeParameters r)))
    field "parameters" (parameters r)
    token "=>"
    field "type" (r .type)

/-- An imported module, asked for by a call, and members of it. -/
def importedType (r : Rules) : Reader Unit := do
  let i ← here
  node "import" (word "import")
  wrap "call_expression" i "function" (field "arguments" r.arguments)
  many (wrap "member_expression" i "object" (do token "."; field "property" memberName))

/-- The type of a value. -/
def typeQuery (r : Rules) : Reader Unit :=
  let index : Reader Unit := choice [
    node "predefined_type" (oneOf builtinTypes), string, number]
  node "type_query" do
    word "typeof"
    let i ← here
    importedType r <|> node "this" (word "this") <|> identifier
    many (choice [
      wrap "member_expression" i "object" (do
        token "?." <|> token "."
        field "property" memberName),
      wrap "subscript_expression" i "object" (do
        discard (attempt (token "?."))
        bracketed (field "index" index)),
      wrap "call_expression" i "function" (field "arguments" r.arguments),
      wrap "instantiation_expression" i "function" (field "type_arguments" (typeArguments r))])

/-- A type given by its name, possibly with arguments. -/
def nominalType (r : Rules) : Reader Unit := do
  let i ← here
  typeName
  let qualify : Reader Unit := do
    revise fun n =>
      if n.kind == "type_identifier" then { n with kind := "identifier" }
      else { n with
        kind := "nested_identifier"
        children := n.children.map fun c =>
          if c.field == some "module" then { c with field := some "object" }
          else if c.field == some "name" then
            { c with kind := "property_identifier", field := some "property" }
          else c }
    wrap "nested_type_identifier" i "module" (do token "."; field "name" typeName)
  many qualify
  discard (attempt (wrap "generic_type" i "name" (field "type_arguments" (typeArguments r))))

/-- A literal as a type. -/
def literalType : Reader Unit :=
  node "literal_type" (choice [
    string,
    number,
    node "unary_expression" (do
      marked "operator" (literally "-" <|> literally "+")
      field "argument" number),
    node "true" (word "true"),
    node "false" (word "false"),
    node "null" (word "null"),
    node "undefined" (word "undefined")])

/-- A primary type and the brackets after it. -/
def primaryType (r : Rules) : Reader Unit := do
  let i ← here
  let keyed : Reader Unit := node "index_type_query" (do word "keyof"; r .primaryType)
  let symbolType : Reader Unit :=
    node "predefined_type" (do word "unique"; sameLine; word "symbol")
  let inferred : Reader Unit := node "infer_type" do
    word "infer"
    typeName
    discard (attempt (do word "extends"; r .type))
  choice [
    functionType r,
    node "parenthesized_type" (parenthesized (r .type)),
    objectType "object_type" r,
    node "tuple_type" (bracketed (listed (tupleMember r))),
    templated "template_literal_type" "template_type" (r .type),
    literalType,
    node "existential_type" (token "*"),
    node "flow_maybe_type" (do token "?"; r .primaryType),
    constructorType r,
    symbolType,
    node "predefined_type" (oneOf builtinTypes),
    node "this_type" (word "this"),
    typeQuery r,
    keyed,
    inferred,
    node "readonly_type" (do word "readonly"; r .type),
    importedType r,
    nominalType r]
  let breaks := (← read).breaks
  let bracket (p : Reader Unit) : Reader Unit := do
    if breaks then sameLine
    p
  many (bracket (
    wrap "array_type" i none (do token "["; token "]") <|>
    wrap "lookup_type" i none (bracketed (r .type))))

/-! ## Operators on types -/

/-- Types joined by an operator, which may also stand in front of the first. -/
def joined (kind : String) (operator operand : Reader Unit) : Reader Unit := do
  let i ← here
  node kind (do operator; operand) <|> operand
  many (wrap kind i none (do operator; operand))

/-- An intersection of types. -/
def intersectionType (r : Rules) : Reader Unit :=
  joined "intersection_type" (tokenBut "&" ['&']) (primaryType r)

/-- A union of types. -/
def unionType (r : Rules) : Reader Unit :=
  joined "union_type" (tokenBut "|" ['|']) (intersectionType r)

/-- A type. -/
def type (r : Rules) : Reader Unit := do
  let i ← here
  unionType r
  discard (attempt (wrap "conditional_type" i "left" do
    if (← read).breaks then sameLine
    word "extends"
    field "right" (unionType r)
    token "?"
    field "consequence" (r .type)
    token ":"
    field "alternative" (r .type)))

end ScriptSurvey.Syntax
