import ScriptSurvey.Syntax.Grammar.Binding

/-!
# Signatures

Type annotations, type parameters and type arguments, decorators, and the parameters of functions
with what their signature says about types.
-/

namespace ScriptSurvey.Syntax

open Reader

/-! ## Types in signatures -/

/-- The type after a colon. -/
def typeAscription (r : Rules) : Reader Unit :=
  node "type_annotation" (do token ":"; r .type)

/-- The arguments of a generic type or call. -/
def typeArguments (r : Rules) : Reader Unit :=
  node "type_arguments" do
    token "<"
    enclosed (listed (r .type))
    token ">"

/-- A parameter of a generic declaration. -/
def typeParameter (r : Rules) : Reader Unit :=
  node "type_parameter" do
    discard (attempt (do word "const"; ensure (← ahead typeName)))
    field "name" typeName
    discard (attempt (field "constraint" (node "constraint" do
      word "extends" <|> token ":"
      r .type)))
    discard (attempt (field "value" (node "default_type" (do token "="; r .type))))

/-- The parameters of a generic declaration. -/
def typeParameters (r : Rules) : Reader Unit :=
  node "type_parameters" do
    token "<"
    enclosed (do sepBy1 (typeParameter r); discard (attempt (token ",")))
    token ">"

/-- The statement that a parameter has a type. -/
def typePredicate (r : Rules) : Reader Unit :=
  node "type_predicate" do
    field "name" (node "this" (word "this") <|> named "identifier")
    sameLine
    word "is"
    field "type" (r .type)

/-- The statement that a condition, or the type of a parameter, holds after the call. -/
def assertion (r : Rules) : Reader Unit :=
  node "asserts" do
    word "asserts"
    sameLine
    typePredicate r <|> node "this" (word "this") <|> identifier

/-- What the result of a function is said to be. -/
def resultAscription (r : Rules) : Reader Unit :=
  choice [
    node "asserts_annotation" (do token ":"; assertion r),
    node "type_predicate_annotation" (do token ":"; typePredicate r),
    typeAscription r]

/-! ## Decorators and modifiers -/

/-- A decorator. -/
def decorator (r : Rules) : Reader Unit :=
  let path : Reader Unit := do
    let i ← here
    identifier
    many (wrap "member_expression" i "object" (do token "."; field "property" memberName))
    if ← ahead (typeArguments r <|> token "(") then
      discard (attempt (wrap "call_expression" i "function" do
        discard (attempt (field "type_arguments" (typeArguments r)))
        field "arguments" r.arguments))
  node "decorator" do
    token "@"
    node "parenthesized_expression" (parenthesized path) <|> path

/-- The decorators in front of a declaration. -/
def decorators (r : Rules) : Reader Unit :=
  many (field "decorator" (decorator r))

/-- Goes on only if the next token on this line may start the name of a member. -/
def beforeName : Reader Unit := do
  sameLine
  match ← upcoming with
  | some c => ensure (isNamePart c || ['"', '\x27', '[', '#', '*', '\\'].contains c)
  | none => failure

/-- A modifier that leaves no node, in front of a name. -/
def modifier (w : String) : Reader Unit := do
  word w
  beforeName

/-- Who may use a member. -/
def accessibility : Reader Unit :=
  node "accessibility_modifier" (do oneOf ["public", "private", "protected"]; beforeName)

/-- The mark of a member that replaces an inherited one. -/
def overriding : Reader Unit :=
  node "override_modifier" (modifier "override")

/-! ## Parameters -/

/-- A parameter of a function. -/
def parameter (r : Rules) : Reader Unit :=
  let beforeBinding : Reader Unit := do
    match ← upcoming with
    | some c => ensure (isNameStart c || c == '{' || c == '[')
    | none => failure
  built do
    decorators r
    discard (attempt (node "accessibility_modifier" do
      oneOf ["public", "private", "protected"]; beforeBinding))
    discard (attempt (node "override_modifier" (do word "override"; beforeBinding)))
    discard (attempt (do word "readonly"; beforeBinding))
    field "pattern" (node "this" (word "this") <|> r .binding)
    let isOptional ← attempt (token "?")
    discard (attempt (field "type" (typeAscription r)))
    discard (attempt r.initializer)
    return if isOptional then "optional_parameter" else "required_parameter"

/-- The parameters of a function. -/
def parameters (r : Rules) : Reader Unit :=
  node "formal_parameters" (parenthesized (listed (parameter r)))

/-- What a function takes and gives. -/
def signature (r : Rules) : Reader Unit := do
  discard (attempt (field "type_parameters" (typeParameters r)))
  field "parameters" (parameters r)
  discard (attempt (field "return_type" (resultAscription r)))

/-- Statements, with markup comments between them. -/
def statements (r : Rules) : Reader Unit :=
  let markupComment : Reader Unit := do
    gap
    let i ← position
    match markupCommentEnd? (← read).chars i with
    | some j => span "html_comment" (moveTo j)
    | none => failure
  opened (many (markupComment <|> r .statement))

/-- A block of statements. A line end after it is part of it, and so are comments before that. -/
def block (r : Rules) : Reader Unit :=
  node "statement_block" do
    braced (statements r)
    discard (attempt impliedEnd)

end ScriptSurvey.Syntax
