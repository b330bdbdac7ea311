import ScriptSurvey.Syntax.Grammar.Symbol

/-!
# Names and literals

Names, numbers, strings, templates and regular expressions, and the names of properties.
-/

namespace ScriptSurvey.Syntax

open Reader

/-! ## Names -/

/-- The words that are no names of values. -/
def reservedWords : List String :=
  ["break", "case", "catch", "class", "const", "continue", "debugger", "default", "delete", "do",
    "else", "enum", "export", "extends", "false", "finally", "for", "function", "if", "import",
    "in", "instanceof", "new", "null", "return", "super", "switch", "this", "throw", "true", "try",
    "typeof", "var", "void", "while", "with"]

/-- A name of a value. -/
def identifier : Reader Unit :=
  built do
    let name ← anyName
    ensure !(reservedWords.contains name)
    return if name == "undefined" then "undefined" else "identifier"

/-- A name of any kind, reserved words included. -/
def named (kind : String) : Reader Unit :=
  node kind (discard anyName)

/-- A name of a type. -/
def typeName : Reader Unit :=
  node "type_identifier" do
    ensure !(reservedWords.contains (← anyName))

/-- A private name. -/
def privateName : Reader Unit :=
  node "private_property_identifier" do
    literally "#"
    let i ← position
    let j := nameEnd (← read).chars i
    ensure (i < j)
    moveTo j

/-- The name of a member after a dot. -/
def memberName : Reader Unit :=
  privateName <|> named "property_identifier"

/-! ## Literals -/

/-- A number. -/
def number : Reader Unit :=
  node "number" do
    let i ← position
    let j := numberEnd (← read).chars i
    ensure (i < j)
    moveTo j

/-- An escape sequence inside a string or a template. -/
def escapeSequence : Reader Unit :=
  span "escape_sequence" do
    ensure ((← peek) == some '\\')
    match escapeEnd? (← read).chars (← position) with
    | some j => moveTo j
    | none => failure

/-- A run of plain characters inside a string. -/
def fragment (p : Char → Bool) : Reader Unit :=
  span "string_fragment" do
    let i ← position
    let j := skipWhile p (← read).chars i
    ensure (i < j)
    moveTo j

/-- A string between the quotation marks `q`. -/
def quoted (q : Char) : Reader Unit :=
  node "string" do
    literally (String.singleton q)
    many (fragment (fun c => !(c == q || c == '\\' || c == '\n' || c == '\r')) <|> escapeSequence)
    literally (String.singleton q)

/-- A string. -/
def string : Reader Unit :=
  quoted '"' <|> quoted '\x27'

/-- A run of plain characters inside a template. -/
def templateText : Reader Unit :=
  span "string_fragment" do
    let i ← position
    let j := templateTextEnd (← read).chars i
    ensure (i < j)
    moveTo j

/-- A text between backquotes, whose substitutions are of kind `kind` and hold a `p`. -/
def templated (whole kind : String) (p : Reader Unit) : Reader Unit :=
  node whole do
    literally "`"
    many (templateText <|> escapeSequence <|>
      span kind (do literally "$\x7b"; enclosed p; token "\x7d"))
    literally "`"

/-- A template string. -/
def template (r : Rules) : Reader Unit :=
  templated "template_string" "template_substitution" r.expressions

/-- A regular expression. -/
def regex : Reader Unit :=
  node "regex" do
    literally "/"
    field "pattern" (span "regex_pattern" do
      let i ← position
      match patternEnd? (← read).chars false i with
      | some j => ensure (i < j); moveTo j
      | none => failure)
    literally "/"
    let i ← position
    let j := skipWhile Char.isLower (← read).chars i
    if i < j then
      field "flags" (span "regex_flags" (moveTo j))

/-! ## Names of properties -/

/-- A name computed by an expression between brackets. -/
def computedName (r : Rules) : Reader Unit :=
  node "computed_property_name" (bracketed r.expression)

/-- The name of a property. -/
def propertyName (r : Rules) : Reader Unit :=
  choice [privateName, string, number, computedName r, named "property_identifier"]

end ScriptSurvey.Syntax
