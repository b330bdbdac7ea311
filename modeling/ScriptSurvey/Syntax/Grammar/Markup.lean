import ScriptSurvey.Syntax.Grammar.Type

/-!
# Markup

Markup elements inside scripts: tags with attributes, and between an opening and a closing tag
text, character references, embedded expressions and elements.
-/

namespace ScriptSurvey.Syntax

open Reader

/-! ## Names of tags and attributes -/

/-- A name in markup, which may hold hyphens. -/
def markupName (kind : String) : Reader Unit :=
  node kind do
    let cs := (← read).chars
    let i ← position
    let j := nameEnd cs i
    ensure (i < j)
    moveTo (skipWhile (fun c => isNamePart c || c == '-') cs j)

/-- A name with a namespace. -/
def qualifiedName : Reader Unit :=
  node "jsx_namespace_name" do
    markupName "identifier"
    token ":"
    markupName "identifier"

/-- The name of a tag, with type arguments if it has any. -/
def tagName (r : Rules) : Reader Unit := do
  let path : Reader Unit := do
    let i ← here
    markupName "identifier"
    many (wrap "member_expression" i "object" do
      token "."
      field "property" (named "property_identifier"))
  field "name" (qualifiedName <|> path)
  discard (attempt (field "type_arguments" (typeArguments r)))

/-! ## Attributes -/

/-- A character reference. -/
def reference : Reader Unit :=
  span "html_character_reference" do
    match referenceEnd? (← read).chars (← position) with
    | some j => moveTo j
    | none => failure

/-- A run of plain characters of an attribute value: an ampersand belongs to it if no character
reference can start there. -/
def attributeTextEnd (q : Char) (cs : Chars) (i : Nat) : Nat :=
  if h : i < cs.size then
    if cs[i] == q then i
    else if cs[i] == '&' then
      match cs[i + 1]? with
      | some c => if c == '#' || c.isAlpha || c == q then i else attributeTextEnd q cs (i + 2)
      | none => i
    else attributeTextEnd q cs (i + 1)
  else i
termination_by cs.size - i

/-- A quoted attribute value. It has character references in place of escape sequences. -/
def attributeText (q : Char) : Reader Unit :=
  let plain : Reader Unit := span "string_fragment" do
    let i ← position
    let j := attributeTextEnd q (← read).chars i
    ensure (i < j)
    moveTo j
  node "string" do
    literally (String.singleton q)
    many (plain <|> reference)
    literally (String.singleton q)

/-- An expression between braces; it may be missing. -/
def embedded (r : Rules) : Reader Unit :=
  node "jsx_expression" (braced (enclosed (discard (attempt (r.spread <|> r.expressions)))))

/-- An attribute. -/
def tagAttribute (r : Rules) : Reader Unit :=
  let value : Reader Unit :=
    choice [attributeText '"', attributeText '\x27', embedded r, r .element]
  embedded r <|> node "jsx_attribute" do
    qualifiedName <|> markupName "property_identifier"
    discard (attempt (do token "="; value))

/-! ## Elements -/

/-- An opening tag, or the tag of an element without content. -/
def startTag (r : Rules) : Reader Unit :=
  built do
    token "<"
    if ← attempt (token ">") then
      return "jsx_opening_element"
    tagName r
    many (field "attribute" (tagAttribute r))
    if ← attempt (token "/>") then
      return "jsx_self_closing_element"
    token ">"
    return "jsx_opening_element"

/-- A closing tag. -/
def endTag : Reader Unit :=
  node "jsx_closing_element" do
    token "</"
    discard (attempt (field "name" do
      qualifiedName <|> do
        let i ← here
        markupName "identifier"
        many (wrap "member_expression" i "object" do
          token "."
          field "property" (named "property_identifier"))))
    token ">"

/-- Text between tags, if it counts. -/
def markupText : Reader Unit :=
  span "jsx_text" do
    let cs := (← read).chars
    let i ← position
    let j := markupTextEnd cs i
    ensure (markupTextCounts (cs.extract i j).toList false)
    moveTo j

/-- Something between an opening and a closing tag. -/
def content (r : Rules) : Reader Unit :=
  let unmarked : Reader Unit := do
    moveTo (skipWhile isBlank (← read).chars (← position))
    reference
  choice [markupText, unmarked, r .element, embedded r]

/-- An element. -/
def element (r : Rules) : Reader Unit := do
  let i ← here
  startTag r
  if (← latest).kind == "jsx_opening_element" then
    wrap "jsx_element" i "open_tag" do
      many (content r)
      field "close_tag" endTag

end ScriptSurvey.Syntax
