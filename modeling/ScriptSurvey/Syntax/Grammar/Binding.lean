import ScriptSurvey.Syntax.Grammar.Literal

/-!
# Bindings

Names and patterns that values are bound to. A pattern on the left of an assignment is read as an
expression first, and `Node.toPattern` turns the one into the other.
-/

namespace ScriptSurvey

namespace Node

mutual

/-- The pattern that is written like an expression. -/
def toPattern : Node → Node
  | ⟨kind, field, named, missing, flagged, start, text, children⟩ =>
    match kind with
    | "array" => ⟨"array_pattern", field, named, missing, flagged, start, text, toPatterns children⟩
    | "object" =>
      ⟨"object_pattern", field, named, missing, flagged, start, text, toPatterns children⟩
    | "spread_element" =>
      ⟨"rest_pattern", field, named, missing, flagged, start, text, toPatterns children⟩
    | "pair" =>
      ⟨"pair_pattern", field, named, missing, flagged, start, text, toPatternValues children⟩
    | "assignment_expression" =>
      ⟨"assignment_pattern", field, named, missing, flagged, start, text, children⟩
    | "shorthand_property_identifier" =>
      ⟨"shorthand_property_identifier_pattern", field, named, missing, flagged, start, text,
        children⟩
    | _ => ⟨kind, field, named, missing, flagged, start, text, children⟩

/-- The patterns that are written like expressions. -/
def toPatterns : List Node → List Node
  | [] => []
  | n :: ns => toPattern n :: toPatterns ns

/-- Turns the nodes that fill the field `value` into patterns. -/
def toPatternValues : List Node → List Node
  | [] => []
  | n :: ns => (if n.field == some "value" then toPattern n else n) :: toPatternValues ns

end

/-- The parameter that is written like an expression. -/
def toParameter (n : Node) : Node :=
  if n.isComment then n
  else if n.kind == "assignment_expression" then
    let relabel (c : Node) : Node :=
      if c.field == some "left" then { c with field := some "pattern" }
      else if c.field == some "right" then { c with field := some "value" }
      else c
    { n with kind := "required_parameter", field := none, children := n.children.map relabel }
  else
    { kind := "required_parameter", start := n.start, text := n.text,
      children := [{ toPattern n with field := some "pattern" }] }

/-- The list of parameters that is written like an expression between parentheses. -/
def toParameters (n : Node) : Node :=
  let spread (c : Node) : List Node :=
    if c.kind == "sequence_expression" then c.children else [c]
  { n with kind := "formal_parameters", children := (n.children.flatMap spread).map toParameter }

end Node

namespace Syntax

open Reader

/-- The rest of a sequence or of an object. -/
def restBinding (r : Rules) : Reader Unit :=
  node "rest_pattern" (do token "..."; r .binding)

/-- A binding that may have a default value. -/
def bindingWithDefault (r : Rules) : Reader Unit := do
  let i ← here
  r .binding
  if ← ahead (tokenBut "=" ['=', '>']) then
    wrap "assignment_pattern" i "left" (do token "="; field "right" r.expression)

/-- A property of an object pattern. -/
def propertyBinding (r : Rules) : Reader Unit :=
  let paired : Reader Unit := node "pair_pattern" do
    field "key" (propertyName r)
    token ":"
    field "value" (bindingWithDefault r)
  let short : Reader Unit := do
    let i ← here
    named "shorthand_property_identifier_pattern"
    if ← ahead (tokenBut "=" ['=', '>']) then
      wrap "object_assignment_pattern" i "left" (do token "="; field "right" r.expression)
  restBinding r <|> paired <|> short

/-- An object pattern. -/
def objectBinding (r : Rules) : Reader Unit :=
  node "object_pattern" (braced (enclosed (elements (propertyBinding r))))

/-- An array pattern. -/
def arrayBinding (r : Rules) : Reader Unit :=
  node "array_pattern" (bracketed (elements (bindingWithDefault r)))

/-- A binding. -/
def binding (r : Rules) : Reader Unit :=
  choice [restBinding r, objectBinding r, arrayBinding r, identifier]

end Syntax

end ScriptSurvey
