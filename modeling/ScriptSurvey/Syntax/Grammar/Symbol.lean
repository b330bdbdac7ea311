import ScriptSurvey.Syntax.Reader

/-!
# Symbols of the grammar

The rules of the grammar refer to each other in circles: a statement holds expressions, an
expression may be a function, and a function holds statements. The circles are cut at a few
symbols. A rule takes as argument what reads these symbols (`Rules`), so each rule is an ordinary
definition, and the grammar as a whole ties the knot once.
-/

namespace ScriptSurvey.Syntax

/-- The symbols at which the rules of the grammar refer to each other. -/
inductive Symbol where
  /-- A statement or a declaration. -/
  | statement
  /-- An expression whose infix operators bind at least as tightly as `level`. A type cast and a
  non-null mark belong to it only if it is `castable`. -/
  | operand (level : Nat) (castable : Bool)
  /-- What a value is bound to: a name, or a pattern of names. -/
  | binding
  /-- A type. -/
  | type
  /-- A type without operators outside of brackets. -/
  | primaryType
  /-- A markup element. -/
  | element

/-- What reads each symbol. -/
abbrev Rules := Symbol → Reader Unit

namespace Rules

open Reader

/-- One expression. -/
def expression (r : Rules) : Reader Unit :=
  r (.operand 0 true)

/-- One expression, or a sequence of them. -/
def expressions (r : Rules) : Reader Unit := do
  let i ← here
  r.expression
  if ← ahead (token ",") then
    wrap "sequence_expression" i none (many (do token ","; r.expression))

/-- An expression after three dots. -/
def spread (r : Rules) : Reader Unit :=
  node "spread_element" (do token "..."; r.expression)

/-- The value after an equals sign. -/
def initializer (r : Rules) : Reader Unit := do
  tokenBut "=" ['=', '>']
  field "value" r.expression

/-- The arguments of a call. -/
def arguments (r : Rules) : Reader Unit :=
  node "arguments" (parenthesized (elements (r.spread <|> r.expression)))

end Rules

end ScriptSurvey.Syntax
