import ScriptSurvey.Syntax.Grammar.Statement

/-!
# The grammar

The rules of all symbols together, and the tree of a whole script. Reading never fails: when a
statement fits no rule, the rest of the script becomes one error node.
-/

namespace ScriptSurvey.Syntax

open Reader

/-- The rule of each symbol, given what reads the symbols inside it. -/
def rule (r : Rules) : Rules
  | .statement => statement r
  | .operand level castable => operand r level castable
  | .binding => binding r
  | .type => type r
  | .primaryType => primaryType r
  | .element => element r

/-- The rules of all symbols, for scripts in which symbols are nested at most `depth` deep. -/
def rules (depth : Nat) : Rules :=
  match depth with
  | 0 => fun _ => failure
  | depth + 1 => rule (rules depth)

/-- The first line of a script that names its interpreter. -/
def interpreterLine : Reader Unit :=
  span "hash_bang_line" do
    literally "#!"
    moveTo (skipWhile (fun c => c != '\n') (← read).chars (← position))

/-- A whole script. -/
def script (r : Rules) : Reader Unit := do
  discard (attempt interpreterLine)
  statements r
  gap
  if (← peek).isSome then
    skipped failure
    gap

/-- The place of each character of a script, and of its end. -/
def pointsOf (cs : List Char) : Array Point :=
  let step (acc : Array Point × Point) (c : Char) : Array Point × Point :=
    let next : Point :=
      if c == '\n' then { row := acc.2.row + 1 }
      else { acc.2 with column := acc.2.column + c.utf8Size }
    (acc.1.push next, next)
  (cs.foldl step (#[{}], {})).1

/-- The syntax tree of a script. Each nesting level takes at least one character, so the number of
characters bounds how deep symbols are nested. -/
def parseTree (markup : Bool) (source : String) : Node :=
  let cs := source.toList
  let setting : Setting := { chars := cs.toArray, points := pointsOf cs, markup }
  match script (rules (4 * cs.length + 16)) setting {} with
  | some ((), cursor) => { kind := "program", text := source, children := cursor.gathered.reverse }
  | none => { kind := "ERROR", text := source }

end ScriptSurvey.Syntax
