import ScriptSurvey.Json.Value
import ScriptSurvey.Numeric.Decimal
import ScriptSurvey.Text.Quoted

/-!
# Writing JSON

Values are written on one line or, with an indentation, one item to a line. Characters below the
blank are escaped, all others stand for themselves.
-/

namespace ScriptSurvey.Json

/-- How values are written. -/
structure Style where
  /-- The blanks by which each level is indented; without them a value stands on one line. -/
  indent : Option Nat
  /-- The text of a double. -/
  real : Double → String

/-- A character as it stands between the quotes of a text. -/
def escapeChar (c : Char) : List Char :=
  match c with
  | '"' => ['\\', '"']
  | '\\' => ['\\', '\\']
  | '\n' => ['\\', 'n']
  | '\t' => ['\\', 't']
  | '\r' => ['\\', 'r']
  | '\x08' => ['\\', 'b']
  | '\x0c' => ['\\', 'f']
  | c => if c.toNat < 0x20 then '\\' :: 'u' :: (Text.hex 4 c.toNat).toList else [c]

/-- A text between quotes. -/
def writeText (text : String) : List Char :=
  '"' :: text.toList.flatMap escapeChar ++ ['"']

namespace Style

/-- The line break before an item at a level of nesting. -/
def lineBreak (style : Style) (level : Nat) : List Char :=
  match style.indent with
  | none => []
  | some width => '\n' :: List.replicate (width * level) ' '

/-- What stands between a name and its value. -/
def colon (style : Style) : List Char :=
  if style.indent.isSome then [':', ' '] else [':']

/-- Items between brackets, a comma after each but the last. -/
def enclose (style : Style) (level : Nat) (opening closing : Char) (items : List (List Char)) :
    List Char :=
  if items.isEmpty then [opening, closing]
  else
    let shift := style.lineBreak (level + 1)
    opening :: shift ++ (items.intersperse (',' :: shift)).flatten ++
      style.lineBreak level ++ [closing]

end Style

mutual

/-- A value at a level of nesting. -/
def writeAt (style : Style) (level : Nat) : Json → List Char
  | .null => "null".toList
  | .bool value => (if value then "true" else "false").toList
  | .int value => (toString value).toList
  | .real value => (style.real value).toList
  | .text value => writeText value
  | .list items => style.enclose level '[' ']' (writeItems style (level + 1) items)
  | .object members => style.enclose level '{' '}' (writeMembers style (level + 1) members)

/-- The items of a list. -/
def writeItems (style : Style) (level : Nat) : List Json → List (List Char)
  | [] => []
  | item :: items => writeAt style level item :: writeItems style level items

/-- The members of an object. -/
def writeMembers (style : Style) (level : Nat) : List (String × Json) → List (List Char)
  | [] => []
  | (name, value) :: members =>
    (writeText name ++ style.colon ++ writeAt style level value) ::
      writeMembers style level members

end

/-- The text of a value. -/
def write (style : Style) (value : Json) : String :=
  String.ofList (writeAt style 0 value)

end ScriptSurvey.Json
