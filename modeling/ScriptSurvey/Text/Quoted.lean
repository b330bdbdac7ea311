import ScriptSurvey.Text.Printable

/-!
# Quoted texts

Messages show a name between quotes, with whatever cannot be printed escaped. Single quotes are
used unless the text holds one and no double quote.
-/

namespace ScriptSurvey.Text

/-- A natural number in hexadecimal, with at least `width` digits. -/
def hex (width value : Nat) : String :=
  let digits := Nat.toDigits 16 value
  String.ofList (List.replicate (width - digits.length) '0' ++ digits)

/-- The quote that surrounds a text. -/
def quoteOf (text : String) : Char :=
  if text.contains '\x27' && !text.contains '"' then '"' else '\x27'

/-- A character as it stands between the given quotes. -/
def quoteChar (quote c : Char) : String :=
  if c = quote || c = '\\' then String.ofList ['\\', c]
  else if c = '\n' then "\\n"
  else if c = '\r' then "\\r"
  else if c = '\t' then "\\t"
  else if isPrintable c then c.toString
  else if c.toNat < 0x100 then "\\x" ++ hex 2 c.toNat
  else if c.toNat < 0x10000 then "\\u" ++ hex 4 c.toNat
  else "\\U" ++ hex 8 c.toNat

/-- The text between quotes, its unprintable characters escaped. -/
def quoted (text : String) : String :=
  let quote := quoteOf text
  quote.toString ++ String.join (text.toList.map (quoteChar quote)) ++ quote.toString

/-- Bytes between quotes after a `b`, all but printable ASCII escaped. -/
def quotedBytes (bytes : List UInt8) : String :=
  let chars := bytes.map fun b => Char.ofNat b.toNat
  let quote := quoteOf (String.ofList chars)
  let shown (c : Char) : String :=
    if c.toNat < 127 then quoteChar quote c else "\\x" ++ hex 2 c.toNat
  "b" ++ quote.toString ++ String.join (chars.map shown) ++ quote.toString

/-- The lower-case form of a name, as far as a comparison with lower-case ASCII names can tell:
the characters whose lower-case form is an ASCII letter are the ASCII capitals and the Kelvin
sign. -/
def lower (text : String) : String :=
  text.map fun c => if c = '\u212A' then 'k' else c.toLower

end ScriptSurvey.Text
