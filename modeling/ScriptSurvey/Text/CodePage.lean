/-!
# The code page of old archives

Names in archives that do not say otherwise are written in code page 437, whose lower half is ASCII.
-/

namespace ScriptSurvey.Text

/-- The upper half of code page 437. -/
def upperHalf : List Char :=
  ("ÇüéâäàåçêëèïîìÄÅÉæÆôöòûùÿÖÜ¢£¥₧ƒáíóúñÑªº¿⌐¬½¼¡«»░▒▓│┤╡╢╖╕╣║╗╝╜╛┐" ++
   "└┴┬├─┼╞╟╚╔╩╦╠═╬╧╨╤╥╙╘╒╓╫╪┘┌█▄▌▐▀αßΓπΣσµτΦΘΩδ∞φε∩≡±≥≤⌠⌡÷≈°∙·√ⁿ²■\u00A0").toList

/-- The character of a byte in code page 437. -/
def codePageChar (b : UInt8) : Char :=
  if b < 0x80 then Char.ofNat b.toNat else upperHalf.getD (b.toNat - 128) '?'

/-- The text of bytes in code page 437. -/
def ofCodePage (bytes : List UInt8) : String :=
  String.ofList (bytes.map codePageChar)

end ScriptSurvey.Text
