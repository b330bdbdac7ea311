/-!
# Characters, gaps and line ends

The smallest parts of a script: which characters are blank, which may stand in a name, where a
comment, a name or a number ends, and where a line end closes a statement that no semicolon
closes. All functions work on an array of characters and an index into it.

* `gapEnd?` is the end of the blanks and comments at an index.
* `nameEnd` is the end of the name at an index, the index itself if no name is there.
* `lineEndCloses` is the rule for a missing semicolon.
-/

namespace ScriptSurvey.Syntax

/-- The characters of a script. -/
abbrev Chars := Array Char

/-! ## Character classes -/

/-- Blank characters, which separate tokens. -/
def isBlank (c : Char) : Bool :=
  c == ' ' || ('\t' ≤ c && c ≤ '\r') || c == '\u00a0' || c == '\u1680' ||
    ('\u2000' ≤ c && c ≤ '\u200b') || c == '\u2028' || c == '\u2029' || c == '\u202f' ||
    c == '\u205f' || c == '\u2060' || c == '\u3000' || c == '\ufeff'

/-- The blank characters that the rule for a missing semicolon passes over: no-break spaces and
zero-width characters are not among them. -/
def isSpace (c : Char) : Bool :=
  c == ' ' || ('\t' ≤ c && c ≤ '\r') || c == '\u1680' || ('\u2000' ≤ c && c ≤ '\u2006') ||
    ('\u2008' ≤ c && c ≤ '\u200a') || c == '\u2028' || c == '\u2029' || c == '\u205f' ||
    c == '\u3000'

/-- The characters that end a line comment. -/
def isLineEnd (c : Char) : Bool :=
  c == '\n' || c == '\r' || c == '\u2028' || c == '\u2029'

/-- The ASCII characters that no name contains. -/
def namePunctuation : List Char :=
  ":;`\"'@#.,|^&<=>+-*/\\%?!~()[]\x7b\x7d".toList

/-- A character that may stand in a name after its first place. -/
def isNamePart (c : Char) : Bool :=
  !(c < ' ' || isBlank c || namePunctuation.contains c)

/-- A character that may start a name. -/
def isNameStart (c : Char) : Bool :=
  isNamePart c && !c.isDigit

/-- A hexadecimal digit. -/
def isHexDigit (c : Char) : Bool :=
  c.isDigit || ('a' ≤ c && c ≤ 'f') || ('A' ≤ c && c ≤ 'F')

/-! ## Scanning -/

/-- The first index from `i` on whose character fails the test. -/
def skipWhile (p : Char → Bool) (cs : Chars) (i : Nat) : Nat :=
  if h : i < cs.size then
    if p cs[i] then skipWhile p cs (i + 1) else i
  else i
termination_by cs.size - i

/-- Whether the word `w` stands at `i`. -/
def startsWith (cs : Chars) (i : Nat) : List Char → Bool
  | [] => true
  | c :: w => cs[i]? == some c && startsWith cs (i + 1) w

/-- The end of the block comment whose body starts at `i`, if it is closed. -/
def blockEnd? (cs : Chars) (i : Nat) : Option Nat :=
  if h : i < cs.size then
    if cs[i] == '*' && cs[i + 1]? == some '/' then some (i + 2) else blockEnd? cs (i + 1)
  else none
termination_by cs.size - i

/-- The end of the comment at `i`, if a comment stands there. -/
def commentEnd? (cs : Chars) (i : Nat) : Option Nat :=
  if startsWith cs i ['/', '/'] then some (skipWhile (!isLineEnd ·) cs (i + 2))
  else if startsWith cs i ['/', '*'] then blockEnd? cs (i + 2)
  else none

/-- The end of the markup comment at `i`, which runs to the end of its line. -/
def markupCommentEnd? (cs : Chars) (i : Nat) : Option Nat :=
  if startsWith cs i ['<', '!', '-', '-'] || startsWith cs i ['-', '-', '>'] then
    some (skipWhile (fun c => !(c == '\n' || c == '\u2028' || c == '\u2029')) cs i)
  else none

/-- The end of the Unicode escape at `i` that may stand in a name: four hexadecimal digits, or any
number of them in braces. -/
def nameEscapeEnd? (cs : Chars) (i : Nat) : Option Nat :=
  if startsWith cs i ['\\', 'u', '{'] then
    let j := skipWhile isHexDigit cs (i + 3)
    if i + 3 < j && cs[j]? == some '}' then some (j + 1) else none
  else if startsWith cs i ['\\', 'u'] then
    let j := skipWhile isHexDigit (cs.extract 0 (i + 6)) (i + 2)
    if j == i + 6 then some j else none
  else none

/-- The end of the part of a name that follows its first character. -/
def nameTail (cs : Chars) : Nat → Nat → Nat
  | 0, i => i
  | fuel + 1, i =>
    match cs[i]? with
    | none => i
    | some c =>
      if isNamePart c then nameTail cs fuel (i + 1)
      else match nameEscapeEnd? cs i with
        | some j => nameTail cs fuel j
        | none => i

/-- The end of the name at `i`, or `i` itself if no name starts there. -/
def nameEnd (cs : Chars) (i : Nat) : Nat :=
  match cs[i]? with
  | none => i
  | some c =>
    if isNameStart c then nameTail cs cs.size (i + 1)
    else match nameEscapeEnd? cs i with
      | some j => nameTail cs cs.size j
      | none => i

/-- The end of a run of digits of one base, with underscores between them. -/
def digitsEnd (p : Char → Bool) (cs : Chars) (i : Nat) : Nat :=
  skipWhile (fun c => p c || c == '_') cs i

/-- The end of a decimal exponent, or `i` if none stands there. -/
def exponentEnd (cs : Chars) (i : Nat) : Nat :=
  if cs[i]? == some 'e' || cs[i]? == some 'E' then
    let j := if cs[i + 1]? == some '+' || cs[i + 1]? == some '-' then i + 2 else i + 1
    let k := digitsEnd Char.isDigit cs j
    if j < k then k else i
  else i

/-- The end of the number at `i`, or `i` if no number starts there. -/
def numberEnd (cs : Chars) (i : Nat) : Nat :=
  let based (p : Char → Bool) : Nat :=
    let j := digitsEnd p cs (i + 2)
    if cs[j]? == some 'n' then j + 1 else j
  match cs[i]?, cs[i + 1]? with
  | some '0', some 'x' | some '0', some 'X' => based isHexDigit
  | some '0', some 'b' | some '0', some 'B' => based fun c => c == '0' || c == '1'
  | some '0', some 'o' | some '0', some 'O' => based fun c => '0' ≤ c && c ≤ '7'
  | some '.', some d => if d.isDigit then exponentEnd cs (digitsEnd Char.isDigit cs (i + 1)) else i
  | some c, _ =>
    if c.isDigit then
      let j := digitsEnd Char.isDigit cs i
      if cs[j]? == some 'n' then j + 1
      else if cs[j]? == some '.' then exponentEnd cs (digitsEnd Char.isDigit cs (j + 1))
      else exponentEnd cs j
    else i
  | none, _ => i

/-- The end of `n` characters that pass the test, if so many stand at `i`. -/
def exactly (n : Nat) (p : Char → Bool) (cs : Chars) (i : Nat) : Option Nat :=
  if (cs.extract i (i + n)).all p && i + n ≤ cs.size then some (i + n) else none

/-- The end of the escape sequence of a string at `i`, where a backslash stands. -/
def escapeEnd? (cs : Chars) (i : Nat) : Option Nat :=
  match cs[i + 1]? with
  | none => none
  | some 'x' => exactly 2 isHexDigit cs (i + 2)
  | some 'u' => nameEscapeEnd? cs i
  | some '\r' => some (if cs[i + 2]? == some '\n' then i + 3 else i + 2)
  | some c =>
    if '0' ≤ c && c ≤ '7' then
      let octal (k : Nat) : Bool := (cs[k]?.map fun d => '0' ≤ d && d ≤ '7').getD false
      some (if octal (i + 2) then (if octal (i + 3) then i + 4 else i + 3) else i + 2)
    else some (i + 2)

/-- The end of the plain text of a template at `i`: it runs to a backquote, a backslash or the
start of a substitution. -/
def templateTextEnd (cs : Chars) (i : Nat) : Nat :=
  if h : i < cs.size then
    if cs[i] == '\x60' || cs[i] == '\\' || (cs[i] == '$' && cs[i + 1]? == some '{') then i
    else templateTextEnd cs (i + 1)
  else i
termination_by cs.size - i

/-- The end of the pattern of a regular expression at `i`: the slash that closes it, which stands
in no class and is not escaped. -/
def patternEnd? (cs : Chars) (inClass : Bool) (i : Nat) : Option Nat :=
  if h : i < cs.size then
    if cs[i] == '\n' then none
    else if cs[i] == '\\' then
      if cs[i + 1]? == some '\n' then none else patternEnd? cs inClass (i + 2)
    else if inClass then patternEnd? cs (cs[i] != ']') (i + 1)
    else if cs[i] == '/' then some i
    else patternEnd? cs (cs[i] == '[') (i + 1)
  else none
termination_by cs.size - i

/-- The end of the text between markup tags at `i`. -/
def markupTextEnd (cs : Chars) (i : Nat) : Nat :=
  skipWhile (fun c => !(['<', '>', '{', '}', '&'].contains c)) cs i

/-- Whether text between markup tags counts: it does unless each of its characters is a line feed
or a space that follows a line feed with only spaces between them. -/
def markupTextCounts : List Char → Bool → Bool
  | [], _ => false
  | c :: cs, afterBreak =>
    if c == '\n' then markupTextCounts cs true
    else if afterBreak && isSpace c then markupTextCounts cs true
    else true

/-- The end of the character reference at `i`, such as `&amp;` or `&#39;`. -/
def referenceEnd? (cs : Chars) (i : Nat) : Option Nat :=
  let closed (least most first last : Nat) : Option Nat :=
    if first + least ≤ last && last ≤ first + most && cs[last]? == some ';' then some (last + 1)
    else none
  if startsWith cs i ['&', '#', 'x'] || startsWith cs i ['&', '#', 'X'] then
    closed 1 6 (i + 3) (skipWhile isHexDigit cs (i + 3))
  else if startsWith cs i ['&', '#'] then closed 1 5 (i + 2) (skipWhile Char.isDigit cs (i + 2))
  else if startsWith cs i ['&'] then closed 1 30 (i + 1) (skipWhile Char.isAlpha cs (i + 1))
  else none

/-! ## Missing semicolons -/

/-- The end of the blanks and comments at `i`; nothing if a slash there starts no comment. -/
def gapEnd? (cs : Chars) : Nat → Nat → Option Nat
  | 0, i => some i
  | fuel + 1, i =>
    let j := skipWhile isSpace cs i
    if cs[j]? == some '/' then
      match commentEnd? cs j with
      | some k => gapEnd? cs fuel k
      | none => none
    else some j

/-- Whether the token at `i` cannot continue what stands on the line before it. -/
def startsAfresh (cs : Chars) (i : Nat) : Bool :=
  match cs[i]? with
  | none => true
  | some c =>
    if ['\x60', ',', '.', ';', '*', '%', '>', '<', '=', '?', '^', '|', '&', '/', ':'].contains c then
      false
    else if c == '+' then cs[i + 1]? == some '+'
    else if c == '-' then cs[i + 1]? == some '-'
    else if c == '!' then cs[i + 1]? != some '='
    else if startsWith cs i ['i', 'n'] then
      let alphabetic (k : Nat) : Bool := (cs[k]?.map Char.isAlpha).getD false
      alphabetic (i + 2) &&
        (!startsWith cs (i + 2) ['s', 't', 'a', 'n', 'c', 'e', 'o', 'f'] || alphabetic (i + 10))
    else true

/-- The rule for a missing semicolon: a statement may end at `i` if the text ends there, if a
closing brace follows, or if a line ends there and the next token cannot continue the statement. -/
def lineEndCloses (cs : Chars) (i : Nat) : Bool :=
  let j := skipWhile (fun c => isSpace c && c != '\n') cs i
  match cs[j]? with
  | none | some '}' => true
  | some '\n' =>
    match gapEnd? cs cs.size (j + 1) with
    | some k => startsAfresh cs k
    | none => false
  | some _ => false

end ScriptSurvey.Syntax
