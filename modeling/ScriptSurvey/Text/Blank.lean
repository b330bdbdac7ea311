/-!
# Blanks

The characters that separate words, in any script, and texts as lines.
-/

namespace ScriptSurvey.Text

/-- A character that separates words or lines. -/
def isSpace (c : Char) : Bool :=
  let n := c.toNat
  (9 ≤ n && n ≤ 13) || (28 ≤ n && n ≤ 32) || n == 0x85 || n == 0xA0 || n == 0x1680 ||
    (0x2000 ≤ n && n ≤ 0x200A) || n == 0x2028 || n == 0x2029 || n == 0x202F || n == 0x205F ||
    n == 0x3000

/-- Characters without those at the end that satisfy `p`. -/
def dropEndWhile (p : Char → Bool) (cs : List Char) : List Char :=
  (cs.reverse.dropWhile p).reverse

/-- The lines of a text. A line ends at a line feed, a carriage return, or one after the other; what
follows the last end is a line only if it is not empty. -/
def lines (cs : List Char) : List (List Char) :=
  go [] cs
where
  go (done : List Char) : List Char → List (List Char)
    | [] => if done.isEmpty then [] else [done.reverse]
    | '\r' :: '\n' :: rest => done.reverse :: go [] rest
    | '\r' :: rest => done.reverse :: go [] rest
    | '\n' :: rest => done.reverse :: go [] rest
    | c :: rest => go (c :: done) rest

end ScriptSurvey.Text
