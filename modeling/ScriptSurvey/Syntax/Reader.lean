import ScriptSurvey.Syntax.Node
import ScriptSurvey.Syntax.Lexeme

/-!
# Readers

A reader consumes characters of a script and gathers the nodes it reads. It fails without effect,
so that alternatives are tried in order with `<|>`. The nodes gathered so far are the children of
the node being built.

Comments belong to the node that is being built where they stand: `gap` gathers the comments in
front of a token, and `node` passes the gap in front of its first token *before* it starts to
gather children, so a comment becomes a child of the smallest node around it that has a token on
both sides of it.

* `node`, `wrap` and `leaf` build nodes; `field` names the nodes that a reader gathers.
* `token` and `word` read punctuation and words.
* `semicolon` reads the end of a statement, written or implied.
-/

namespace ScriptSurvey.Syntax

/-- What a reader may consult. -/
structure Setting where
  /-- The characters of the script. -/
  chars : Chars
  /-- The place of each character, and of the end. -/
  points : Array Point
  /-- Whether markup elements are expressions; otherwise angle brackets hold a type assertion. -/
  markup : Bool
  /-- Whether a line end may close the statement being read. -/
  breaks : Bool := true
  /-- Whether the expression being read is the middle one of a conditional expression. -/
  middle : Bool := false

/-- How far the text is read, and the nodes gathered so far, the latest first. -/
structure Cursor where
  pos : Nat := 0
  gathered : List Node := []

/-- Reads a part of a script; `none` means that the text does not fit. -/
abbrev Reader := ReaderT Setting (StateT Cursor Option)

namespace Reader

/-! ## Looking ahead -/

/-- The index of the next character. -/
def position : Reader Nat :=
  return (← get).pos

/-- The character `k` places ahead. -/
def peek (k : Nat := 0) : Reader (Option Char) :=
  return (← read).chars[(← get).pos + k]?

/-- Goes on only if the condition holds. -/
def ensure (b : Bool) : Reader Unit :=
  if b then pure () else failure

/-- Moves to the index `i`. -/
def moveTo (i : Nat) : Reader Unit :=
  modify fun c => { c with pos := i }

/-- Adds a node to those gathered. -/
def gather (n : Node) : Reader Unit :=
  modify fun c => { c with gathered := n :: c.gathered }

/-- Runs a reader if it succeeds, and says whether it did. -/
def attempt (p : Reader Unit) : Reader Bool :=
  (do p; pure true) <|> pure false

/-- Whether a reader would succeed here; nothing is consumed. -/
def ahead (p : Reader Unit) : Reader Bool :=
  fun s c => some ((p s c).isSome, c)

/-- What a reader gives here; nothing is consumed. -/
def lookahead (p : Reader α) : Reader α := do
  let before ← get
  let a ← p
  set before
  pure a

/-- Goes on only if the reader would fail here. -/
def notAhead (p : Reader Unit) : Reader Unit := do
  ensure !(← ahead p)

/-- Runs a reader at most `n` times, as long as it succeeds. -/
def atMost (p : Reader Unit) : Nat → Reader Unit
  | 0 => pure ()
  | n + 1 => do if ← attempt p then atMost p n

/-- Runs a reader as long as it succeeds. -/
def many (p : Reader Unit) : Reader Unit := do
  atMost p ((← read).chars.size + 1)

/-- Runs the first reader of a list that succeeds. -/
def choice : List (Reader Unit) → Reader Unit
  | [] => failure
  | p :: ps => p <|> choice ps

/-! ## Building nodes -/

/-- The text between two indices. -/
def slice (i j : Nat) : Reader String :=
  return String.ofList ((← read).chars.extract i j).toList

/-- The node that covers the text from `i` to here. -/
def covering (kind : String) (i : Nat) (children : List Node) : Reader Node := do
  return { kind, start := (← read).points[i]?.getD {}, text := ← slice i (← position), children }

/-- Runs a reader and returns the nodes it gathers, in order, on their own. -/
def gathering (p : Reader α) : Reader (α × List Node) := do
  let outer := (← get).gathered
  modify fun c => { c with gathered := [] }
  let a ← p
  let inner := (← get).gathered
  modify fun c => { c with gathered := outer }
  return (a, inner.reverse)

/-- Gathers the comment at this place. -/
def comment : Reader Unit := do
  let i ← position
  match commentEnd? (← read).chars i with
  | some j => moveTo j; gather (← covering "comment" i [])
  | none => failure

/-- Passes blanks, and gathers the comments among them. -/
def gap : Reader Unit :=
  let blanks : Reader Unit := do moveTo (skipWhile isBlank (← read).chars (← position))
  do blanks; many (do comment; blanks)

/-- The index of the next token; the gap before it is passed. -/
def here : Reader Nat := do
  gap; position

/-- Builds a node that starts right here; the reader gives the node's kind. -/
def spanning (p : Reader String) : Reader Unit := do
  let i ← position
  let (kind, children) ← gathering p
  gather (← covering kind i children)

/-- Builds a node of a known kind that starts right here. -/
def span (kind : String) (p : Reader Unit) : Reader Unit :=
  spanning (do p; pure kind)

/-- Builds a node from what a reader gathers; the reader gives the node's kind. -/
def built (p : Reader String) : Reader Unit := do
  gap; spanning p

/-- Builds a node of a known kind from what a reader gathers. -/
def node (kind : String) (p : Reader Unit) : Reader Unit := do
  gap; span kind p

/-- Builds a node whose first child is the node gathered last, which starts at `i`, and fills
`first` in the new node. -/
def wrap (kind : String) (i : Nat) (first : Option String) (p : Reader Unit) : Reader Unit := do
  match (← get).gathered with
  | [] => failure
  | n :: rest =>
    modify fun c => { c with gathered := rest }
    let ((), children) ← gathering (do gather { n with field := first }; p)
    gather (← covering kind i children)

/-- Lets the nodes that a reader gathers fill a field; comments fill none. -/
def field (name : String) (p : Reader Unit) : Reader Unit := do
  let ((), nodes) ← gathering p
  for n in nodes do
    gather (if n.isComment then n else { n with field := some name })

/-- The node gathered last. -/
def latest : Reader Node := do
  match (← get).gathered with
  | n :: _ => pure n
  | [] => failure

/-- Replaces the node gathered last. -/
def revise (f : Node → Node) : Reader Unit :=
  modify fun c => match c.gathered with
    | n :: rest => { c with gathered := f n :: rest }
    | [] => c

/-! ## Tokens -/

/-- Passes the characters of `s`, which must stand right here. -/
def literally (s : String) : Reader Unit := do
  let i ← position
  ensure (startsWith (← read).chars i s.toList)
  moveTo (i + s.length)

/-- Reads a punctuation token. -/
def token (s : String) : Reader Unit := do
  gap; literally s

/-- Reads a punctuation token that none of the characters `stops` may follow. -/
def tokenBut (s : String) (stops : List Char) : Reader Unit := do
  token s
  match ← peek with
  | some c => ensure !(stops.contains c)
  | none => pure ()

/-- Gathers a token that fills a field, as an anonymous node. -/
def marked (name : String) (p : Reader Unit) : Reader Unit := do
  field name (node "" p)
  revise fun n => { n with kind := n.text, named := false }

/-- Reads a name that is no part of a longer one, and returns it. -/
def anyName : Reader String := do
  let i ← here
  let j := nameEnd (← read).chars i
  ensure (i < j)
  moveTo j
  slice i j

/-- Reads the word `w`. -/
def word (w : String) : Reader Unit := do
  ensure ((← anyName) == w)

/-- Reads one of the words. -/
def oneOf (ws : List String) : Reader Unit := do
  ensure (ws.contains (← anyName))

/-- The character that the next token starts with. -/
def upcoming : Reader (Option Char) :=
  lookahead (do gap; peek)

/-- Goes on only if the next token stands on the same line. -/
def sameLine : Reader Unit := do
  let i ← position
  let j ← lookahead here
  ensure !(((← read).chars.extract i j).contains '\n')

/-- A line end that may close a statement. Comments that stand before it are gathered. -/
def impliedEnd : Reader Unit := do
  let cs := (← read).chars
  let step : Reader Unit := do
    ensure !(lineEndCloses cs (← position))
    moveTo (skipWhile isBlank cs (← position))
    comment
  many step
  ensure (lineEndCloses cs (← position))

/-- The end of a statement, written or implied. -/
def semicolon : Reader Unit :=
  impliedEnd <|> token ";"

/-- Reads in a place where no line end closes a statement. -/
def enclosed (p : Reader α) : Reader α :=
  withReader (fun s => { s with breaks := false, middle := false }) p

/-- Reads in a place where line ends may close statements. -/
def opened (p : Reader α) : Reader α :=
  withReader (fun s => { s with breaks := true, middle := false }) p

/-- Reads between parentheses, where no line end closes a statement. -/
def parenthesized (p : Reader Unit) : Reader Unit := do
  token "("; enclosed p; token ")"

/-- Reads between brackets, where no line end closes a statement. -/
def bracketed (p : Reader Unit) : Reader Unit := do
  token "["; enclosed p; token "]"

/-- Reads between braces. -/
def braced (p : Reader Unit) : Reader Unit := do
  token "\x7b"; p; token "\x7d"

/-- Reads parts with commas between them; any part may be left out. -/
def elements (p : Reader Unit) : Reader Unit := do
  discard (attempt p)
  many (do token ","; discard (attempt p))

/-- Reads parts with commas between them, at least one. -/
def sepBy1 (p : Reader Unit) : Reader Unit := do
  p
  many (do token ","; p)

/-- Reads parts with commas between them, and possibly one after the last; there may be none. -/
def listed (p : Reader Unit) : Reader Unit := do
  if ← attempt (sepBy1 p) then
    discard (attempt (token ","))

end Reader

end ScriptSurvey.Syntax
