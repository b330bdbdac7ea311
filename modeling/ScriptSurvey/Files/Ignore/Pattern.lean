import ScriptSurvey.Text.Blank
import ScriptSurvey.Text.Quoted
import ScriptSurvey.Text.Split

/-!
# Ignore patterns

A pattern is a list of segments between slashes. A segment of two stars stands for any number of
path components, a star for any run of characters other than the slash. A pattern also covers
everything below what it matches.

* `Pattern.parse` reads a pattern, `Pattern.covers` says which paths it covers.
* `ignores` lets the last pattern that covers a path decide.
-/

namespace ScriptSurvey.Ignore

/-! ## Sets of characters -/

/-- A set of characters between brackets: ranges, the complement of which may be meant. -/
structure CharSet where
  negated : Bool
  ranges : List (Char × Char)
deriving DecidableEq

/-- Whether a character is in a set. -/
def CharSet.contains (set : CharSet) (c : Char) : Bool :=
  set.negated != set.ranges.any fun (low, high) => low ≤ c && c ≤ high

/-- Why a pattern could not be read. -/
inductive PatternFault where
  | invalid (pattern : String)
  | range (low high : Char) (place : Nat)
deriving DecidableEq, Repr

/-- The wording of a fault in a pattern. -/
def PatternFault.message : PatternFault → String
  | .invalid pattern => "Invalid git pattern: " ++ Text.quoted pattern
  | .range low high place =>
    "bad character range " ++ low.toString ++ "-" ++ high.toString ++ s!" at position {place}"

/-- The width of a character of a set in the spelled-out form, in which backslashes are doubled. -/
def setWidth (c : Char) : Nat :=
  if c = '\\' then 2 else 1

/-- The ranges of a set. A hyphen between two characters makes a range. -/
def ranges : List Char → List (Char × Char)
  | [] => []
  | low :: '-' :: high :: rest => (low, high) :: ranges rest
  | c :: rest => (c, c) :: ranges rest

/-- The ranges of a set that are the wrong way round; `place` is where the set stands. -/
def rangeFaults (place : Nat) : List Char → List PatternFault
  | [] => []
  | low :: '-' :: high :: rest =>
    let later := rangeFaults (place + setWidth low + 1 + setWidth high) rest
    if high < low then .range low high place :: later else later
  | c :: rest => rangeFaults (place + setWidth c) rest

/-- The body of a set and what follows its closing bracket. A closing bracket at the very start
belongs to the body. -/
def setBody? : List Char → Option (List Char × List Char)
  | ']' :: rest => (close rest).map fun (body, after) => (']' :: body, after)
  | cs => close cs
where
  close (cs : List Char) : Option (List Char × List Char) :=
    match cs.span (· != ']') with
    | (body, _ :: after) => some (body, after)
    | (_, []) => none

/-! ## Items of a pattern -/

/-- What a pattern is made of once its segments are spelled out. -/
inductive Item where
  /-- One given character. -/
  | exactly (c : Char)
  /-- One character other than a slash. -/
  | any
  /-- A character of a set. -/
  | oneOf (set : CharSet)
  /-- A run of characters other than slashes. -/
  | run
  /-- A run of at least one character other than slashes. -/
  | component
  /-- Any number of components at the start, each with its slash. -/
  | leading
  /-- Any number of components on the way, each after a slash. -/
  | inner
  /-- The end of the path or of a component. -/
  | finish
deriving DecidableEq

/-- The characters that are written after a backslash when a pattern is spelled out. -/
def isSpecial (c : Char) : Bool :=
  "()[]\x7b\x7d?*+-|^$\\.&~# \t\n\r\x0b\x0c".toList.contains c

/-- The width of a character in the spelled-out form. -/
def charWidth (c : Char) : Nat :=
  if isSpecial c then 2 else 1

/-- The spelled-out form of a part of a pattern: its items, where they end, and what is wrong with
the ranges among them. -/
structure Spelled where
  items : List Item
  stop : Nat
  faults : List PatternFault := []

/-- A spelled-out form with items in front. -/
def Spelled.after (items : List Item) (faults : List PatternFault) (rest : Spelled) : Spelled :=
  { rest with items := items ++ rest.items, faults := faults ++ rest.faults }

/-- The items of a segment, the spelled-out form of which starts at `place`; none if a bracket is
not closed. A backslash takes the next character as it is. The count `fuel` bounds the items. -/
def segmentItems (pattern : String) :
    Nat → Nat → List Char → Except PatternFault (Option Spelled)
  | 0, place, _ => .ok (some ⟨[], place, []⟩)
  | _ + 1, place, [] => .ok (some ⟨[], place, []⟩)
  | fuel + 1, place, c :: rest =>
    let onward (width : Nat) (item : Item) (rest : List Char) (faults : List PatternFault := []) :
        Except PatternFault (Option Spelled) := do
      return (← segmentItems pattern fuel (place + width) rest).map (·.after [item] faults)
    match c with
    | '*' => onward 5 .run rest
    | '?' => onward 4 .any rest
    | '\\' =>
      match rest with
      | [] => .error (.invalid pattern)
      | escaped :: rest => onward (charWidth escaped) (.exactly escaped) rest
    | '[' =>
      let negated := rest.head? == some '!' || rest.head? == some '^'
      let opening := if negated then 2 else 1
      match setBody? (if negated then rest.drop 1 else rest) with
      | none => .ok none
      | some (body, after) =>
        onward (opening + body.foldl (· + setWidth ·) 0 + 1) (.oneOf ⟨negated, ranges body⟩) after
          (rangeFaults (place + opening) body)
    | c => onward (charWidth c) (.exactly c) rest

/-! ## Matching -/

/-- `rest` holds somewhere after characters that satisfy `p`. -/
def afterRun (p : Char → Bool) (rest : List Char → Bool) : List Char → Bool
  | [] => rest []
  | c :: cs => rest (c :: cs) || (p c && afterRun p rest cs)

/-- `rest` holds after at least one character that satisfies `p`. -/
def afterSome (p : Char → Bool) (rest : List Char → Bool) : List Char → Bool
  | [] => false
  | c :: cs => p c && afterRun p rest cs

/-- A character other than a slash. -/
def inComponent (c : Char) : Bool :=
  c != '/'

/-- A character on a line. -/
def onLine (c : Char) : Bool :=
  c != '\n'

/-- `rest` holds after a slash. -/
def afterSlash (rest : List Char → Bool) : List Char → Bool
  | '/' :: cs => rest cs
  | _ => false

/-- Whether a path starts as the items say. -/
def matchesFrom : List Item → List Char → Bool
  | [], _ => true
  | .exactly c :: items, cs =>
    match cs with
    | d :: rest => c == d && matchesFrom items rest
    | [] => false
  | .any :: items, cs =>
    match cs with
    | d :: rest => inComponent d && matchesFrom items rest
    | [] => false
  | .oneOf set :: items, cs =>
    match cs with
    | d :: rest => set.contains d && matchesFrom items rest
    | [] => false
  | .run :: items, cs => afterRun inComponent (matchesFrom items) cs
  | .component :: items, cs => afterSome inComponent (matchesFrom items) cs
  | .leading :: items, cs =>
    matchesFrom items cs || afterSome onLine (afterSlash (matchesFrom items)) cs
  | .inner :: items, cs =>
    matchesFrom items cs || afterSlash (afterSome onLine (matchesFrom items)) cs
  | .finish :: items, cs =>
    afterSlash (matchesFrom items) cs || ((cs.isEmpty || cs == ['\n']) && matchesFrom items cs)

/-! ## Patterns -/

/-- What a pattern covers. -/
inductive Cover where
  /-- Every path. -/
  | everything
  /-- Every path with a slash in it. -/
  | nested
  /-- The paths that start as the items say. -/
  | items (items : List Item)
deriving DecidableEq

/-- A pattern: what it covers, and whether that is ignored or kept. -/
structure Pattern where
  keeps : Bool
  cover : Cover
deriving DecidableEq

/-- Whether a pattern covers a path. Folders are given with a slash at the end. -/
def Pattern.covers (p : Pattern) (path : String) : Bool :=
  match p.cover with
  | .everything => true
  | .nested => path.toList.contains '/'
  | .items items => matchesFrom items path.toList

/-- The segment that stands for any number of components. -/
def manyComponents : String := "**"

/-- Segments with each run of double stars made one. -/
def collapse : List String → List String
  | [] => []
  | segment :: rest =>
    if segment = manyComponents && rest.head? == some manyComponents then collapse rest
    else segment :: collapse rest

/-- The segments of a pattern as they hold from the top. A pattern of a single segment, with or
without a slash at its end, holds at any depth; one with a slash at its end stands for what is
below. -/
def normalize (segments : List String) : List String :=
  let anchored :=
    match segments with
    | "" :: rest => rest
    | [only] => if only = manyComponents then [only] else [manyComponents, only]
    | [only, ""] => if only = manyComponents then [only, ""] else [manyComponents, only, ""]
    | segments => segments
  let closed := if anchored.getLast? == some "" then anchored.dropLast ++ [manyComponents]
    else anchored
  collapse closed

/-- The items of segments, the spelled-out form of which starts at `place`. The first segment is
told apart from the others, and `slash` says whether a slash goes before the next one. -/
def itemsOf (pattern : String) (first slash : Bool) (place : Nat) :
    List String → Except PatternFault (Option Spelled)
  | [] => .ok (some ⟨[], place, []⟩)
  | segment :: rest => do
    let last := rest.isEmpty
    if segment = manyComponents then
      if first then
        return (← itemsOf pattern false false (place + 8) rest).map (·.after [.leading] [])
      else if last then return some ⟨[.exactly '/'], place + 1, []⟩
      else return (← itemsOf pattern false true (place + 8) rest).map (·.after [.inner] [])
    else
      let front : List Item := if slash then [.exactly '/'] else []
      let start := place + front.length
      let spelled ←
        if segment = "*" then pure (some ⟨[.component], start + 5, []⟩)
        else segmentItems pattern segment.length start segment.toList
      match spelled with
      | none => return none
      | some ⟨middle, stop, faults⟩ =>
        let back : List Item := if last then [.finish] else []
        return (← itemsOf pattern false true stop rest).map
          (·.after (front ++ middle ++ back) faults)

/-- What the segments of a pattern cover; none if the pattern means nothing. A range the wrong way
round matters only in a pattern that means something. -/
def coverOf (pattern : String) (belowOnly : Bool) (segments : List String) :
    Except PatternFault (Option Cover) :=
  match segments with
  | [] => .error (.invalid pattern)
  | ["**"] => .ok (some (if belowOnly then .nested else .everything))
  | ["**", "*"] => .ok (some .everything)
  | ["**", "*", "**"] => .ok (some .nested)
  | segments => do
    match ← itemsOf pattern true false 1 segments with
    | none => return none
    | some spelled =>
      match spelled.faults with
      | fault :: _ => .error fault
      | [] => return some (.items spelled.items)

namespace Pattern

/-- The pattern that a text spells. Blanks at its end do not count unless a backslash stands before
the last one; an empty text, a comment and a slash alone spell none. -/
def parse (text : String) : Except PatternFault (Option Pattern) :=
  let cs := text.toList
  let cs := if [' ', '\\'].isPrefixOf cs.reverse then cs else Text.dropEndWhile Text.isSpace cs
  if cs.isEmpty || cs.head? == some '#' || cs == ['/'] then .ok none
  else
    let keeps := cs.head? == some '!'
    let segments := Text.splitAt '/' (String.ofList (if keeps then cs.drop 1 else cs))
    let belowOnly := segments.getLast? == some ""
    return (← coverOf text belowOnly (normalize segments)).map ({ keeps, cover := · })

/-- The patterns that texts spell, in order. -/
def parseAll (texts : List String) : Except PatternFault (List Pattern) :=
  return (← texts.mapM parse).filterMap id

end Pattern

/-- A path as patterns see it: without a dot and slash, or a slash, at its start. -/
def shown (path : String) : String :=
  match path.toList with
  | '/' :: rest => String.ofList rest
  | '.' :: '/' :: rest => String.ofList rest
  | _ => path

/-- Whether a path is ignored: the last pattern that covers it decides. -/
def ignores (patterns : List Pattern) (path : String) : Bool :=
  match patterns.reverse.find? (·.covers (shown path)) with
  | some pattern => !pattern.keeps
  | none => false

end ScriptSurvey.Ignore
