import Mathlib.Data.List.DropRight
import ScriptSurvey.Files.Ignore.Line
import ScriptSurvey.Proofs.Files.Names
import ScriptSurvey.Proofs.Files.Patterns

/-!
# Lines of the ignore file at the top

A line of the ignore file at the top speaks of the top folder already, so the pattern that it is
rebased to should be the one that the line spells itself. It is, but for the slash in front, which
is cut off (`rebase_top`). A place of several segments does not need it. A single segment does: it
holds at every depth without (`AtEveryDepth`), and what stands behind the slash may be a mark.

* `Line` is a plain line in its parts, `PlainLine.exists_line` takes a line apart.
* `rebase_line` says what a line is rebased to, for an ignore file in any folder.
* `Line.parse_chars` and `Line.parse_text` give the segments of the line and of its pattern.
-/

namespace ScriptSurvey.Ignore

open Pattern

/-! ## Plain lines -/

/-- The characters of a line after the mark that negates it. -/
def unsigned (line : List Char) : List Char :=
  if line.head? = some '!' then line.drop 1 else line

/-- A line that names something. It is no comment, has no blank at its ends and no two slashes in a
row. -/
structure PlainLine (line : String) : Prop where
  names : ∃ c ∈ unsigned line.toList, c ≠ '/'
  slashes : ¬ ['/', '/'] <:+: line.toList
  first : ∀ c, line.toList.head? = some c → Text.isSpace c = false ∧ c ≠ '#'
  last : ∀ c, line.toList.getLast? = some c → Text.isSpace c = false

/-- A plain line in its parts: whether it is negated, whether a slash stands in front, and the
place it names. -/
structure Line where
  negated : Bool
  anchored : Bool
  place : List Char
  ne_nil : place ≠ []
  head_ne : place.head? ≠ some '/'
  slashes : ¬ ['/', '/'] <:+: place
  first : negated = false → anchored = false → ∀ c, place.head? = some c →
    Text.isSpace c = false ∧ c ≠ '#' ∧ c ≠ '!'
  last : ∀ c, place.getLast? = some c → Text.isSpace c = false

/-- A mark in front, which may be missing. -/
def mark (c : Char) (present : Bool) : List Char :=
  if present then [c] else []

theorem exists_mark (c : Char) (cs : List Char) :
    ∃ present rest, cs = mark c present ++ rest ∧ (present = false → rest.head? ≠ some c) := by
  by_cases h : cs.head? = some c
  · obtain ⟨rest, rfl⟩ := List.head?_eq_some_iff.mp h
    exact ⟨true, rest, rfl, nofun⟩
  · exact ⟨false, cs, rfl, fun _ => h⟩

theorem head?_mark {c : Char} {present : Bool} {rest : List Char}
    (h : present = false → rest.head? ≠ some c) :
    (mark c present ++ rest).head? = some c ↔ present = true := by
  cases present with
  | true => simp [mark]
  | false => simpa [mark] using h rfl

/-- The characters of a line. -/
def Line.chars (l : Line) : List Char :=
  mark '!' l.negated ++ (mark '/' l.anchored ++ l.place)

theorem unsigned_mark {negated : Bool} {body : List Char}
    (h : negated = false → body.head? ≠ some '!') : unsigned (mark '!' negated ++ body) = body := by
  rw [unsigned]
  cases negated with
  | true => rfl
  | false => exact if_neg (h rfl)

/-- The parts of a plain line. -/
theorem PlainLine.exists_line {line : String} (h : PlainLine line) :
    ∃ l : Line, line.toList = l.chars := by
  obtain ⟨⟨d, hd, hne⟩, slashes, first, last⟩ := h
  obtain ⟨negated, body, hline, hbody⟩ := exists_mark '!' line.toList
  obtain ⟨anchored, place, rfl, hplace⟩ := exists_mark '/' body
  rw [hline] at slashes first last
  rw [hline, unsigned_mark hbody] at hd
  have hd : d ∈ place := by
    cases anchored with
    | true => simpa [mark, hne] using hd
    | false => exact hd
  have ne_nil : place ≠ [] := List.ne_nil_of_mem hd
  refine ⟨⟨negated, anchored, place, ne_nil, ?_, ?_, ?_, ?_⟩, hline⟩
  · cases anchored with
    | true =>
      intro hhead
      obtain ⟨rest, rfl⟩ := List.head?_eq_some_iff.mp hhead
      exact slashes ⟨mark '!' negated, rest, by simp [mark]⟩
    | false => exact hplace rfl
  · have inner : place <:+ mark '!' negated ++ (mark '/' anchored ++ place) :=
      (List.suffix_append _ _).trans (List.suffix_append _ _)
    exact fun h => slashes (h.trans inner.isInfix)
  · rintro rfl rfl c hc
    obtain ⟨blank, comment⟩ := first c hc
    exact ⟨blank, comment, fun h => hbody rfl (h ▸ hc)⟩
  · intro c hc
    apply last
    rw [List.getLast?_append_of_ne_nil _ (by simp [ne_nil]),
      List.getLast?_append_of_ne_nil _ ne_nil, hc]

/-! ## Segments -/

section Segments

variable {name : List Char}

theorem splitOnP_name (h : '/' ∉ name) : name.splitOnP (· == '/') = [name] :=
  List.splitOnP_eq_singleton fun _ hc => beq_false_of_ne (ne_of_mem_of_not_mem hc h)

theorem splitAt_name (h : '/' ∉ name) :
    Text.splitAt '/' (String.ofList name) = [String.ofList name] := by
  rw [Text.splitAt, Text.pieces_eq_splitOnP, String.toList_ofList, splitOnP_name h,
    List.map_singleton]

theorem splitAt_name_slash (h : '/' ∉ name) (rest : List Char) :
    Text.splitAt '/' (String.ofList (name ++ '/' :: rest)) =
      String.ofList name :: Text.splitAt '/' (String.ofList rest) := by
  simp only [Text.splitAt, Text.pieces_eq_splitOnP, String.toList_ofList]
  rw [List.splitOnP_append_cons _ _ (by rfl), splitOnP_name h, List.singleton_append,
    List.map_cons]

theorem intercalate_splitAt (cs : List Char) :
    ['/'].intercalate ((Text.splitAt '/' (String.ofList cs)).map String.toList) = cs := by
  have cut : (Text.splitAt '/' (String.ofList cs)).map String.toList = cs.splitOn '/' := by
    simp [Text.splitAt, Text.pieces_eq_splitOnP, List.splitOn, Function.comp_def]
  rw [cut, List.intercalate_splitOn]

theorem splitAt_ne_nil (text : String) : Text.splitAt '/' text ≠ [] := by
  simp [Text.splitAt, Text.pieces_eq_splitOnP]

theorem splitAt_eq_empty_iff {cs : List Char} :
    Text.splitAt '/' (String.ofList cs) = [""] ↔ cs = [] := by
  constructor
  · intro h
    simpa [h] using (intercalate_splitAt cs).symm
  · rintro rfl
    rfl

theorem exists_splitAt_eq_cons {c : Char} (hc : c ≠ '/') (cs : List Char) :
    ∃ x more, x ≠ "" ∧ Text.splitAt '/' (String.ofList (c :: cs)) = x :: more := by
  obtain ⟨front, tail, hne, hcs, hfront, rfl | ⟨below, rfl⟩⟩ := exists_component hc cs
  · rw [List.append_nil] at hcs
    exact ⟨.ofList front, [], by simpa using hne, by rw [hcs, splitAt_name hfront]⟩
  · exact ⟨.ofList front, _, by simpa using hne, by rw [hcs, splitAt_name_slash hfront]⟩

end Segments

namespace Line

variable {l : Line}

/-- The segments of the place that a line names. -/
def segments (l : Line) : List String :=
  Text.splitAt '/' (String.ofList l.place)

/-- Whether a line names a single segment, with or without a slash at its end. -/
def IsName (l : Line) : Prop :=
  ∃ name, '/' ∉ name ∧ (l.place = name ∨ l.place = name ++ ['/'])

theorem exists_place_eq (l : Line) : ∃ c cs, l.place = c :: cs ∧ c ≠ '/' := by
  obtain ⟨c, cs, hplace⟩ := List.exists_cons_of_ne_nil l.ne_nil
  exact ⟨c, cs, hplace, fun h => l.head_ne (by rw [hplace, h]; rfl)⟩

theorem isName_or : l.IsName ∨ ∃ name c cs, name ≠ [] ∧ '/' ∉ name ∧ c ≠ '/' ∧
    l.place = name ++ '/' :: c :: cs := by
  obtain ⟨d, ds, hplace, hd⟩ := l.exists_place_eq
  obtain ⟨name, tail, hne, hds, hname, rfl | ⟨below, rfl⟩⟩ := exists_component hd ds
  · exact .inl ⟨name, hname, .inl (by rw [hplace, hds, List.append_nil])⟩
  · cases below with
    | nil => exact .inl ⟨name, hname, .inr (hplace.trans hds)⟩
    | cons c cs =>
      refine .inr ⟨name, c, cs, hne, hname, ?_, hplace.trans hds⟩
      rintro rfl
      exact l.slashes ⟨name, cs, by simp [hplace, hds]⟩

theorem segments_ne_nil (l : Line) : l.segments ≠ [] :=
  splitAt_ne_nil _

theorem exists_isSingle (h : l.IsName) : ∃ x, IsSingle x l.segments := by
  obtain ⟨name, hname, hplace | hplace⟩ := h
  · refine ⟨String.ofList name, ?_, .inl ?_⟩
    · simpa [← hplace] using l.ne_nil
    · rw [segments, hplace, splitAt_name hname]
  · refine ⟨String.ofList name, ?_, .inr ?_⟩
    · intro h
      obtain rfl : name = [] := by simpa using h
      exact l.head_ne (by rw [hplace]; rfl)
    · rw [segments, hplace, splitAt_name_slash hname]
      rfl

theorem exists_segments_eq (h : ¬ l.IsName) :
    ∃ x y more, x ≠ "" ∧ y ≠ "" ∧ l.segments = x :: y :: more := by
  obtain ⟨name, c, cs, hne, hname, hc, hplace⟩ := isName_or.resolve_left h
  obtain ⟨y, more, hy, hcs⟩ := exists_splitAt_eq_cons hc cs
  exact ⟨String.ofList name, y, more, by simpa using hne, hy,
    by rw [segments, hplace, splitAt_name_slash hname, hcs]⟩

/-- Whether a slash stands before the end of the place. -/
def spans (l : Line) : Bool :=
  (Text.dropEndWhile (· == '/') l.place).contains '/'

theorem spans_iff : l.spans ↔ ¬ l.IsName := by
  rw [spans, List.contains_iff_mem]
  constructor
  · rintro h ⟨name, hname, hplace⟩
    have short : Text.dropEndWhile (· == '/') l.place = name.rdropWhile (· == '/') := by
      obtain hplace | hplace := hplace
      · rw [hplace]
        rfl
      · rw [hplace]
        exact List.rdropWhile_concat_pos _ name '/' rfl
    exact hname ((List.rdropWhile_prefix _ name).mem (short ▸ h))
  · intro h
    obtain ⟨name, c, cs, -, -, hc, hplace⟩ := isName_or.resolve_left h
    have stays : ¬ ((c :: cs).reverse.dropWhile (· == '/')).isEmpty := by
      rw [List.isEmpty_iff, List.dropWhile_eq_nil_iff]
      exact fun all => hc (by simpa using all c (by simp))
    rw [hplace, List.append_cons, Text.dropEndWhile, List.reverse_append, List.dropWhile_append,
      if_neg stays]
    simp

/-! ## The pattern of a line -/

theorem getLast?_append_place (l : Line) (front : List Char) :
    (front ++ l.place).getLast? = l.place.getLast? :=
  List.getLast?_append_of_ne_nil _ l.ne_nil

/-- A line without the mark that negates it does not start with a mark. -/
theorem ne_of_head?_body (l : Line) (hn : l.negated = false) {c : Char}
    (hc : (mark '/' l.anchored ++ l.place).head? = some c) :
    Text.isSpace c = false ∧ c ≠ '#' ∧ c ≠ '!' := by
  cases ha : l.anchored with
  | true =>
    rw [ha] at hc
    cases hc
    decide
  | false =>
    rw [ha] at hc
    exact l.first hn ha c hc

theorem exists_head?_chars (l : Line) :
    ∃ c, l.chars.head? = some c ∧ Text.isSpace c = false ∧ c ≠ '#' ∧ (c = '!' ↔ l.negated) := by
  rw [chars]
  cases hn : l.negated with
  | true => exact ⟨'!', rfl, by decide, by decide, by simp⟩
  | false =>
    obtain ⟨c, cs, hbody⟩ : ∃ c cs, mark '/' l.anchored ++ l.place = c :: cs :=
      List.exists_cons_of_ne_nil (by simp [l.ne_nil])
    have hc : (mark '/' l.anchored ++ l.place).head? = some c := by rw [hbody]; rfl
    obtain ⟨blank, comment, sign⟩ := l.ne_of_head?_body hn hc
    exact ⟨c, hc, blank, comment, by simpa using sign⟩

theorem dropWhile_slash (l : Line) :
    (mark '/' l.anchored ++ l.place).dropWhile (· == '/') = l.place := by
  obtain ⟨c, cs, hplace, hc⟩ := l.exists_place_eq
  rw [hplace]
  cases l.anchored <;> simp [mark, hc]

end Line

/-- The characters in front of a place that let it hold at every depth. -/
def anywhere : List Char :=
  ['*', '*', '/']

theorem dropEndWhile_eq_self {p : Char → Bool} {cs : List Char}
    (h : ∀ c, cs.getLast? = some c → p c = false) : Text.dropEndWhile p cs = cs := by
  refine List.rdropWhile_eq_self_iff.mpr fun hl hp => ?_
  simp [h _ (List.getLast?_eq_some_getLast hl)] at hp

/-- A line is taken apart and its place put below the folder of the file. -/
theorem rebase_line (l : Line) (base : String) :
    rebase (String.ofList l.chars) base = some (String.ofList (mark '!' l.negated ++
      (if base = "" then [] else base.toList ++ ['/']) ++
      (if l.anchored || l.spans then [] else anywhere) ++ l.place)) := by
  obtain ⟨c, hc, blank, comment, sign⟩ := l.exists_head?_chars
  have kept : Text.dropEndWhile (· == '\n') l.chars = l.chars := by
    refine dropEndWhile_eq_self fun d hd => ?_
    rw [Line.chars, ← List.append_assoc, l.getLast?_append_place] at hd
    have hd := l.last d hd
    rw [beq_eq_false_iff_ne]
    rintro rfl
    exact absurd hd (by decide)
  have trimmed : l.chars.dropWhile Text.isSpace = l.chars := by
    obtain ⟨cs, hcs⟩ := List.head?_eq_some_iff.mp hc
    rw [hcs, List.dropWhile_cons_of_neg (by simp [blank])]
  have unmarked : (if l.negated then l.chars.drop 1 else l.chars) =
      mark '/' l.anchored ++ l.place := by
    rw [Line.chars]
    cases l.negated <;> rfl
  have negated : (some c == some '!') = l.negated := by
    rw [Bool.eq_iff_iff, ← sign]
    simp
  have anchored : ((mark '/' l.anchored ++ l.place).head? == some '/') = l.anchored := by
    rw [Bool.eq_iff_iff, beq_iff_eq]
    exact head?_mark fun _ => l.head_ne
  have noted : ¬ ((some c).isNone || some c == some '#') := by
    simpa using comment
  unfold rebase
  simp only [String.toList_ofList, kept, trimmed, hc, negated, unmarked, anchored,
    l.dropWhile_slash, if_neg noted]
  rfl

/-- The characters of a text that count: blanks at its end do not, unless a backslash stands before
the last one. -/
def significant (cs : List Char) : List Char :=
  if [' ', '\\'].isPrefixOf cs.reverse then cs else Text.dropEndWhile Text.isSpace cs

/-- What a text spells. -/
theorem parse_significant {text : String} {cs : List Char} (h : significant text.toList = cs) :
    parse text =
      if cs = [] ∨ cs.head? = some '#' ∨ cs = ['/'] then .ok none
      else ofSegments text (cs.head? == some '!')
        (Text.splitAt '/' (String.ofList (unsigned cs))) := by
  have nothing : (cs.isEmpty || cs.head? == some '#' || cs == ['/']) ↔
      cs = [] ∨ cs.head? = some '#' ∨ cs = ['/'] := by
    simp [or_assoc]
  rw [significant] at h
  unfold parse
  simp only [h, nothing, beq_iff_eq]
  rfl

/-- What a text without a blank at its end spells. -/
theorem parse_eq {cs : List Char} (hne : cs ≠ [])
    (last : ∀ c, cs.getLast? = some c → Text.isSpace c = false) :
    parse (String.ofList cs) =
      if cs.head? = some '#' ∨ cs = ['/'] then .ok none
      else ofSegments (String.ofList cs) (cs.head? == some '!')
        (Text.splitAt '/' (String.ofList (unsigned cs))) := by
  have all : significant (String.ofList cs).toList = cs := by
    rw [significant, String.toList_ofList, dropEndWhile_eq_self last, ite_self]
  rw [parse_significant all]
  simp only [hne, false_or]

theorem keeps_of_ofSegments {text : String} {keeps : Bool} {segments : List String} {p : Pattern}
    (h : ofSegments text keeps segments = .ok (some p)) : p.keeps = keeps := by
  rw [ofSegments] at h
  cases hc : coverOf text (segments.getLast? == some "") (normalize segments) with
  | error e => simp [hc, bind, Except.bind] at h
  | ok cover =>
    cases cover with
    | none => simp [hc, bind, Except.bind, pure, Except.pure] at h
    | some cover =>
      rw [hc] at h
      cases h
      rfl

namespace Line

variable (l : Line)

/-- The pattern that the place of a line spells after other characters. -/
theorem parse_place (negated : Bool) (front : List Char)
    (first : negated = false → ∀ c, (front ++ l.place).head? = some c → c ≠ '!' ∧ c ≠ '#') :
    parse (String.ofList (mark '!' negated ++ (front ++ l.place))) =
      ofSegments (String.ofList (mark '!' negated ++ (front ++ l.place))) negated
        (Text.splitAt '/' (String.ofList (front ++ l.place))) := by
  obtain ⟨d, ds, hplace, hd⟩ := l.exists_place_eq
  have sign : negated = false → (front ++ l.place).head? ≠ some '!' :=
    fun hn h => (first hn _ h).1 rfl
  have keeps : ((mark '!' negated ++ (front ++ l.place)).head? == some '!') = negated := by
    rw [Bool.eq_iff_iff, beq_iff_eq]
    exact head?_mark sign
  have last : ∀ c, (mark '!' negated ++ (front ++ l.place)).getLast? = some c →
      Text.isSpace c = false := by
    intro c hc
    rw [← List.append_assoc, l.getLast?_append_place] at hc
    exact l.last c hc
  rw [parse_eq (by simp [l.ne_nil]) last, keeps, unsigned_mark sign, if_neg]
  rintro (h | h)
  · cases negated with
    | true => cases h
    | false => exact (first rfl _ h).2 rfl
  · have hmem : d ∈ mark '!' negated ++ (front ++ l.place) := by simp [hplace]
    rw [h] at hmem
    exact hd (List.mem_singleton.mp hmem)

theorem parse_chars :
    parse (String.ofList l.chars) = ofSegments (String.ofList l.chars) l.negated
      (if l.anchored then "" :: l.segments else l.segments) := by
  rw [chars, l.parse_place l.negated (mark '/' l.anchored)]
  · cases l.anchored with
    | true => exact congrArg _ (splitAt_name_slash List.not_mem_nil l.place)
    | false => rfl
  · exact fun hn c hc => (l.ne_of_head?_body hn hc).2.symm

/-- The pattern of a line of the ignore file at the top. -/
def text : String :=
  String.ofList
    (mark '!' l.negated ++ ((if l.anchored || l.spans then [] else anywhere) ++ l.place))

theorem rebase_top_eq : rebase (String.ofList l.chars) "" = some l.text := by
  rw [rebase_line, if_pos rfl, List.append_nil, List.append_assoc, text]

/-- A line the place of which may start a pattern: no mark that means something there comes to the
front. -/
def IsFree : Prop :=
  l.negated = false → ∀ c, l.place.head? = some c → c ≠ '!' ∧ c ≠ '#'

theorem parse_text (h : l.IsFree) :
    parse l.text = ofSegments l.text l.negated
      (if l.anchored || l.spans then l.segments else manyComponents :: l.segments) := by
  rw [text]
  cases l.anchored || l.spans with
  | true => exact l.parse_place l.negated [] h
  | false =>
    refine (l.parse_place l.negated anywhere ?_).trans ?_
    · rintro - c ⟨⟩
      decide
    · exact congrArg _ (@splitAt_name_slash ['*', '*'] (by decide) l.place)

variable {l}

/-- Without a slash in front a line keeps its meaning. -/
theorem alike_of_not_anchored (ha : l.anchored = false) :
    Alike Eq (parse l.text) (parse (String.ofList l.chars)) := by
  have free : l.IsFree := fun hn c hc => (l.first hn ha c hc).2.symm
  rw [parse_chars, parse_text l free, ha]
  cases hs : l.spans with
  | true => exact ofSegments_alike _ _ _ rfl rfl
  | false =>
    have hname : l.IsName := by simpa [hs] using spans_iff (l := l)
    obtain ⟨x, single⟩ := exists_isSingle hname
    refine ofSegments_alike _ _ _ (normalize_many_cons single) ?_
    exact List.getLast?_cons_of_ne_nil l.segments_ne_nil

/-- A place of several segments holds at the top with or without the slash in front. -/
theorem alike_of_not_isName (free : l.IsFree) (ha : l.anchored = true) (hname : ¬ l.IsName) :
    Alike Eq (parse l.text) (parse (String.ofList l.chars)) := by
  obtain ⟨x, y, more, hx, hy, hsegments⟩ := exists_segments_eq hname
  rw [parse_chars, parse_text l free, ha, hsegments]
  exact ofSegments_alike _ _ _ (normalize_empty_cons hx (.inl hy)).symm rfl

/-- A single segment that loses the slash in front holds at every depth. -/
theorem atEveryDepth_of_isName (free : l.IsFree) (ha : l.anchored = true) (hname : l.IsName) :
    Alike AtEveryDepth (parse l.text) (parse (String.ofList l.chars)) := by
  obtain ⟨x, single⟩ := exists_isSingle hname
  rw [parse_chars, parse_text l free, ha]
  exact ofSegments_single _ _ _ single

end Line

/-! ## What the ignore file at the top means -/

/-- A line of a single segment behind a slash, with or without a slash at its end. -/
def IsAnchoredName (line : String) : Prop :=
  ∃ name, '/' ∉ name ∧
    (unsigned line.toList = '/' :: name ∨ unsigned line.toList = '/' :: (name ++ ['/']))

/-- A line in which a slash keeps a mark from standing in front. -/
def Guards (c : Char) (line : String) : Prop :=
  ['/', c] <+: line.toList

namespace Line

variable {l : Line}

theorem unsigned_chars (l : Line) : unsigned l.chars = mark '/' l.anchored ++ l.place :=
  unsigned_mark fun hn hc => (l.ne_of_head?_body hn hc).2.2 rfl

theorem isAnchoredName_iff :
    IsAnchoredName (String.ofList l.chars) ↔ l.anchored = true ∧ l.IsName := by
  rw [IsAnchoredName, String.toList_ofList, unsigned_chars]
  cases l.anchored with
  | true => simp [mark, IsName]
  | false =>
    simp only [mark, Bool.false_eq_true, if_false, List.nil_append, false_and, iff_false]
    rintro ⟨name, -, h | h⟩
    all_goals exact l.head_ne (by rw [h]; rfl)

theorem guards_iff {c : Char} :
    Guards c (String.ofList l.chars) ↔
      l.negated = false ∧ l.anchored = true ∧ l.place.head? = some c := by
  obtain ⟨d, ds, hplace, hd⟩ := l.exists_place_eq
  rw [Guards, String.toList_ofList, chars, hplace]
  cases l.negated <;> cases l.anchored <;> simp [mark, hd.symm, eq_comm]

theorem isFree_of_not_guards (sign : ¬ Guards '!' (String.ofList l.chars))
    (comment : ¬ Guards '#' (String.ofList l.chars)) (ha : l.anchored = true) : l.IsFree := by
  intro hn c hc
  constructor
  · rintro rfl
    exact sign (guards_iff.mpr ⟨hn, ha, hc⟩)
  · rintro rfl
    exact comment (guards_iff.mpr ⟨hn, ha, hc⟩)

/-- A line that guards a mark loses the slash in front. -/
theorem text_of_guards {c : Char} (h : Guards c (String.ofList l.chars)) :
    l.text = String.ofList l.place ∧ l.place.head? = some c := by
  obtain ⟨hn, ha, hc⟩ := guards_iff.mp h
  refine ⟨?_, hc⟩
  rw [text, hn, ha]
  rfl

end Line

/-- **The ignore file at the top**: every plain line is rebased to a pattern. It is the pattern
that the line spells, unless the line is a single segment behind a slash: then the pattern covers at
every depth what the line covers at the top. Where the slash keeps a mark from standing in front,
that mark counts in the pattern: a line that ignores becomes one that keeps, or a comment. -/
theorem rebase_top {line : String} (h : PlainLine line) :
    ∃ text, rebase line "" = some text ∧
      (¬ Guards '!' line → ¬ Guards '#' line →
        (¬ IsAnchoredName line → Alike Eq (parse text) (parse line)) ∧
        (IsAnchoredName line → Alike AtEveryDepth (parse text) (parse line))) ∧
      (Guards '!' line → (∀ p, parse text = .ok (some p) → p.keeps = true) ∧
        ∀ q, parse line = .ok (some q) → q.keeps = false) ∧
      (Guards '#' line → parse text = .ok none) := by
  obtain ⟨l, hl⟩ := h.exists_line
  obtain rfl : line = String.ofList l.chars := by rw [← hl, String.ofList_toList]
  refine ⟨l.text, l.rebase_top_eq, fun sign comment => ⟨fun hname => ?_, fun hname => ?_⟩,
    fun sign => ⟨fun p hp => ?_, fun q hq => ?_⟩, fun comment => ?_⟩
  · -- several segments, or no slash to lose
    cases ha : l.anchored with
    | true =>
      have hname : ¬ l.IsName := fun h => hname (Line.isAnchoredName_iff.mpr ⟨ha, h⟩)
      exact Line.alike_of_not_isName (Line.isFree_of_not_guards sign comment ha) ha hname
    | false => exact Line.alike_of_not_anchored ha
  · obtain ⟨ha, hname⟩ := Line.isAnchoredName_iff.mp hname
    exact Line.atEveryDepth_of_isName (Line.isFree_of_not_guards sign comment ha) ha hname
  · obtain ⟨htext, hhead⟩ := Line.text_of_guards sign
    rw [htext, parse_eq l.ne_nil l.last] at hp
    split at hp
    · cases hp
    · rw [keeps_of_ofSegments hp, hhead]
      rfl
  · rw [l.parse_chars] at hq
    rw [keeps_of_ofSegments hq]
    exact (Line.guards_iff.mp sign).1
  · obtain ⟨htext, hhead⟩ := Line.text_of_guards comment
    rw [htext, parse_eq l.ne_nil l.last, if_pos (.inl hhead)]

theorem plainLine_build : PlainLine "/build" where
  names := ⟨'b', by decide, by decide⟩
  slashes := by decide +kernel
  first := by
    rintro c ⟨⟩
    decide
  last := by
    rintro c ⟨⟩
    decide

theorem plainLine_keep_src_build : PlainLine "!/src/build/" where
  names := ⟨'b', by decide, by decide⟩
  slashes := by decide +kernel
  first := by
    rintro c ⟨⟩
    decide
  last := by
    rintro c ⟨⟩
    decide

/-- A folder at the top, and a place that is kept. -/
theorem rebase_top_build :
    (PlainLine "/build" ∧ IsAnchoredName "/build" ∧
      ∃ text, rebase "/build" "" = some text ∧ Alike AtEveryDepth (parse text) (parse "/build")) ∧
    PlainLine "!/src/build/" ∧ ¬ IsAnchoredName "!/src/build/" ∧
      ∃ text, rebase "!/src/build/" "" = some text ∧
        Alike Eq (parse text) (parse "!/src/build/") := by
  have name : IsAnchoredName "/build" := ⟨"build".toList, by decide, .inl (by decide)⟩
  have place : ¬ IsAnchoredName "!/src/build/" := by
    have body : unsigned "!/src/build/".toList = '/' :: ("src/build".toList ++ ['/']) := by decide
    rintro ⟨name, hname, h⟩
    rw [body] at h
    obtain h | h := h
    · exact hname (List.tail_eq_of_cons_eq h ▸ by simp)
    · exact hname (List.append_cancel_right (List.tail_eq_of_cons_eq h) ▸ by decide)
  -- no mark stands behind the slash of either line
  obtain ⟨text, htext, h, -, -⟩ := rebase_top plainLine_build
  obtain ⟨text', htext', h', -, -⟩ := rebase_top plainLine_keep_src_build
  unfold Guards at h h'
  exact ⟨⟨plainLine_build, name, text, htext, (h (by decide) (by decide)).2 name⟩,
    plainLine_keep_src_build, place, text', htext', (h' (by decide) (by decide)).1 place⟩

/-- The line `/build` speaks of the top alone, its pattern of the folder `src` too. -/
theorem rebase_build_covers_below :
    PlainLine "/build" ∧ rebase "/build" "" = some "build" ∧
      ∃ p q, parse "build" = .ok (some p) ∧ parse "/build" = .ok (some q) ∧
        p.covers "src/build/" = true ∧ q.covers "src/build/" = false :=
  ⟨plainLine_build, by decide, _, _, rfl, rfl, by decide, by decide⟩

end ScriptSurvey.Ignore
