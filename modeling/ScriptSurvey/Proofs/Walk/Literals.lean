import Mathlib.Data.List.DropRight
import ScriptSurvey.Survey.Tally

/-!
# The texts of literals

A literal stands between two quote marks, and its value is shown without them. All quote marks at
the two ends are taken away, whatever their kind and however many there are, so that what is left of
the content of a literal is its core (`IsCore`): the content itself if that neither starts nor ends
with a quote mark, and a shorter text if it does (`Node.initialValue_literal`).
-/

namespace ScriptSurvey

/-! ## Texts without the marks at their ends -/

/-- What is left of a text when all quote marks at its two ends are taken away. -/
structure IsCore (text core : List Char) : Prop where
  within : ∃ front back, text = front ++ (core ++ back) ∧ ∀ c ∈ front ++ back, isQuoteMark c
  first : ∀ c, core.head? = some c → ¬ isQuoteMark c
  last : ∀ c, core.getLast? = some c → ¬ isQuoteMark c

theorem stripQuotes_eq (text : String) :
    stripQuotes text =
      String.ofList ((text.toList.dropWhile isQuoteMark).rdropWhile isQuoteMark) := rfl

theorem dropWhile_of_first {core : List Char} (h : ∀ c, core.head? = some c → ¬ isQuoteMark c) :
    core.dropWhile isQuoteMark = core := by
  cases core with
  | nil => rfl
  | cons c cs => rw [List.dropWhile_cons_of_neg (h c rfl)]

theorem not_isQuoteMark_of_dropWhile {text rest : List Char} {c : Char}
    (h : text.dropWhile isQuoteMark = c :: rest) : ¬ isQuoteMark c := by
  have stopped := List.head?_dropWhile_not isQuoteMark text
  rw [h] at stopped
  simpa using stopped

/-- **What stripping leaves** is a core. -/
theorem isCore_stripQuotes (text : String) : IsCore text.toList (stripQuotes text).toList := by
  rw [stripQuotes_eq, String.toList_ofList]
  generalize text.toList = chars
  have left := List.takeWhile_append_dropWhile (p := isQuoteMark) (l := chars)
  have right := List.rdropWhile_append_rtakeWhile (p := isQuoteMark)
    (l := chars.dropWhile isQuoteMark)
  constructor
  · refine ⟨chars.takeWhile isQuoteMark, (chars.dropWhile isQuoteMark).rtakeWhile isQuoteMark,
      ?_, ?_⟩
    · rw [right, left]
    · intro c hc
      rcases List.mem_append.mp hc with hc | hc
      · exact List.mem_takeWhile_imp hc
      · exact List.mem_rtakeWhile_imp hc
  · intro c hc
    obtain ⟨rest, hr⟩ := List.head?_eq_some_iff.mp hc
    rw [hr, List.cons_append] at right
    exact not_isQuoteMark_of_dropWhile right.symm
  · intro c hc
    rw [List.rdropWhile, List.getLast?_reverse] at hc
    obtain ⟨rest, hr⟩ := List.head?_eq_some_iff.mp hc
    exact not_isQuoteMark_of_dropWhile hr

/-- **A text has only one core.** -/
theorem IsCore.eq_stripQuotes {text core : String} (h : IsCore text.toList core.toList) :
    core = stripQuotes text := by
  obtain ⟨⟨front, back, whole, marks⟩, first, last⟩ := h
  rw [List.forall_mem_append] at marks
  have backwards : core.toList.reverse.dropWhile isQuoteMark = core.toList.reverse := by
    refine dropWhile_of_first fun c hc => last c ?_
    rwa [List.head?_reverse] at hc
  apply String.toList_injective
  rw [stripQuotes_eq, String.toList_ofList, whole, List.dropWhile_append_of_pos marks.1]
  cases hc : core.toList with
  | nil => rw [List.nil_append, List.dropWhile_eq_nil_iff.mpr marks.2, List.rdropWhile_nil]
  | cons c cs =>
    have starts : ((c :: cs) ++ back).dropWhile isQuoteMark = (c :: cs) ++ back :=
      List.dropWhile_cons_of_neg (first c (by rw [hc]; rfl))
    rw [starts, ← hc, List.rdropWhile, List.reverse_append,
      List.dropWhile_append_of_pos (by simpa using marks.2), backwards, List.reverse_reverse]

theorem isCore_iff {text core : String} :
    IsCore text.toList core.toList ↔ core = stripQuotes text := by
  refine ⟨IsCore.eq_stripQuotes, ?_⟩
  rintro rfl
  exact isCore_stripQuotes text

/-- Whether a text neither starts nor ends with a quote mark. -/
def EndsPlain (text : String) : Prop :=
  (∀ c, text.toList.head? = some c → ¬ isQuoteMark c) ∧
    ∀ c, text.toList.getLast? = some c → ¬ isQuoteMark c

theorem stripQuotes_eq_self_iff {text : String} : stripQuotes text = text ↔ EndsPlain text := by
  rw [eq_comm, ← isCore_iff]
  constructor
  · intro h
    exact ⟨h.first, h.last⟩
  · rintro ⟨first, last⟩
    exact ⟨⟨[], [], by simp, by simp⟩, first, last⟩

/-- The marks around a content have no part in its core. -/
theorem stripQuotes_between {mark : Char} (h : isQuoteMark mark) (content : String) :
    stripQuotes (String.ofList (mark :: content.toList ++ [mark])) = stripQuotes content := by
  obtain ⟨⟨front, back, whole, marks⟩, first, last⟩ := isCore_stripQuotes content
  symm
  apply IsCore.eq_stripQuotes
  refine ⟨⟨mark :: front, back ++ [mark], ?_, ?_⟩, first, last⟩
  · rw [String.toList_ofList]
    conv_lhs => rw [whole]
    simp
  · intro c hc
    have inner : c = mark ∨ c ∈ front ++ back := by
      simp only [List.mem_append, List.mem_cons] at hc ⊢
      tauto
    rcases inner with rfl | hc
    · exact h
    · exact marks c hc

/-! ## Literals -/

namespace Node

/-- A string literal: its content stands between two quote marks of one kind, and has none of that
kind itself. -/
structure IsLiteral (n : Node) (mark : Char) (content : String) : Prop where
  kind : n.kind = "string"
  quotes : mark = '\x27' ∨ mark = '"'
  text : n.text = String.ofList (mark :: content.toList ++ [mark])
  clean : mark ∉ content.toList

theorem IsLiteral.unquoted_eq {n : Node} {mark : Char} {content : String}
    (h : n.IsLiteral mark content) : n.unquoted = stripQuotes content := by
  have quotes : isQuoteMark mark := by
    rcases h.quotes with rfl | rfl <;> rfl
  rw [unquoted, h.text, stripQuotes_between quotes]

theorem IsLiteral.initialValue_eq {n : Node} {mark : Char} {content : String}
    (h : n.IsLiteral mark content) :
    initialValue (some n) = "\"" ++ stripQuotes content ++ "\"" := by
  rw [initialValue, if_pos (by rw [h.kind]; rfl), h.unquoted_eq]

theorem enclosed_injective {s s' : String} : "\"" ++ s ++ "\"" = "\"" ++ s' ++ "\"" ↔ s = s' := by
  rw [String.append_left_inj, String.append_right_inj]

/-- The node that names the module of an import: that in its field, or else the first string in a
clause that calls `require`. -/
def moduleNode? (statement : Node) : Option Node :=
  statement.childByField "source" <|>
    (statement.namedChildren.filter (·.kind == "import_require_clause")).findSome? requiredModule?

theorem importOf_source {statement n : Node} (h : statement.moduleNode? = some n) :
    statement.importOf.source = n.unquoted := by
  change (statement.moduleNode?.map unquoted).getD "" = n.unquoted
  rw [h]
  rfl

/-- **The value of a literal is the core of its content**, as the first value of a piece of state
and as the module of an import. The content is recovered exactly if it neither starts nor ends with
a quote mark. Two literals have the same value exactly if their contents have the same core; if both
contents end plainly, these are then the same. -/
theorem initialValue_literal {n : Node} {mark : Char} {content : String}
    (h : n.IsLiteral mark content) :
    (∃ core : String, IsCore content.toList core.toList ∧
      initialValue (some n) = "\"" ++ core ++ "\"" ∧
      ∀ statement : Node, statement.moduleNode? = some n → statement.importOf.source = core) ∧
    (initialValue (some n) = "\"" ++ content ++ "\"" ↔ EndsPlain content) ∧
    (∀ statement : Node, statement.moduleNode? = some n →
      (statement.importOf.source = content ↔ EndsPlain content)) ∧
    ∀ (n' : Node) (mark' : Char) (content' : String), n'.IsLiteral mark' content' →
      (initialValue (some n) = initialValue (some n') ↔
        ∃ core : String, IsCore content.toList core.toList ∧ IsCore content'.toList core.toList) ∧
      (EndsPlain content → EndsPlain content' →
        initialValue (some n) = initialValue (some n') → content = content') := by
  have source : ∀ statement : Node, statement.moduleNode? = some n →
      statement.importOf.source = stripQuotes content := by
    intro statement hs
    rw [importOf_source hs, h.unquoted_eq]
  refine ⟨⟨stripQuotes content, isCore_stripQuotes content, h.initialValue_eq, source⟩, ?_, ?_, ?_⟩
  · rw [h.initialValue_eq, enclosed_injective, stripQuotes_eq_self_iff]
  · intro statement hs
    rw [source statement hs, stripQuotes_eq_self_iff]
  · intro n' mark' content' h'
    rw [h.initialValue_eq, h'.initialValue_eq, enclosed_injective]
    constructor
    · simp only [isCore_iff, exists_eq_left]
    · intro plain plain' same
      rwa [stripQuotes_eq_self_iff.mpr plain, stripQuotes_eq_self_iff.mpr plain'] at same

/-- The literal with this text. -/
def literal (text : String) : Node where
  kind := "string"
  field := some "source"
  text

/-- The import of the module that a literal names. -/
def importing (text : String) : Node where
  kind := "import_statement"
  children := [literal text]

theorem isLiteral_itIs : (literal "\"it's\"").IsLiteral '"' "it's" :=
  ⟨rfl, .inr rfl, rfl, by decide⟩

theorem initialValue_literal_itIs :
    (literal "\"it's\"").IsLiteral '"' "it's" ∧ EndsPlain "it's" ∧
      initialValue (some (literal "\"it's\"")) = "\"it's\"" ∧
      (importing "\"it's\"").importOf.source = "it's" := by
  have plain : EndsPlain "it's" := by
    constructor <;> (rintro c ⟨⟩; decide)
  obtain ⟨-, value, source, -⟩ := initialValue_literal isLiteral_itIs
  exact ⟨isLiteral_itIs, plain, value.mpr plain, (source _ rfl).mpr plain⟩

/-- A quoted word in quotes of the other kind loses both, and is then not told apart from the word
alone. -/
theorem initialValue_of_quoted_word :
    (literal "'\"a\"'").IsLiteral '\x27' "\"a\"" ∧ (literal "'a'").IsLiteral '\x27' "a" ∧
      initialValue (some (literal "'\"a\"'")) ≠ "\"" ++ "\"a\"" ++ "\"" ∧
      (importing "'\"a\"'").importOf.source ≠ "\"a\"" ∧
      initialValue (some (literal "'\"a\"'")) = initialValue (some (literal "'a'")) := by
  refine ⟨⟨rfl, .inl rfl, rfl, ?_⟩, ⟨rfl, .inl rfl, rfl, ?_⟩, ?_, ?_, ?_⟩
  all_goals decide

end Node

end ScriptSurvey
