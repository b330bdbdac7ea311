import ScriptSurvey.Proofs.Quality
import ScriptSurvey.Proofs.Walk.Findings
import ScriptSurvey.Survey.Source

/-!
# What an analysis returns

An analysis reads a text, walks the tree and scores what was found. `Record.IsOf` says all that the
record of a file can be: the one of a file that was not read, or that of a walked tree. Every source
has such a record (`Source.record_isOf`). A text whose tree is accepted has the record of the tree,
unless the complexity of the tree lies beyond all doubles (`exists_analyzeWith_iff`).
-/

namespace ScriptSurvey

/-! ## Scores -/

namespace Score

theorem roundHalfUp_percent_ok (x : Double) :
    ∃ v, ((Number.real x).clamp (.int 0) (.int 100)).roundHalfUp = .ok v ∧
      v.natAbs < Double.limit :=
  Number.roundHalfUp_clamp_ok x (Double.natAbs_lt_limit_of_percent (by omega) (by omega))
    (Double.natAbs_lt_limit_of_percent (by omega) (by omega))

theorem maintainability_ok {lineCount cyclomatic : Int} (hn : 0 ≤ lineCount)
    (hc : cyclomatic.natAbs < Double.limit) :
    ∃ m, maintainability lineCount cyclomatic = .ok m := by
  obtain ⟨x, hx, -⟩ := Double.ofInt?_ok hc
  unfold maintainability
  simp only [show ¬ lineCount + 1 ≤ 0 by omega, if_false, hx]
  obtain ⟨m, hm, -⟩ := roundHalfUp_percent_ok _
  exact ⟨m, hm⟩

theorem maintainability_bounds {lineCount cyclomatic m : Int}
    (h : maintainability lineCount cyclomatic = .ok m) :
    cyclomatic.natAbs < Double.limit ∧ m.natAbs < Double.limit := by
  unfold maintainability at h
  by_cases hn : lineCount + 1 ≤ 0
  · simp only [hn, if_true] at h
    cases h
  simp only [hn, if_false] at h
  cases hx : Double.ofInt? cyclomatic with
  | error fault =>
    rw [hx] at h
    cases h
  | ok x =>
    rw [hx] at h
    obtain ⟨v, hv, hl⟩ := roundHalfUp_percent_ok _
    obtain rfl : v = m := Except.ok.inj (hv.symm.trans h)
    exact ⟨Double.natAbs_lt_of_ofInt?_eq_ok hx, hl⟩

end Score

/-! ## Records of trees -/

/-- The quality of a file in which the walk has found this. -/
def Tally.quality (t : Tally) (lineCount : Int) : Int :=
  Score.percent (Score.points t.cyclomatic t.maxDepth t.issues.length lineCount
    (Score.present (some (distinct t.hooks)) && Score.present (some (distinct t.components))))

/-- The record of a file with this tree, given its maintainability. -/
def Node.recorded (root : Node) (filename : String) (lineCount m : Int) (time : Double) : Record :=
  { root.surveyed.record filename lineCount m with
    quality := root.surveyed.quality lineCount
    time }

/-- **A tree is examined** by scoring what the walk finds in it; only the maintainability may fail.
-/
theorem examine_eq (root : Node) (filename : String) (lineCount : Int) :
    examine root filename lineCount =
      ((Score.maintainability lineCount root.surveyed.cyclomatic).mapError Fault.numeric).map
        fun m => root.recorded filename lineCount m (Double.zero false) := by
  rw [examine, tally_eq_surveyed]
  show ((Score.maintainability lineCount root.surveyed.cyclomatic).mapError Fault.numeric >>= _) = _
  cases Score.maintainability lineCount root.surveyed.cyclomatic <;> rfl

/-! ## Records of texts -/

/-- What a record can be: that of a file that was not read, or that of the tree of one that was. The
scores of a tree are no larger than doubles are. -/
inductive Record.IsOf (filename : String) (lineCount : Int) : Record → Prop where
  | failed (message : String) (time : Double) :
    IsOf filename lineCount (Record.failed filename lineCount message time)
  | recorded (root : Node) (m : Int) (time : Double)
    (hc : root.cyclomatic < Double.limit) (hm : m.natAbs < Double.limit) :
    IsOf filename lineCount (root.recorded filename lineCount m time)

theorem Record.IsOf.filename_eq {filename : String} {lineCount : Int} {r : Record}
    (h : r.IsOf filename lineCount) : r.filename = filename := by
  cases h <;> rfl

section Texts

variable {read : TreeReader} {clock : Clock} {filename source : String} {root : Node} {r : Record}

/-- A text whose tree is accepted has the record of the tree, if the maintainability can be
computed. -/
theorem analyzeWith_eq_map (hread : read (Syntax.Options.forFile filename) source = .ok root) :
    analyzeWith read clock filename source =
      ((Score.maintainability (Text.lineCount source) root.surveyed.cyclomatic).mapError
        Fault.numeric).map
        fun m => root.recorded filename (Text.lineCount source) m clock.elapsed := by
  simp only [analyzeWith, hread, examine_eq]
  cases Score.maintainability (Text.lineCount source) root.surveyed.cyclomatic <;> rfl

/-- A text whose tree is accepted has a record, unless the complexity of the tree lies beyond all
doubles. -/
theorem analyzeWith_ok (clock : Clock)
    (hread : read (Syntax.Options.forFile filename) source = .ok root)
    (hc : root.cyclomatic < Double.limit) :
    ∃ m, analyzeWith read clock filename source =
      .ok (root.recorded filename (Text.lineCount source) m clock.elapsed) := by
  have hc' : (root.surveyed.cyclomatic : Int).natAbs < Double.limit := by
    rwa [Int.natAbs_natCast, Node.surveyed_cyclomatic]
  obtain ⟨m, hm⟩ := Score.maintainability_ok (Int.natCast_nonneg (Text.lineCount source)) hc'
  refine ⟨m, ?_⟩
  rw [analyzeWith_eq_map hread, hm]
  rfl

/-- The record of a text whose tree is accepted is that of the tree. -/
theorem eq_recorded_of_analyzeWith_eq_ok
    (hread : read (Syntax.Options.forFile filename) source = .ok root)
    (h : analyzeWith read clock filename source = .ok r) :
    ∃ m, root.cyclomatic < Double.limit ∧ m.natAbs < Double.limit ∧
      r = root.recorded filename (Text.lineCount source) m clock.elapsed := by
  rw [analyzeWith_eq_map hread] at h
  cases hm : Score.maintainability (Text.lineCount source) root.surveyed.cyclomatic with
  | error fault =>
    rw [hm] at h
    cases h
  | ok m =>
    rw [hm] at h
    obtain ⟨hc, hl⟩ := Score.maintainability_bounds hm
    rw [Int.natAbs_natCast, Node.surveyed_cyclomatic] at hc
    exact ⟨m, hc, hl, (Except.ok.inj h).symm⟩

/-- **A text whose tree is accepted has a record** exactly if the complexity of the tree is not
beyond all doubles. -/
theorem exists_analyzeWith_iff (clock : Clock)
    (hread : read (Syntax.Options.forFile filename) source = .ok root) :
    (∃ r, analyzeWith read clock filename source = .ok r) ↔ root.cyclomatic < Double.limit := by
  constructor
  · rintro ⟨r, h⟩
    obtain ⟨m, hc, -⟩ := eq_recorded_of_analyzeWith_eq_ok hread h
    exact hc
  · intro hc
    obtain ⟨m, hm⟩ := analyzeWith_ok clock hread hc
    exact ⟨_, hm⟩

/-- **What an analysis returns** is the record of the file. -/
theorem isOf_of_analyzeWith_eq_ok (h : analyzeWith read clock filename source = .ok r) :
    r.IsOf filename (Text.lineCount source) := by
  cases hread : read (Syntax.Options.forFile filename) source with
  | error failure =>
    simp only [analyzeWith, hread] at h
    cases h
    exact .failed ..
  | ok root =>
    obtain ⟨m, hc, hm, rfl⟩ := eq_recorded_of_analyzeWith_eq_ok hread h
    exact .recorded root m clock.elapsed hc hm

end Texts

/-! ## Records of sources -/

/-- The analysis of sources, given how the text of each becomes a tree, what the clock shows, and
the messages with which the analyses of some break off. -/
def Analyzer.given (read : Source → TreeReader) (clock : Source → Clock)
    (crash : Source → Option String) : Analyzer := fun s =>
  match crash s with
  | some message => .error (.crash message)
  | none => analyzeWith (read s) (clock s) s.name s.text

theorem Source.analyze_eq_given :
    analyze = Analyzer.given (fun _ => Syntax.parse) (fun _ => {}) (fun _ => none) := rfl

/-- **Every source has a record of its own name and length**, whatever its analysis does. -/
theorem Source.record_isOf (read : Source → TreeReader) (clock : Source → Clock)
    (crash : Source → Option String) (s : Source) :
    (s.record (.given read clock crash)).IsOf s.name (Text.lineCount s.text) := by
  unfold record
  cases ha : Analyzer.given read clock crash s with
  | error fault => exact .failed ..
  | ok r =>
    unfold Analyzer.given at ha
    split at ha
    · cases ha
    · exact isOf_of_analyzeWith_eq_ok ha

/-- A source whose tree is accepted has the record of the tree. -/
theorem Source.record_eq_recorded {read : Source → TreeReader} {crash : Source → Option String}
    (clock : Source → Clock) {s : Source} {root : Node} (hcrash : crash s = none)
    (hread : read s (Syntax.Options.forFile s.name) s.text = .ok root)
    (hc : root.cyclomatic < Double.limit) :
    ∃ m, s.record (.given read clock crash) =
      root.recorded s.name (Text.lineCount s.text) m (clock s).elapsed := by
  obtain ⟨m, hm⟩ := analyzeWith_ok (clock s) hread hc
  refine ⟨m, ?_⟩
  simp only [record, Analyzer.given, hcrash, hm]

/-! ## A small file -/

section Specimen

/-- A bare name in a field. -/
def Node.bareName (field text : String) : Node :=
  { kind := "identifier", field := some field, text }

/-- The call of a bare name. -/
def Node.callOf (name : String) (arguments : List Node) : Node where
  kind := "call_expression"
  children := [bareName "function" name,
    { kind := "arguments", field := some "arguments", children := arguments }]

/-- The tree of a file with one component, its state and a helper after it, without what the
findings do not depend on:

`const App = () => { const [n, setN] = useState(0); useEffect(f, [n]); if (a && b) setN(1);`
`for (;;) { helper(); helper() } eval(); <Panel dangerouslySetInnerHTML /> };`
`function helper() {}` -/
def Node.specimen : Node where
  kind := "program"
  children := [
    { kind := "import_statement" },
    { kind := "variable_declarator"
      children := [bareName "name" "App",
        { kind := "arrow_function", field := some "value"
          children := [
            { kind := "variable_declarator"
              children := [
                { kind := "array_pattern", field := some "name"
                  children := [
                    { kind := "identifier", text := "n" },
                    { kind := "identifier", text := "setN" }] },
                { callOf "useState" [{ kind := "number", text := "0" }] with
                  field := some "value" }] },
            callOf "useEffect" [{ kind := "identifier", text := "f" },
              { kind := "array", children := [{ kind := "identifier", text := "n" }] }],
            { kind := "if_statement"
              children := [
                { kind := "binary_expression"
                  children := [
                    { kind := "&&", field := some "operator", named := false, text := "&&" }] },
                callOf "setN" [{ kind := "number", text := "1" }]] },
            { kind := "for_statement", children := [callOf "helper" [], callOf "helper" []] },
            callOf "eval" [],
            { kind := "jsx_self_closing_element"
              children := [bareName "name" "Panel",
                { kind := "jsx_attribute"
                  children := [
                    { kind := "property_identifier"
                      text := "dangerouslySetInnerHTML" }] }] }] }] },
    { kind := "function_declaration", children := [bareName "name" "helper"] }]

theorem Node.specimen_cyclomatic_lt : specimen.cyclomatic < Double.limit :=
  Double.lt_limit_of_le_hundred (by decide)

end Specimen

end ScriptSurvey
