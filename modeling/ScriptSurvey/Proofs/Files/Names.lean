import Mathlib.Tactic.SplitIfs
import ScriptSurvey.Files.Analyzable
import ScriptSurvey.Service.Cache

/-!
# Names joined by slashes

The names of a place are joined by slashes to one text, which is cut again at each slash and
backslash (`written_join`) to tell whether it is that of a script. No file that holds a report is a
script (`isAnalyzable_report`), and neither is anything in a folder that is skipped
(`isAnalyzable_of_mem_skippedFolders`). Names without slashes can be read off the text
(`intercalate_injective`).
-/

namespace ScriptSurvey

/-- The names of the files in which reports are kept end alike. -/
def Cache.isReportName (name : String) : Bool :=
  fileName.toList.isSuffixOf name.toList

/-! ## Pieces -/

section Pieces

variable (cut : Char → Bool)

theorem Text.pieces_eq_splitOnP (cs : List Char) : pieces cut cs = cs.splitOnP cut := by
  induction cs with
  | nil => rfl
  | cons c cs ih =>
    rw [pieces, ih, List.splitOnP_cons_eq_if_modifyHead]
    cases hp : cs.splitOnP cut with
    | nil => exact absurd hp (List.splitOnP_ne_nil cut cs)
    | cons piece rest => rfl

/-- Characters that are not cut at belong to the last piece. -/
theorem exists_splitOnP_append {ys : List Char} (hy : ∀ c ∈ ys, cut c = false) (xs : List Char) :
    ∃ front piece, (xs ++ ys).splitOnP cut = front ++ [piece ++ ys] := by
  induction xs with
  | nil => exact ⟨[], [], List.splitOnP_eq_singleton hy⟩
  | cons x xs ih =>
    obtain ⟨front, piece, h⟩ := ih
    rw [List.cons_append, List.splitOnP_cons_eq_if_modifyHead, h]
    split_ifs
    · exact ⟨[] :: front, piece, rfl⟩
    · cases front with
      | nil => exact ⟨[], x :: piece, rfl⟩
      | cons first front => exact ⟨(x :: first) :: front, piece, rfl⟩

end Pieces

/-! ## Components -/

namespace PathName

/-- Whether a character sets components apart. -/
def isSeparator (c : Char) : Bool :=
  c == '/' || c == '\\'

/-- The two separators as texts. -/
def separators : List String :=
  ["/", "\\"]

/-- What stands between the separators of a path, empty texts and dots included. -/
def written (path : String) : List String :=
  (path.toList.splitOnP isSeparator).map String.ofList

/-- Whether what stands between two separators names something. -/
def isNaming (part : String) : Bool :=
  part != "" && part != "."

theorem slash_mem_separators : "/" ∈ separators := by simp [separators]

theorem backslash_mem_separators : "\\" ∈ separators := by simp [separators]

theorem splitOnP_forward (cs : List Char) :
    (cs.map fun c => if c = '\\' then '/' else c).splitOnP (· == '/') =
      cs.splitOnP isSeparator := by
  induction cs with
  | nil => rfl
  | cons c cs ih =>
    rw [List.map_cons, List.splitOnP_cons_eq_if_modifyHead, List.splitOnP_cons_eq_if_modifyHead,
      ih]
    by_cases h : c = '\\' <;> simp [h, isSeparator]

/-- The components are what is written between separators, less empty texts and dots. -/
theorem components_forward_eq_filter (path : String) :
    components (forward path) = (written path).filter isNaming := by
  rw [components, Text.splitAt, Text.pieces_eq_splitOnP, forward, String.toList_map,
    splitOnP_forward]
  rfl

/-- A text is cut in two at any separator. -/
theorem written_join {sep : String} (hs : sep ∈ separators) (front back : String) :
    written (front ++ sep ++ back) = written front ++ written back := by
  have cut : ∃ c, sep.toList = [c] ∧ isSeparator c = true := by
    obtain rfl | rfl : sep = "/" ∨ sep = "\\" := by simpa [separators] using hs
    · exact ⟨'/', rfl, rfl⟩
    · exact ⟨'\\', rfl, rfl⟩
  obtain ⟨c, hc, separates⟩ := cut
  rw [written, String.toList_append, String.toList_append, hc, List.append_assoc,
    List.singleton_append, List.splitOnP_append_cons _ _ separates, List.map_append]
  rfl

theorem components_forward_join {sep : String} (hs : sep ∈ separators) (front back : String) :
    components (forward (front ++ sep ++ back)) =
      components (forward front) ++ components (forward back) := by
  simp only [components_forward_eq_filter, written_join hs, List.filter_append]

theorem components_forward_slash (a b : String) :
    components (forward (a ++ "/" ++ b)) = components (forward a) ++ components (forward b) :=
  components_forward_join slash_mem_separators a b

/-- A name without slashes and backslashes is its own only component. -/
theorem components_forward_name {name : String} (hc : ∀ c ∈ name.toList, c ≠ '/' ∧ c ≠ '\\')
    (hn : name ≠ "" ∧ name ≠ ".") : components (forward name) = [name] := by
  have whole : name.toList.splitOnP isSeparator = [name.toList] :=
    List.splitOnP_eq_singleton fun c h => by simp [isSeparator, hc c h]
  rw [components_forward_eq_filter, written, whole, List.map_singleton, String.ofList_toList]
  simp [isNaming, hn]

/-- The last component of a text that ends in the name of a file. -/
theorem exists_components_forward (name : List Char) (hc : ∀ c ∈ name, c ≠ '/' ∧ c ≠ '\\')
    (hn : 1 < name.length) (front : List Char) :
    ∃ before piece, components (forward (String.ofList (front ++ name))) =
      before ++ [String.ofList (piece ++ name)] := by
  have kept : ∀ piece : List Char, isNaming (String.ofList (piece ++ name)) = true := by
    intro piece
    have long : ∀ short : String, short.toList.length < 2 →
        String.ofList (piece ++ name) ≠ short := by
      rintro short hs rfl
      rw [String.toList_ofList, List.length_append] at hs
      omega
    rw [isNaming, Bool.and_eq_true, bne_iff_ne, bne_iff_ne]
    exact ⟨long _ (by decide), long _ (by decide)⟩
  obtain ⟨pieces, piece, h⟩ := exists_splitOnP_append isSeparator
    (fun c h => by simp [isSeparator, hc c h]) front
  rw [components_forward_eq_filter, written, String.toList_ofList, h, List.map_append,
    List.filter_append]
  refine ⟨_, piece, congrArg _ ?_⟩
  exact List.filter_cons_of_pos (kept piece)

end PathName

/-! ## Scripts -/

theorem isScriptName_of_suffix {name : String}
    (h : scriptSuffixes.contains (Text.lower (PathName.suffixOf name)) = false) :
    isScriptName name = false := by
  rw [isScriptName, h, Bool.and_false]

theorem isScriptName_of_mem_skippedFolders {name : String} (h : name ∈ skippedFolders) :
    isScriptName name = false := by
  have bare : ∀ name ∈ skippedFolders, PathName.suffixOf name = "" := by decide
  refine isScriptName_of_suffix ?_
  rw [bare name h, Text.lower, String.map_eq_empty.mpr rfl]
  rfl

/-- What lies in a folder that is skipped is no script. -/
theorem isAnalyzable_of_components {text skipped : String} {before after : List String}
    (h : PathName.components (PathName.forward text) = before ++ skipped :: after)
    (hs : skipped ∈ skippedFolders) : isAnalyzable text = false := by
  unfold isAnalyzable
  dsimp only
  rw [h]
  cases after with
  | nil => simp [isScriptName_of_mem_skippedFolders hs]
  | cons next after =>
    have inside : skipped ∈ (before ++ skipped :: next :: after).dropLast := by
      simp [List.dropLast_append_of_ne_nil]
    have any : (before ++ skipped :: next :: after).dropLast.any skippedFolders.contains = true :=
      List.any_eq_true.mpr ⟨skipped, inside, List.contains_iff_mem.mpr hs⟩
    rw [any]
    simp

theorem components_forward_of_mem_skippedFolders {name : String} (h : name ∈ skippedFolders) :
    PathName.components (PathName.forward name) = [name] := by
  have plain : ∀ name ∈ skippedFolders, name.toList.all (fun c => c ≠ '/' ∧ c ≠ '\\') = true ∧
      name ≠ "" ∧ name ≠ "." := by decide
  obtain ⟨slashless, named⟩ := plain name h
  exact PathName.components_forward_name (by simpa using slashless) named

theorem isAnalyzable_of_mem_skippedFolders {place : List String} {skipped : String}
    (h : skipped ∈ place.dropLast) (hs : skipped ∈ skippedFolders) :
    isAnalyzable ("/".intercalate place) = false := by
  obtain ⟨front, back, hback, rfl⟩ :
      ∃ front back, back ≠ [] ∧ place = front ++ skipped :: back := by
    obtain ⟨front, rest, hd⟩ := List.append_of_mem h
    have hne : place ≠ [] := by
      rintro rfl
      cases h
    have whole := List.dropLast_concat_getLast hne
    rw [hd] at whole
    exact ⟨front, rest ++ [place.getLast hne], by simp, by simpa using whole.symm⟩
  have tail : PathName.components (PathName.forward ("/".intercalate (skipped :: back))) =
      skipped :: PathName.components (PathName.forward ("/".intercalate back)) := by
    rw [String.intercalate_cons_of_ne_nil hback, PathName.components_forward_slash,
      components_forward_of_mem_skippedFolders hs, List.singleton_append]
  cases front with
  | nil => exact @isAnalyzable_of_components _ _ [] _ tail hs
  | cons first front =>
    have parts : PathName.components (PathName.forward ("/".intercalate
        (first :: front ++ skipped :: back))) =
          PathName.components (PathName.forward ("/".intercalate (first :: front))) ++
            skipped :: PathName.components (PathName.forward ("/".intercalate back)) := by
      rw [String.intercalate_append_of_ne_nil (by simp) (by simp),
        PathName.components_forward_slash, tail]
    exact isAnalyzable_of_components parts hs

theorem isScriptName_of_report (front : List Char) :
    isScriptName (String.ofList (front ++ Cache.fileName.toList)) = false := by
  have tail : ((String.ofList (front ++ Cache.fileName.toList)).toList.reverse.takeWhile
      (· != '.')).reverse = "json".toList := by
    rw [String.toList_ofList, List.reverse_append]
    rfl
  have lower : Text.lower ".json" = ".json" := by
    rw [← String.toList_inj, Text.lower, String.toList_map]
    rfl
  refine isScriptName_of_suffix ?_
  unfold PathName.suffixOf
  dsimp only
  rw [tail]
  split_ifs
  · rw [Text.lower, String.map_eq_empty.mpr rfl]
    rfl
  · rw [show String.ofList ('.' :: "json".toList) = ".json" from rfl, lower]
    rfl

/-- A file that holds a report is no script, wherever it is. -/
theorem isAnalyzable_report {name : String} (hn : Cache.isReportName name = true)
    (here : List String) :
    isAnalyzable ("/".intercalate (here ++ [name])) = false := by
  obtain ⟨front, hf⟩ := List.isSuffixOf_iff_suffix.mp hn
  obtain ⟨start, text⟩ : ∃ start, "/".intercalate (here ++ [name]) =
      String.ofList (start ++ Cache.fileName.toList) := by
    cases here with
    | nil => exact ⟨front, by rw [hf]; simp⟩
    | cons first rest =>
      refine ⟨("/".intercalate (first :: rest) ++ "/").toList ++ front, ?_⟩
      rw [String.intercalate_append_of_ne_nil (by simp) (by simp), List.append_assoc, hf,
        String.intercalate_singleton, String.ofList_append, String.ofList_toList,
        String.ofList_toList]
  have slashless : Cache.fileName.toList.all (fun c => c ≠ '/' ∧ c ≠ '\\') = true := by decide
  obtain ⟨before, piece, parts⟩ := PathName.exists_components_forward Cache.fileName.toList
    (by simpa using slashless) (by decide) start
  unfold isAnalyzable
  dsimp only
  rw [text, parts, List.getLast?_concat, Option.getD_some, isScriptName_of_report, Bool.false_and]

/-- The text of a place is cut into the names again. -/
theorem splitOn_intercalate {place : List String} (hne : place ≠ [])
    (hs : ∀ name ∈ place, '/' ∉ name.toList) :
    ("/".intercalate place).toList.splitOn '/' = place.map String.toList := by
  rw [String.toList_intercalate]
  exact List.splitOn_intercalate '/' (by simpa using hs) (by simpa using hne)

/-- Places of names without slashes have different texts. -/
theorem intercalate_injective {p q : List String} (hp : ∀ name ∈ p, '/' ∉ name.toList)
    (hq : ∀ name ∈ q, '/' ∉ name.toList) (hp0 : p ≠ []) (hq0 : q ≠ [])
    (h : "/".intercalate p = "/".intercalate q) : p = q := by
  have names : p.map String.toList = q.map String.toList := by
    rw [← splitOn_intercalate hp0 hp, ← splitOn_intercalate hq0 hq, h]
  simpa using congrArg (List.map String.ofList) names

end ScriptSurvey
