import Mathlib.Logic.Relation
import ScriptSurvey.Proofs.Files.Names

/-!
# Spellings of a path

Separators may be turned and doubled, and dots put between them, and a path has the same components
as before. What tells a path from the top is not among the components: a dot before the first slash
is such a change as well.

* `spelledAlike_iff`: these changes, made again and again and undone, lead from a text to all texts
  with the same components, and to no others. Each text can be brought to one plain spelling of its
  components (`spelledAlike_plain`);
* `isAnalyzable_join`: a path below a folder is that of a script if the path alone is and no
  component of the folder is skipped.

So whether a path is that of a script can be told in parts and in any spelling.
-/

namespace ScriptSurvey

namespace PathName

/-- One change to the spelling of a path. -/
inductive Respelled : String → String → Prop
  /-- A slash is turned into a backslash. -/
  | turned (front back : String) : Respelled (front ++ "/" ++ back) (front ++ "\\" ++ back)
  /-- A separator is doubled. -/
  | doubled {sep : String} (front back : String) :
      sep ∈ separators → Respelled (front ++ sep ++ back) (front ++ sep ++ sep ++ back)
  /-- A dot is put before the path. -/
  | dotBefore {sep : String} (path : String) :
      sep ∈ separators → Respelled path ("." ++ sep ++ path)
  /-- A dot is put after a separator. -/
  | dotBetween {sep sep' : String} (front back : String) :
      sep ∈ separators → sep' ∈ separators →
      Respelled (front ++ sep ++ back) (front ++ sep ++ "." ++ sep' ++ back)
  /-- A dot is put after the path. -/
  | dotAfter {sep : String} (path : String) :
      sep ∈ separators → Respelled path (path ++ sep ++ ".")

/-- Any number of changes to the spelling, made or undone, lead from the one text to the other. -/
def SpelledAlike : String → String → Prop :=
  Relation.EqvGen Respelled

/-! ## Changes to the spelling -/

@[simp] theorem components_forward_dot : components (forward ".") = [] := by
  rw [components_forward_eq_filter]
  rfl

@[simp] theorem components_forward_empty : components (forward "") = [] := by
  rw [components_forward_eq_filter]
  rfl

/-- No change to the spelling changes the components. -/
theorem Respelled.components_eq {path path' : String} (h : Respelled path path') :
    components (forward path) = components (forward path') := by
  cases h with
  | turned front back =>
    rw [components_forward_join slash_mem_separators,
      components_forward_join backslash_mem_separators]
  | @doubled sep front back hs =>
    have twice : components (forward (front ++ sep)) = components (forward front) := by
      simpa using components_forward_join hs front ""
    rw [components_forward_join hs, components_forward_join hs, twice]
  | dotBefore path hs => simp [components_forward_join hs]
  | dotBetween front back hs hs' => simp [components_forward_join hs', components_forward_join hs]
  | dotAfter path hs => simp [components_forward_join hs]

namespace SpelledAlike

variable {p q r : String}

theorem of_respelled (h : Respelled p q) : SpelledAlike p q :=
  .rel _ _ h

theorem symm (h : SpelledAlike p q) : SpelledAlike q p :=
  Relation.EqvGen.symm _ _ h

theorem trans (h : SpelledAlike p q) (h' : SpelledAlike q r) : SpelledAlike p r :=
  Relation.EqvGen.trans _ _ _ h h'

theorem components_eq (h : SpelledAlike p q) : components (forward p) = components (forward q) := by
  induction h with
  | rel p q h => exact h.components_eq
  | refl p => rfl
  | symm p q _ ih => exact ih.symm
  | trans p q r _ _ ih ih' => exact ih.trans ih'

end SpelledAlike

/-! ## The plain spelling -/

/-- Names, each after a slash. -/
def slashed (parts : List String) : String :=
  String.join (parts.map ("/" ++ ·))

theorem slashed_cons (part : String) (parts : List String) :
    slashed (part :: parts) = "/" ++ part ++ slashed parts := by
  simp [slashed]

theorem slashed_eq_intercalate {parts : List String} (h : parts ≠ []) :
    slashed parts = "/" ++ "/".intercalate parts := by
  induction parts with
  | nil => exact absurd rfl h
  | cons part parts ih =>
    rw [slashed_cons]
    by_cases hp : parts = []
    · subst hp
      simp [slashed]
    · rw [ih hp, String.intercalate_cons_of_ne_nil hp]
      simp only [← String.append_assoc]

theorem intercalate_written (path : String) : "/".intercalate (written path) = forward path := by
  have pieces : (written path).map String.toList = (forward path).toList.splitOn '/' := by
    rw [forward, String.toList_map, List.splitOn, splitOnP_forward]
    simp [written]
  rw [← String.toList_inj, String.toList_intercalate, pieces]
  exact List.intercalate_splitOn '/'

theorem slashed_written (path : String) : slashed (written path) = "/" ++ forward path := by
  rw [slashed_eq_intercalate (by simp [written]), intercalate_written]

/-- All backslashes may be turned. -/
theorem spelledAlike_forward (front path : String) :
    SpelledAlike (front ++ path) (front ++ forward path) := by
  obtain ⟨cs, rfl⟩ : ∃ cs, path = String.ofList cs := ⟨path.toList, String.ofList_toList.symm⟩
  induction cs generalizing front with
  | nil =>
    rw [forward, String.map_eq_empty.mpr rfl]
    exact .refl _
  | cons c cs ih =>
    have turned : forward (String.ofList (c :: cs)) =
        String.singleton (if c = '\\' then '/' else c) ++ forward (String.ofList cs) := by
      simp [← String.toList_inj, forward, String.toList_map]
    have text : String.ofList (c :: cs) = String.singleton c ++ String.ofList cs := by
      simp
    rw [turned, text, ← String.append_assoc, ← String.append_assoc]
    split
    · next h =>
      subst h
      exact (SpelledAlike.of_respelled (.turned front _)).symm.trans (ih (front ++ "/"))
    · exact ih _

/-- A part that names nothing may be left out. -/
theorem spelledAlike_unnamed {part : String} (h : isNaming part = false) (front : String)
    (parts : List String) :
    SpelledAlike (front ++ "/" ++ part ++ slashed parts) (front ++ slashed parts) := by
  have slash := slash_mem_separators
  have dotted : SpelledAlike (front ++ "/" ++ ".") front :=
    (SpelledAlike.of_respelled (.dotAfter front slash)).symm
  obtain rfl | rfl : part = "" ∨ part = "." := by
    simpa [isNaming, Decidable.or_iff_not_imp_left] using h
  · cases parts with
    | nil =>
      -- a slash at the end goes once a dot stands after it
      have ended := SpelledAlike.of_respelled (.dotAfter (front ++ "/") slash)
      have once := SpelledAlike.of_respelled (.doubled front "." slash)
      simpa [slashed] using (ended.trans once.symm).trans dotted
    | cons next parts =>
      have twice := SpelledAlike.of_respelled (.doubled front (next ++ slashed parts) slash)
      simp only [slashed_cons, String.append_empty, ← String.append_assoc] at twice ⊢
      exact twice.symm
  · cases parts with
    | nil => simpa [slashed] using dotted
    | cons next parts =>
      have between :=
        SpelledAlike.of_respelled (.dotBetween front (next ++ slashed parts) slash slash)
      simp only [slashed_cons, ← String.append_assoc] at between ⊢
      exact between.symm

theorem spelledAlike_filter (front : String) (parts : List String) :
    SpelledAlike (front ++ slashed parts) (front ++ slashed (parts.filter isNaming)) := by
  induction parts generalizing front with
  | nil => exact .refl _
  | cons part parts ih =>
    have rest := ih (front ++ "/" ++ part)
    rw [slashed_cons, ← String.append_assoc, ← String.append_assoc, List.filter_cons]
    split
    · rw [slashed_cons, ← String.append_assoc, ← String.append_assoc]
      exact rest
    · next h => exact rest.trans (spelledAlike_unnamed (by simpa using h) front _)

/-- Every path can be brought to the spelling that starts with a dot and has each component after a
slash. -/
theorem spelledAlike_plain (path : String) :
    SpelledAlike path ("." ++ slashed (components (forward path))) := by
  have dotted := SpelledAlike.of_respelled (.dotBefore path slash_mem_separators)
  have turned := spelledAlike_forward ("." ++ "/") path
  have filtered := spelledAlike_filter "." (written path)
  rw [slashed_written, ← String.append_assoc, ← components_forward_eq_filter] at filtered
  exact (dotted.trans turned).trans filtered

/-- **A spelling can be changed into every other one of the same components**, and into no more. -/
theorem spelledAlike_iff {path path' : String} :
    SpelledAlike path path' ↔ components (forward path) = components (forward path') := by
  refine ⟨SpelledAlike.components_eq, fun h => ?_⟩
  have plain := spelledAlike_plain path
  rw [h] at plain
  exact plain.trans (spelledAlike_plain path').symm

end PathName

/-! ## Scripts -/

open PathName

theorem isAnalyzable_eq (path : String) :
    isAnalyzable path = (isScriptName ((components (forward path)).getLast?.getD "") &&
      !(components (forward path)).dropLast.any skippedFolders.contains) := rfl

theorem components_ne_nil_iff {path : String} :
    components (forward path) ≠ [] ↔ ∃ part ∈ written path, part ≠ "" ∧ part ≠ "." := by
  simp [components_forward_eq_filter, isNaming, List.filter_eq_nil_iff]

theorem any_components_iff {folder : String} :
    (components (forward folder)).any skippedFolders.contains = false ↔
      ∀ part ∈ written folder, part ∉ skippedFolders := by
  have naming : ∀ part ∈ skippedFolders, isNaming part = true := by decide
  simp only [components_forward_eq_filter, List.any_eq_false, List.mem_filter,
    List.contains_iff_mem, and_imp]
  exact forall₂_congr fun part _ => ⟨fun h skipped => h (naming part skipped) skipped,
    fun h _ => h⟩

theorem isAnalyzable_join {folder path : String} (named : components (forward path) ≠ []) :
    isAnalyzable (folder ++ "/" ++ path) =
      (isAnalyzable path && !(components (forward folder)).any skippedFolders.contains) := by
  have last : (components (forward folder) ++ components (forward path)).getLast? =
      (components (forward path)).getLast? := by
    obtain ⟨name, h⟩ := Option.isSome_iff_exists.mp (List.getLast?_isSome.mpr named)
    rw [List.getLast?_append, h]
    rfl
  rw [isAnalyzable_eq, isAnalyzable_eq, components_forward_slash, last,
    List.dropLast_append_of_ne_nil named, List.any_append, Bool.not_or, Bool.and_assoc,
    Bool.and_comm (!(components (forward path)).dropLast.any _)]

/-- **Whether a path is that of a script can be told in parts and in any spelling.** Below a folder
it is if the path alone is and no component of the folder is skipped; turned or doubled separators
and dots between them make no difference. -/
theorem isAnalyzable_composes :
    (∀ folder path : String, (∃ part ∈ written path, part ≠ "" ∧ part ≠ ".") →
      (isAnalyzable (folder ++ "/" ++ path) = true ↔
        isAnalyzable path = true ∧ ∀ part ∈ written folder, part ∉ skippedFolders)) ∧
    ∀ path path' : String, SpelledAlike path path' → isAnalyzable path = isAnalyzable path' := by
  constructor
  · intro folder path named
    rw [isAnalyzable_join (components_ne_nil_iff.mpr named), Bool.and_eq_true, Bool.not_eq_true',
      any_components_iff]
  · intro path path' same
    rw [isAnalyzable_eq, isAnalyzable_eq, spelledAlike_iff.mp same]

theorem spelledAlike_app : SpelledAlike "lib/App.tsx" ".\\lib/App.tsx" :=
  .of_respelled (.dotBefore "lib/App.tsx" backslash_mem_separators)

theorem isAnalyzable_composes_app :
    (∃ part ∈ written ".\\lib/App.tsx", part ≠ "" ∧ part ≠ ".") ∧
      isAnalyzable ("web\\dist" ++ "/" ++ ".\\lib/App.tsx") = false ∧
      SpelledAlike "lib/App.tsx" ".\\lib/App.tsx" ∧
      isAnalyzable "lib/App.tsx" = isAnalyzable ".\\lib/App.tsx" := by
  have named : ∃ part ∈ written ".\\lib/App.tsx", part ≠ "" ∧ part ≠ "." :=
    ⟨"App.tsx", by decide, by decide⟩
  refine ⟨named, ?_, spelledAlike_app, isAnalyzable_composes.2 _ _ spelledAlike_app⟩
  rw [Bool.eq_false_iff]
  intro script
  have kept := ((isAnalyzable_composes.1 "web\\dist" _ named).mp script).2
  exact kept "dist" (by decide) (by decide)

end ScriptSurvey
