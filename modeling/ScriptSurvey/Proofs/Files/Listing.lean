import Mathlib.Data.String.Basic
import ScriptSurvey.Proofs.Files.Malformed

/-!
# The listing of a folder is exact and in order

A listing goes down from a folder and leaves out whole folders on its way. A file is in it exactly
if the file itself is kept and so is every folder on the way to it (`mem_filesIn_iff`), and the
files come in one order, which their places alone decide (`Precedes`, `pairwise_filesIn`). A list
is known by its members and such an order, so that the listing is the same however the file system
arranges its entries (`listScripts_exact`).
-/

namespace ScriptSurvey

open Entry

/-! ## The order of places -/

/-- Which of two places a listing comes to first. Their ways part in some folder: there the files
come before whatever lies in further folders, and files as well as folders come in the order of
their names. -/
inductive Precedes : List String → List String → Prop where
  | files {x y : String} (h : x < y) : Precedes [x] [y]
  | fileFirst (x y z : String) (rest : List String) : Precedes [x] (y :: z :: rest)
  | folders {x y : String} (h : x < y) (a b : String) (as bs : List String) :
    Precedes (x :: a :: as) (y :: b :: bs)
  | inside (x : String) {p q : List String} (h : Precedes p q) : Precedes (x :: p) (x :: q)

namespace Precedes

variable {p q : List String}

theorem ne_nil (h : Precedes p q) : p ≠ [] ∧ q ≠ [] := by
  cases h <;> simp

theorem asymm (h : Precedes p q) : ¬ Precedes q p := by
  induction h with
  | files lt =>
    rintro (gt | _ | _ | ⟨_, inner⟩)
    · exact lt_asymm lt gt
    · exact inner.ne_nil.1 rfl
  | fileFirst x y z rest =>
    rintro (_ | _ | _ | ⟨_, inner⟩)
    exact inner.ne_nil.2 rfl
  | folders lt a b as bs =>
    rintro (_ | _ | gt | ⟨_, inner⟩)
    · exact lt_asymm lt gt
    · exact lt_irrefl _ lt
  | inside x h ih =>
    rintro (gt | _ | gt | ⟨_, inner⟩)
    · exact h.ne_nil.1 rfl
    · exact h.ne_nil.2 rfl
    · exact lt_irrefl _ gt
    · exact ih inner

theorem append (h : Precedes p q) (here : List String) : Precedes (here ++ p) (here ++ q) := by
  induction here with
  | nil => exact h
  | cons x here ih => exact .inside x ih

end Precedes

/-! ## Sorting by name -/

section Sorting

variable {β γ : Type}

/-- Things whose names differ are sorted strictly. -/
theorem pairwise_byName {xs : List (String × β)} (names : (xs.map Prod.fst).Nodup) :
    (byName xs).Pairwise fun a b => a.1 < b.1 := by
  have sorted : (byName xs).Pairwise fun a b => decide (a.1 ≤ b.1) = true := by
    refine List.pairwise_mergeSort (fun a b c hab hbc => ?_) (fun a b => ?_) xs
    · rw [decide_eq_true_eq] at hab hbc ⊢
      exact hab.trans hbc
    · rw [Bool.or_eq_true, decide_eq_true_eq, decide_eq_true_eq]
      exact le_total _ _
  have differ : (byName xs).Pairwise fun a b => a.1 ≠ b.1 := by
    rw [← List.pairwise_map (f := Prod.fst)]
    exact ((List.mergeSort_perm xs _).map Prod.fst).nodup_iff.mpr names
  refine (sorted.and differ).imp fun {a b} h => ?_
  exact lt_of_le_of_ne (of_decide_eq_true h.1) h.2

theorem mem_byName {xs : List (String × β)} {x : String × β} : x ∈ byName xs ↔ x ∈ xs :=
  (List.mergeSort_perm xs _).mem_iff

/-- Where things keep their names, no names come twice that did not before. -/
theorem nodup_map_fst_filterMap {f : String × β → Option (String × γ)}
    (keeps : ∀ x y, f x = some y → y.1 = x.1) {xs : List (String × β)}
    (names : (xs.map Prod.fst).Nodup) : ((xs.filterMap f).map Prod.fst).Nodup := by
  have sub : ((xs.filterMap f).map Prod.fst).Sublist (xs.map Prod.fst) := by
    clear names
    induction xs with
    | nil => exact .slnil
    | cons x xs ih =>
      cases hx : f x with
      | none =>
        rw [List.filterMap_cons_none hx]
        exact ih.cons _
      | some y =>
        rw [List.filterMap_cons_some hx, List.map_cons, List.map_cons, keeps x y hx]
        exact ih.cons_cons _
  exact names.sublist sub

end Sorting

/-! ## One folder -/

section Arrange

variable {listed : List (String × Listed)} {f : Found}

theorem mem_arrange : f ∈ arrange listed ↔ ∃ x ∈ listed, f ∈ x.2.found := by
  rw [(arrange_perm listed).mem_iff, List.mem_flatMap]

/-- The contributions to a listing are put in order: files by name before all else, and then what
the folders contribute, by their names. -/
theorem pairwise_arrange {R : Found → Found → Prop} (names : (listed.map Prod.fst).Nodup)
    (files : ∀ x y f g, (x, .file f) ∈ listed → (y, .file g) ∈ listed → x < y → R f g)
    (mixed : ∀ x y f gs, (x, .file f) ∈ listed → (y, .folder gs) ∈ listed → ∀ g ∈ gs, R f g)
    (folders : ∀ x y fs gs, (x, .folder fs) ∈ listed → (y, .folder gs) ∈ listed → x < y →
      ∀ f ∈ fs, ∀ g ∈ gs, R f g)
    (inside : ∀ x fs, (x, .folder fs) ∈ listed → fs.Pairwise R) :
    (arrange listed).Pairwise R := by
  unfold arrange
  dsimp only
  rw [List.pairwise_append, List.pairwise_map, List.pairwise_flatMap]
  refine ⟨?_, ⟨fun a ha => ?_, ?_⟩, ?_⟩
  · refine (pairwise_byName (nodup_map_fst_filterMap ?_ names)).imp_of_mem fun {a b} ha hb lt => ?_
    · rintro ⟨x, f | fs⟩ y ⟨⟩
      rfl
    · rw [mem_byName, List.mem_filterMap] at ha hb
      obtain ⟨⟨x, f | fs⟩, hx, ⟨⟩⟩ := ha
      obtain ⟨⟨y, g | gs⟩, hy, ⟨⟩⟩ := hb
      exact files x y f g hx hy lt
  · rw [mem_byName, List.mem_filterMap] at ha
    obtain ⟨⟨x, f | fs⟩, hx, ⟨⟩⟩ := ha
    exact inside x fs hx
  · refine (pairwise_byName (nodup_map_fst_filterMap ?_ names)).imp_of_mem fun {a b} ha hb lt => ?_
    · rintro ⟨x, f | fs⟩ y ⟨⟩
      rfl
    · rw [mem_byName, List.mem_filterMap] at ha hb
      obtain ⟨⟨x, f | fs⟩, hx, ⟨⟩⟩ := ha
      obtain ⟨⟨y, g | gs⟩, hy, ⟨⟩⟩ := hb
      exact folders x y fs gs hx hy lt
  · intro f hf g hg
    rw [List.mem_map] at hf
    rw [List.mem_flatMap] at hg
    obtain ⟨a, ha, rfl⟩ := hf
    obtain ⟨b, hb, hg⟩ := hg
    rw [mem_byName, List.mem_filterMap] at ha hb
    obtain ⟨⟨x, f | fs⟩, hx, ⟨⟩⟩ := ha
    obtain ⟨⟨y, g' | gs⟩, hy, ⟨⟩⟩ := hb
    exact mixed x y f gs hx hy g hg

end Arrange

section Listed

variable {keep : Keeping} {here : List String} {entries : List (String × Entry)}

/-- What an entry contributes to the listing of the folder that it is in. -/
def listed? (keep : Keeping) (here : List String) (entry : String × Entry) :
    Option (String × Listed) :=
  match entry.2 with
  | .file bytes =>
    if keep.file (here ++ [entry.1]) then
      some (entry.1, .file ⟨here ++ [entry.1], bytes⟩)
    else none
  | .folder inner =>
    if keep.folder (here ++ [entry.1]) then
      some (entry.1, .folder (filesIn keep (here ++ [entry.1]) (.folder inner)))
    else none

theorem listedIn_eq_filterMap : listedIn keep here entries = entries.filterMap (listed? keep here) := by
  induction entries with
  | nil => rw [listedIn, List.filterMap_nil]
  | cons entry rest ih =>
    obtain ⟨name, e⟩ := entry
    cases e with
    | file bytes =>
      rw [listedIn, ih, List.filterMap_cons]
      dsimp only [listed?]
      split_ifs <;> rfl
    | folder inner =>
      rw [listedIn, ih, List.filterMap_cons]
      dsimp only [listed?]
      split_ifs <;> rfl

theorem file_mem_listedIn {name : String} {f : Found} :
    (name, .file f) ∈ listedIn keep here entries ↔ ∃ bytes, (name, .file bytes) ∈ entries ∧
      keep.file (here ++ [name]) = true ∧ f = ⟨here ++ [name], bytes⟩ := by
  rw [listedIn_eq_filterMap, List.mem_filterMap]
  constructor
  · rintro ⟨⟨other, e⟩, hm, h⟩
    cases e with
    | file bytes =>
      obtain ⟨kept, h⟩ := Option.ite_none_right_eq_some.mp h
      cases h
      exact ⟨bytes, hm, kept, rfl⟩
    | folder inner =>
      obtain ⟨kept, h⟩ := Option.ite_none_right_eq_some.mp h
      cases h
  · rintro ⟨bytes, hm, kept, rfl⟩
    exact ⟨_, hm, if_pos kept⟩

theorem folder_mem_listedIn {name : String} {found : List Found} :
    (name, .folder found) ∈ listedIn keep here entries ↔ ∃ inner, (name, .folder inner) ∈ entries ∧
      keep.folder (here ++ [name]) = true ∧
      found = filesIn keep (here ++ [name]) (.folder inner) := by
  rw [listedIn_eq_filterMap, List.mem_filterMap]
  constructor
  · rintro ⟨⟨other, e⟩, hm, h⟩
    cases e with
    | file bytes =>
      obtain ⟨kept, h⟩ := Option.ite_none_right_eq_some.mp h
      cases h
    | folder inner =>
      obtain ⟨kept, h⟩ := Option.ite_none_right_eq_some.mp h
      cases h
      exact ⟨inner, hm, kept, rfl⟩
  · rintro ⟨inner, hm, kept, rfl⟩
    exact ⟨_, hm, if_pos kept⟩

theorem nodup_names_listedIn (names : (entries.map Prod.fst).Nodup) :
    ((listedIn keep here entries).map Prod.fst).Nodup := by
  rw [listedIn_eq_filterMap]
  refine nodup_map_fst_filterMap ?_ names
  rintro ⟨name, e⟩ y h
  cases e with
  | file bytes =>
    obtain ⟨-, h⟩ := Option.ite_none_right_eq_some.mp h
    cases h
    rfl
  | folder inner =>
    obtain ⟨-, h⟩ := Option.ite_none_right_eq_some.mp h
    cases h
    rfl

end Listed

/-! ## A whole tree -/

section Tree

variable {keep : Keeping} {here : List String} {entries : List (String × Entry)} {f : Found}

/-- One step down: a listing has the files of the folder that are kept, and the listings of those
folders in it that are. -/
theorem mem_filesIn_folder :
    f ∈ filesIn keep here (.folder entries) ↔
      (∃ name bytes, (name, .file bytes) ∈ entries ∧ keep.file (here ++ [name]) = true ∧
        f = ⟨here ++ [name], bytes⟩) ∨
      ∃ name inner, (name, .folder inner) ∈ entries ∧ keep.folder (here ++ [name]) = true ∧
        f ∈ filesIn keep (here ++ [name]) (.folder inner) := by
  rw [filesIn, mem_arrange]
  constructor
  · rintro ⟨⟨name, g | found⟩, hm, hf⟩
    · obtain ⟨bytes, he, kept, rfl⟩ := file_mem_listedIn.mp hm
      exact .inl ⟨name, bytes, he, kept, List.mem_singleton.mp hf⟩
    · obtain ⟨inner, he, kept, rfl⟩ := folder_mem_listedIn.mp hm
      exact .inr ⟨name, inner, he, kept, hf⟩
  · rintro (⟨name, bytes, he, kept, rfl⟩ | ⟨name, inner, he, kept, hf⟩)
    · exact ⟨_, file_mem_listedIn.mpr ⟨bytes, he, kept, rfl⟩, List.mem_singleton_self _⟩
    · exact ⟨_, folder_mem_listedIn.mpr ⟨inner, he, kept, rfl⟩, hf⟩

/-- A file below a folder has a longer place than the folder. -/
theorem place_of_mem_files_folder (h : f ∈ (folder entries).files here) :
    ∃ name rest, f.place = here ++ name :: rest := by
  obtain ⟨entry, -, deep⟩ := mem_files_folder.mp h
  obtain ⟨rest, hrest⟩ := place_of_mem_files deep
  exact ⟨entry.1, rest, by rw [← hrest]; simp⟩

/-- The folders strictly between `here` and a place are kept. -/
def Keeping.WayTo (keep : Keeping) (here place : List String) : Prop :=
  ∀ front back, place = here ++ front ++ back → front ≠ [] → back ≠ [] →
    keep.folder (here ++ front) = true

theorem Keeping.wayTo_concat {name : String} {rest : List String} (hrest : rest ≠ []) :
    keep.WayTo here (here ++ [name] ++ rest) ↔
      keep.folder (here ++ [name]) = true ∧
        keep.WayTo (here ++ [name]) (here ++ [name] ++ rest) := by
  constructor
  · intro h
    refine ⟨h [name] rest rfl (by simp) hrest, fun front back hp hf hb => ?_⟩
    have longer := h (name :: front) back (by simpa using hp) (by simp) hb
    simpa using longer
  · rintro ⟨first, later⟩ front back hp hf hb
    obtain ⟨x, front, rfl⟩ := List.exists_cons_of_ne_nil hf
    have parts : x = name ∧ front ++ back = rest := by simpa [eq_comm] using hp
    obtain ⟨rfl, rfl⟩ := parts
    cases front with
    | nil => exact first
    | cons y front =>
      have := later (y :: front) back (by simp) (by simp) hb
      simpa using this

/-- **The members of a listing** are the files that are kept with every folder on the way. -/
theorem mem_filesIn_iff :
    f ∈ filesIn keep here (.folder entries) ↔
      f ∈ (folder entries).files here ∧ keep.file f.place = true ∧ keep.WayTo here f.place := by
  induction hE : folder entries using inductionOn generalizing here entries with
  | file bytes => cases hE
  | folder among ih =>
    cases hE
    rw [mem_filesIn_folder, mem_files_folder]
    constructor
    · rintro (⟨name, bytes, he, kept, rfl⟩ | ⟨name, inner, he, kept, hf⟩)
      · refine ⟨⟨_, he, by simp [files]⟩, kept, fun front back hp hfront hback => ?_⟩
        -- no folder is between a folder and a file in it
        have one := congrArg List.length hp
        have := List.length_pos_iff.mpr hfront
        have := List.length_pos_iff.mpr hback
        simp only [List.length_append, List.length_singleton] at one
        omega
      · obtain ⟨below, file, way⟩ := (ih _ he rfl).mp hf
        obtain ⟨next, rest, hplace⟩ := place_of_mem_files_folder below
        refine ⟨⟨_, he, below⟩, file, ?_⟩
        rw [hplace] at way ⊢
        exact (Keeping.wayTo_concat (by simp)).mpr ⟨kept, way⟩
    · rintro ⟨⟨⟨name, e⟩, he, hf⟩, file, way⟩
      cases e with
      | file bytes =>
        rw [files, List.mem_singleton] at hf
        subst hf
        exact .inl ⟨name, bytes, he, file, rfl⟩
      | folder inner =>
        obtain ⟨next, rest, hplace⟩ := place_of_mem_files_folder hf
        have split := way
        rw [hplace] at split
        obtain ⟨kept, later⟩ := (Keeping.wayTo_concat (by simp)).mp split
        rw [← hplace] at later
        exact .inr ⟨name, inner, he, kept, (ih _ he rfl).mpr ⟨hf, file, later⟩⟩

theorem nodup_names_of_allProper (proper : allProper entries = true) :
    (entries.map Prod.fst).Nodup := by
  induction entries with
  | nil => exact List.nodup_nil
  | cons entry rest ih =>
    simp only [allProper, Bool.and_eq_true, Bool.not_eq_true', List.any_eq_false,
      beq_iff_eq] at proper
    obtain ⟨⟨⟨-, differ⟩, -⟩, others⟩ := proper
    rw [List.map_cons, List.nodup_cons]
    refine ⟨fun hm => ?_, ih others⟩
    obtain ⟨other, ho, same⟩ := List.mem_map.mp hm
    exact differ other ho same

/-- A file of a listing has a name, or several, after the place of the folder. -/
theorem exists_place_eq_of_mem_filesIn {name : String} {inner : List (String × Entry)}
    (h : f ∈ filesIn keep (here ++ [name]) (.folder inner)) :
    ∃ a as, f.place = here ++ name :: a :: as := by
  obtain ⟨a, as, hplace⟩ := place_of_mem_files_folder (mem_filesIn_iff.mp h).1
  exact ⟨a, as, by rw [hplace, List.append_assoc, List.singleton_append]⟩

/-- **The order of a listing** is that of the places. -/
theorem pairwise_filesIn (keep : Keeping) (here : List String)
    (proper : (folder entries).isProper = true) :
    (filesIn keep here (.folder entries)).Pairwise fun f g => Precedes f.place g.place := by
  induction hE : folder entries using inductionOn generalizing here entries with
  | file bytes => cases hE
  | folder among ih =>
    cases hE
    rw [isProper] at proper
    rw [filesIn]
    refine pairwise_arrange (nodup_names_listedIn (nodup_names_of_allProper proper))
      ?_ ?_ ?_ ?_
    · intro x y f g hf hg lt
      obtain ⟨_, -, -, rfl⟩ := file_mem_listedIn.mp hf
      obtain ⟨_, -, -, rfl⟩ := file_mem_listedIn.mp hg
      exact (Precedes.files lt).append here
    · intro x y f gs hf hgs g hg
      obtain ⟨_, -, -, rfl⟩ := file_mem_listedIn.mp hf
      obtain ⟨_, -, -, rfl⟩ := folder_mem_listedIn.mp hgs
      obtain ⟨b, bs, hplace⟩ := exists_place_eq_of_mem_filesIn hg
      rw [hplace]
      exact (Precedes.fileFirst x y b bs).append here
    · intro x y fs gs hfs hgs lt f hf g hg
      obtain ⟨_, -, -, rfl⟩ := folder_mem_listedIn.mp hfs
      obtain ⟨_, -, -, rfl⟩ := folder_mem_listedIn.mp hgs
      obtain ⟨a, as, hf⟩ := exists_place_eq_of_mem_filesIn hf
      obtain ⟨b, bs, hg⟩ := exists_place_eq_of_mem_filesIn hg
      rw [hf, hg]
      exact (Precedes.folders lt a b as bs).append here
    · intro x fs hfs
      obtain ⟨inner, hm, -, rfl⟩ := folder_mem_listedIn.mp hfs
      exact ih _ hm _ (mem_of_allProper proper hm).2 rfl

end Tree

/-! ## What is seen of a tree -/

/-- The files of a tree are what is seen of it. -/
theorem mem_files_iff_look {e : Entry} (proper : e.isProper = true) {here : List String}
    {f : Found} :
    f ∈ e.files here ↔ ∃ rest, f.place = here ++ rest ∧ e.look rest = some (.file f.bytes) := by
  induction e using inductionOn generalizing here with
  | file bytes =>
    rw [files, List.mem_singleton]
    constructor
    · rintro rfl
      exact ⟨[], by simp, rfl⟩
    · rintro ⟨rest, hp, hl⟩
      cases rest with
      | nil =>
        obtain ⟨place, found⟩ := f
        cases hl
        simpa using hp
      | cons name rest => simp at hl
  | folder entries ih =>
    rw [isProper] at proper
    rw [mem_files_folder]
    constructor
    · rintro ⟨entry, hm, hf⟩
      obtain ⟨rest, hp, hl⟩ := (ih entry hm (mem_of_allProper proper hm).2).mp hf
      refine ⟨entry.1 :: rest, by simpa using hp, ?_⟩
      rw [look_folder_cons, lookup_of_mem proper hm]
      exact hl
    · rintro ⟨rest, hp, hl⟩
      cases rest with
      | nil => cases hl
      | cons name rest =>
        rw [look_folder_cons] at hl
        obtain ⟨inner, hi, hl⟩ := Option.bind_eq_some_iff.mp hl
        have hm := mem_of_lookup hi
        refine ⟨(name, inner), hm, (ih _ hm (mem_of_allProper proper hm).2).mpr ⟨rest, ?_, hl⟩⟩
        simpa using hp

/-- A folder with the same entries in another order is seen as it was. -/
theorem look_folder_congr {entries entries' : List (String × Entry)}
    (proper : allProper entries = true) (proper' : allProper entries' = true)
    (same : ∀ entry, entry ∈ entries' ↔ entry ∈ entries) (m : Location) :
    (folder entries').look m = (folder entries).look m := by
  cases m with
  | nil => rfl
  | cons name rest =>
    have lookup : entries'.lookup name = entries.lookup name := by
      ext e
      constructor
      · intro h
        exact lookup_of_mem proper ((same _).mp (mem_of_lookup h))
      · intro h
        exact lookup_of_mem proper' ((same _).mpr (mem_of_lookup h))
    rw [look_folder_cons, look_folder_cons, lookup]

/-- Where the same is seen, paths lead to the same places. -/
theorem World.Leads.of_look_eq {w : World} {p : Path} {l : Location} {s : Sight}
    (h : w.Leads p l s) {top : Entry} (same : ∀ m, top.look m = w.top.look m) :
    World.Leads { w with top } p l s := by
  refine ⟨follow_mono (fun m hm => ?_) (fun m hm => ?_) h.locate, (same l).trans h.look⟩
  · rw [same, hm]
  · rw [same]
    exact hm

theorem Ignore.repositoryRoot_of_look_eq {top top' : Entry} (same : ∀ m, top'.look m = top.look m)
    (l : Location) : repositoryRoot top' l = repositoryRoot top l := by
  have there : ∀ m, (top'.at? m).isSome = (top.at? m).isSome := by
    intro m
    have seen := congrArg Option.isSome (same m)
    rwa [look, look, Option.isSome_map, Option.isSome_map] at seen
  rw [repositoryRoot, repositoryRoot]
  simp only [there]

/-- Whether the rules can be read is a matter of what is seen. -/
theorem Ignore.exists_rulesAt_of_look_eq {top top' : Entry} {l : Location} {rules : Rules}
    (proper : top.isProper = true) (proper' : top'.isProper = true)
    (same : ∀ m, top'.look m = top.look m) (h : rulesAt top l = .ok rules) :
    ∃ rules', rulesAt top' l = .ok rules' := by
  rw [exists_rulesAt_iff_noMalformedLine proper']
  have readable := (exists_rulesAt_iff_noMalformedLine proper).mp ⟨rules, h⟩
  unfold NoMalformedLine at readable ⊢
  rw [repositoryRoot_of_look_eq same]
  simpa only [same] using readable

/-- The folder at a path, all of whose names differ, is listed. -/
theorem World.Leads.listScripts {w : World} {p : Path} {l : Location} (h : w.Leads p l .folder)
    (proper : w.top.isProper = true) {rules : Ignore.Rules}
    (loaded : Ignore.rulesAt w.top l = .ok rules) :
    ∃ entries, w.top.at? l = some (.folder entries) ∧ (Entry.folder entries).isProper = true ∧
      listScripts w p = .ok (filesIn (keeping rules l) [] (.folder entries)) := by
  obtain ⟨entries, he⟩ := look_eq_folder.mp h.look
  refine ⟨entries, he, isProper_of_at? proper he, ?_⟩
  rw [ScriptSurvey.listScripts, h.resolve, h.entry_eq, he, loaded]
  rfl

/-- The file passes the rules of a listing: it is a script, it is not ignored, and no folder on the
way to it from the folder at `base` is skipped by its name or ignored. -/
def Found.Passes (f : Found) (rules : Ignore.Rules) (base : Location) : Prop :=
  isAnalyzable f.name = true ∧ rules.ignore (base ++ f.place) false = false ∧
    ∀ front name back, f.place = front ++ name :: back → back ≠ [] →
      name ∉ skippedFolders ∧ rules.ignore (base ++ front ++ [name]) true = false

theorem passes_iff {f : Found} {rules : Ignore.Rules} {base : Location} :
    f.Passes rules base ↔
      (keeping rules base).file f.place = true ∧ (keeping rules base).WayTo [] f.place := by
  unfold Found.Passes Keeping.WayTo keeping
  simp only [Bool.and_eq_true, Bool.not_eq_true', Found.name, and_assoc]
  refine and_congr_right fun _ => and_congr_right fun _ => ⟨?_, ?_⟩
  · intro h front back hp hf hb
    obtain ⟨before, name, rfl⟩ := (List.eq_nil_or_concat front).resolve_left hf
    rw [List.concat_eq_append] at hp ⊢
    obtain ⟨kept, seen⟩ := h before name back (by simpa using hp) hb
    simpa [kept] using seen
  · intro h front name back hp hb
    have := h (front ++ [name]) back (by simpa using hp) (by simp) hb
    simpa using this

/-- **The listing of a folder is exact and in order.** If the rules that hold at a folder can be
read, its listing has each file that passes the rules, and no other, and each once; in every folder
the files come first, by name, and then what lies in its folders, by their names. A tree in which
the same is seen, with the entries of its folders in any order, has the same listing, as long as the
same is ignored in it. -/
theorem listScripts_exact {w : World} {p : Path} {l : Location} {rules : Ignore.Rules}
    (leads : w.Leads p l .folder) (proper : w.top.isProper = true)
    (loaded : Ignore.rulesAt w.top l = .ok rules) :
    ∃ listed, listScripts w p = .ok listed ∧
      (∀ f, f ∈ listed ↔
        w.top.look (l ++ f.place) = some (.file f.bytes) ∧ f.Passes rules l) ∧
      (listed.map (·.place)).Nodup ∧
      listed.Pairwise (fun f g => Precedes f.place g.place) ∧
      ∀ top : Entry, top.isProper = true → (∀ m, top.look m = w.top.look m) →
        ∃ rules', Ignore.rulesAt top l = .ok rules' ∧
          ((∀ m isFolder, rules'.ignore m isFolder = rules.ignore m isFolder) →
            listScripts { w with top } p = .ok listed) := by
  have members : ∀ {v : World} {read : Ignore.Rules} {entries : List (String × Entry)},
      v.top.at? l = some (.folder entries) → (folder entries).isProper = true → ∀ f,
      f ∈ filesIn (keeping read l) [] (.folder entries) ↔
        v.top.look (l ++ f.place) = some (.file f.bytes) ∧ f.Passes read l := by
    intro v read entries he hp f
    rw [mem_filesIn_iff, mem_files_iff_look hp, passes_iff, look_append, he]
    simp
  obtain ⟨entries, he, hp, listed⟩ := leads.listScripts proper loaded
  have ordered := pairwise_filesIn (keeping rules l) [] hp
  have nodup : ((filesIn (keeping rules l) [] (.folder entries)).map (·.place)).Nodup := by
    rw [List.Nodup, List.pairwise_map]
    refine ordered.imp fun {f g} before same => ?_
    rw [same] at before
    exact before.asymm before
  refine ⟨_, listed, members he hp, nodup, ordered, fun top proper' same => ?_⟩
  obtain ⟨rules', loaded'⟩ := Ignore.exists_rulesAt_of_look_eq proper proper' same loaded
  refine ⟨rules', loaded', fun agree => ?_⟩
  obtain ⟨entries', he', hp', listed'⟩ :=
    (leads.of_look_eq same).listScripts (w := { w with top }) proper' loaded'
  have ordered' := pairwise_filesIn (keeping rules' l) [] hp'
  rw [listed']
  congr 1
  -- Both lists have the same members, each once, and the order leaves no choice.
  refine List.Perm.eq_of_pairwise (fun f g _ _ before after => absurd after before.asymm)
    ordered' ordered ((List.perm_ext_iff_of_nodup ?_ ?_).mpr fun f => ?_)
  · exact ordered'.imp fun {f g} before => fun same => before.asymm (same ▸ before)
  · exact nodup.of_map
  · rw [members he hp, members (v := { w with top }) he' hp', same]
    simp only [Found.Passes, agree]

/-- A folder with two scripts and an ignored one, from which a script is excepted in vain; and the
same with the entries in the opposite order. -/
theorem listScripts_exact_reversed :
    let entries : List (String × Entry) :=
      [(".git", .file []),
       (Ignore.fileName, .file [103, 101, 110, 47, 10, 33, 107, 101, 101, 112, 46, 106, 115]),
       ("gen", .folder [("keep.js", .file [])]),
       ("lib", .folder [("c.js", .file [99]), ("b.js", .file [98])]), ("z.js", .file [122])]
    let w : World := { top := .folder entries }
    ∃ listed, listScripts w (.ofLocation []) = .ok listed ∧
      ⟨["lib", "b.js"], [98]⟩ ∈ listed ∧ ⟨["gen", "keep.js"], []⟩ ∉ listed ∧
      listScripts { w with top := .folder entries.reverse } (.ofLocation []) = .ok listed := by
  intro entries w
  have proper : allProper entries = true := by decide
  have proper' : allProper entries.reverse = true := by decide
  obtain ⟨rules, loaded, loaded', gen, lib, script⟩ : ∃ rules, Ignore.rulesAt w.top [] = .ok rules ∧
      Ignore.rulesAt (.folder entries.reverse) [] = .ok rules ∧ rules.ignore ["gen"] true = true ∧
      rules.ignore ["lib"] true = false ∧ rules.ignore ["lib", "b.js"] false = false :=
    ⟨_, rfl, rfl, by decide, by decide, by decide⟩
  obtain ⟨listed, hl, members, -, -, stable⟩ :=
    listScripts_exact (w := w) (p := .ofLocation []) (l := []) ⟨rfl, rfl⟩ proper loaded
  obtain ⟨rules', hr, reversed⟩ := stable (.folder entries.reverse) proper'
    (look_folder_congr proper proper' fun _ => List.mem_reverse)
  obtain rfl : rules' = rules := Except.ok.inj (hr.symm.trans loaded')
  refine ⟨listed, hl, (members _).mpr ⟨rfl, by decide +kernel, script, ?_⟩, ?_,
    reversed fun _ _ => rfl⟩
  · intro front name back place below
    obtain ⟨rfl, first⟩ | ⟨rest, -, place⟩ := List.cons_eq_append_iff.mp place
    · obtain rfl : name = "lib" := (List.cons.inj first).1
      exact ⟨by decide, lib⟩
    · -- After the folder `lib` only the script itself is left.
      have short := congrArg List.length place
      have := List.length_pos_of_ne_nil below
      simp at short
      omega
  · intro kept
    have seen := (((members _).mp kept).2.2.2 [] "gen" ["keep.js"] rfl (by simp)).2
    exact absurd (gen.symm.trans seen) (by simp)

end ScriptSurvey
