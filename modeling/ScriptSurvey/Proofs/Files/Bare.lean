import ScriptSurvey.Files.Listing
import ScriptSurvey.Proofs.Files.Names
import ScriptSurvey.Proofs.Files.World

/-!
# The files without the reports kept among them

`Entry.bare` is a tree without the files in which reports are kept. To keep a report changes nothing
of it (`bare_put`), and whatever a listing asks of a tree it can ask of the bare one: where the
repository starts (`repositoryRoot_bare`), which patterns its ignore files hold (`patternsIn_bare`)
and which scripts there are (`filesIn_bare`), since no file that holds a report is a script
(`isAnalyzable_report`).
-/

namespace ScriptSurvey

open Cache (isReportName)

namespace Entry

/-! ## Bare trees -/

@[elab_as_elim]
theorem inductionOn {motive : Entry → Prop} (e : Entry) (file : ∀ bytes, motive (.file bytes))
    (folder : ∀ entries : List (String × Entry), (∀ entry ∈ entries, motive entry.2) →
      motive (.folder entries)) : motive e :=
  @Entry.rec motive (fun entries => ∀ entry ∈ entries, motive entry.2)
    (fun entry => motive entry.2) file folder (List.forall_mem_nil _)
    (fun _ _ first rest => List.forall_mem_cons.mpr ⟨first, rest⟩) (fun _ _ h => h) e

mutual

/-- The tree without the files in which reports are kept. -/
def bare : Entry → Entry
  | .file bytes => .file bytes
  | .folder entries => .folder (bareAll entries)

@[inherit_doc bare]
def bareAll : List (String × Entry) → List (String × Entry)
  | [] => []
  | (name, entry) :: rest =>
    if isReportName name && !entry.isFolder then bareAll rest
    else (name, bare entry) :: bareAll rest

end

mutual

/-- Whether no file and no folder has the name of a file in which a report is kept. -/
def isClean : Entry → Bool
  | .file _ => true
  | .folder entries => allClean entries

@[inherit_doc isClean]
def allClean : List (String × Entry) → Bool
  | [] => true
  | (name, entry) :: rest => !isReportName name && isClean entry && allClean rest

end

@[simp]
theorem bare_file (bytes : List UInt8) : (file bytes).bare = .file bytes := by
  rw [bare]

@[simp]
theorem bare_folder (entries : List (String × Entry)) :
    (folder entries).bare = .folder (bareAll entries) := by
  rw [bare]

@[simp]
theorem isFolder_bare (e : Entry) : e.bare.isFolder = e.isFolder := by
  cases e <;> simp [isFolder]

@[simp]
theorem sight_bare (e : Entry) : e.bare.sight = e.sight := by
  cases e <;> simp [sight]

/-- A clean tree is bare. -/
theorem bare_of_isClean {e : Entry} (h : e.isClean = true) : e.bare = e := by
  induction e using inductionOn with
  | file bytes => exact bare_file bytes
  | folder entries ih =>
    rw [bare_folder]
    congr 1
    rw [isClean] at h
    induction entries with
    | nil => rw [bareAll]
    | cons entry rest ihr =>
      obtain ⟨name, e⟩ := entry
      simp only [allClean, Bool.and_eq_true, Bool.not_eq_true'] at h
      rw [bareAll, h.1.1, Bool.false_and, if_neg Bool.false_ne_true,
        ih (name, e) List.mem_cons_self h.1.2,
        ihr (fun entry he => ih entry (List.mem_cons_of_mem _ he)) h.2]

section Lookup

variable {entries : List (String × Entry)} {name : String} {e : Entry}

/-- Under any other name a folder and the bare one hold the same. -/
theorem lookup_bareAll (hn : isReportName name = false) :
    (bareAll entries).lookup name = (entries.lookup name).map bare := by
  induction entries with
  | nil => simp [bareAll]
  | cons entry rest ih =>
    obtain ⟨other, e⟩ := entry
    rw [bareAll]
    by_cases h : name = other
    · subst h
      simp [hn]
    · have hne : (name == other) = false := beq_false_of_ne h
      split_ifs
      · rw [ih, List.lookup_cons, hne]
      · rw [List.lookup_cons, hne, ih, List.lookup_cons, hne]

/-- Folders stay, whatever their names. -/
theorem lookup_bareAll_folder {inner : List (String × Entry)}
    (he : entries.lookup name = some (.folder inner)) :
    (bareAll entries).lookup name = some (.folder (bareAll inner)) := by
  induction entries with
  | nil => cases he
  | cons entry rest ih =>
    obtain ⟨other, e⟩ := entry
    rw [List.lookup_cons] at he
    rw [bareAll]
    split at he
    · next same =>
      cases he
      simp [isFolder, List.lookup_cons, same]
    · next differ =>
      split_ifs
      · exact ih he
      · rw [List.lookup_cons, differ]
        exact ih he

theorem isReportName_of_lookup (h : allClean entries = true) (he : entries.lookup name = some e) :
    isReportName name = false ∧ e.isClean = true := by
  induction entries with
  | nil => cases he
  | cons entry rest ih =>
    obtain ⟨other, first⟩ := entry
    simp only [allClean, Bool.and_eq_true, Bool.not_eq_true'] at h
    rw [List.lookup_cons] at he
    split at he
    · next same =>
      cases he
      rw [beq_iff_eq.mp same]
      exact h.1
    · exact ih h.2 he

end Lookup

section Locations

variable {e : Entry} {l : Location}

/-- In a clean tree every location that leads somewhere is free of such names. -/
theorem names_of_at? {found : Entry} (h : e.isClean = true) (hf : e.at? l = some found) :
    ∀ name ∈ l, isReportName name = false := by
  induction l generalizing e with
  | nil => exact List.forall_mem_nil _
  | cons first rest ih =>
    rw [at?_cons] at hf
    obtain ⟨inner, hi, below⟩ := Option.bind_eq_some_iff.mp hf
    cases e with
    | file bytes => cases hi
    | folder entries =>
      rw [isClean] at h
      obtain ⟨hname, hclean⟩ := isReportName_of_lookup h hi
      exact List.forall_mem_cons.mpr ⟨hname, ih hclean below⟩

/-- At any other location the bare tree has the bare entry. -/
theorem at?_bare (hl : ∀ name ∈ l, isReportName name = false) :
    e.bare.at? l = (e.at? l).map bare := by
  induction l generalizing e with
  | nil => simp
  | cons first rest ih =>
    obtain ⟨hfirst, hrest⟩ := List.forall_mem_cons.mp hl
    cases e with
    | file bytes => simp [child?]
    | folder entries =>
      rw [at?_cons, at?_cons, bare_folder]
      change ((bareAll entries).lookup first).bind _ = ((entries.lookup first).bind _).map _
      rw [lookup_bareAll hfirst, Option.bind_map, Option.map_bind]
      exact congrArg _ (funext fun inner => ih hrest)

theorem look_bare (hl : ∀ name ∈ l, isReportName name = false) : e.bare.look l = e.look l := by
  rw [look, at?_bare hl, Option.map_map, look]
  exact congrArg (Option.map · (e.at? l)) (funext sight_bare)

/-- A tree and the bare one have the same folders. -/
theorem at?_bare_folder {entries : List (String × Entry)} (h : e.at? l = some (.folder entries)) :
    e.bare.at? l = some (.folder (bareAll entries)) := by
  induction l generalizing e with
  | nil =>
    cases Option.some.inj ((at?_nil e).symm.trans h)
    simp
  | cons first rest ih =>
    rw [at?_cons] at h
    obtain ⟨inner, hi, below⟩ := Option.bind_eq_some_iff.mp h
    cases e with
    | file bytes => cases hi
    | folder held =>
      cases inner with
      | file bytes => cases rest <;> simp [child?] at below
      | folder within =>
        rw [bare_folder, at?_cons, child?, lookup_bareAll_folder hi, Option.bind_some, ← bare_folder]
        exact ih below

theorem look_bare_folder (h : e.look l = some .folder) : e.bare.look l = some .folder := by
  obtain ⟨entries, he⟩ := look_eq_folder.mp h
  exact look_eq_folder.mpr ⟨_, at?_bare_folder he⟩

/-- In every folder the bare tree has what stands under other names. -/
theorem at?_bare_concat (h : e.look l = some .folder) {name : String}
    (hn : isReportName name = false) : e.bare.at? (l ++ [name]) = (e.at? (l ++ [name])).map bare := by
  obtain ⟨entries, he⟩ := look_eq_folder.mp h
  rw [at?_append, at?_append, at?_bare_folder he, he, Option.bind_some, Option.bind_some]
  simp [child?, lookup_bareAll hn]

/-- What is seen of a bare tree that is clean is seen of the tree. -/
theorem look_of_look_bare {s : Sight} (hc : e.bare.isClean = true) (h : e.bare.look l = some s) :
    e.look l = some s := by
  obtain ⟨found, hf, -⟩ := Option.map_eq_some_iff.mp h
  rw [← look_bare (names_of_at? hc hf)]
  exact h

end Locations

/-! ## Keeping a report -/

section Put

variable {entries : List (String × Entry)} {name : String}

/-- A file that holds a report comes and goes unseen. -/
theorem bareAll_alterEntry_report {f : Option Entry → Option Entry} (hn : isReportName name = true)
    (hf : ∀ old e, f old = some e → e.isFolder = false)
    (he : ∀ inner, entries.lookup name ≠ some (.folder inner)) :
    bareAll (alterEntry name f entries) = bareAll entries := by
  have unseen : ∀ old rest, bareAll (((f old).map (name, ·)).toList ++ rest) = bareAll rest := by
    intro old rest
    cases ho : f old with
    | none => rfl
    | some e => simp [bareAll, hn, hf old e ho]
  induction entries with
  | nil => rw [alterEntry, ← List.append_nil (Option.toList _), unseen]
  | cons entry rest ih =>
    obtain ⟨other, e⟩ := entry
    rw [alterEntry]
    by_cases h : other = name
    · subst h
      cases e with
      | file old => simp [unseen, bareAll, hn, isFolder]
      | folder inner => exact absurd (by simp) (he inner)
    · have hne : (name == other) = false := beq_false_of_ne (Ne.symm h)
      rw [if_neg h, bareAll, bareAll, ih]
      intro inner hi
      exact he inner (by rw [List.lookup_cons, hne]; exact hi)

/-- A folder that is changed only in what is not seen stays the same. -/
theorem bareAll_alterEntry {f : Option Entry → Option Entry} {e e' : Entry}
    (he : entries.lookup name = some e) (hf : f (some e) = some e') (hb : e'.bare = e.bare) :
    bareAll (alterEntry name f entries) = bareAll entries := by
  have kind : e'.isFolder = e.isFolder := by
    rw [← isFolder_bare, hb, isFolder_bare]
  induction entries with
  | nil => cases he
  | cons entry rest ih =>
    obtain ⟨other, first⟩ := entry
    rw [alterEntry]
    by_cases h : other = name
    · subst h
      obtain rfl : first = e := by simpa using he
      simp [bareAll, hf, kind, hb]
    · have hne : (name == other) = false := beq_false_of_ne (Ne.symm h)
      rw [List.lookup_cons, hne] at he
      rw [if_neg h, bareAll, bareAll, ih he]

/-- **To keep a report** changes nothing of the bare tree. -/
theorem bare_put {top : Entry} {l : Location} (hn : isReportName name = true)
    (hl : top.look l = some .folder) (hp : top.look (l ++ [name]) ≠ some .folder)
    (bytes : List UInt8) : (put (.file bytes) (l ++ [name]) top).bare = top.bare := by
  induction l generalizing top with
  | nil =>
    obtain ⟨entries, rfl⟩ : ∃ entries, top = .folder entries := by simpa using look_eq_folder.mp hl
    rw [List.nil_append] at hp ⊢
    rw [put, bare_folder, bare_folder]
    congr 1
    refine bareAll_alterEntry_report hn (fun _ e hf => by cases hf; rfl) fun inner hi => hp ?_
    rw [look_folder_cons, hi]
    rfl
  | cons first rest ih =>
    obtain ⟨entries, rfl⟩ : ∃ entries, top = .folder entries := by
      simpa using look_eq_folder.mp (look_of_look_append (l := []) hl)
    rw [List.cons_append, look_folder_cons] at hp
    rw [look_folder_cons] at hl
    obtain ⟨e, he, below⟩ := Option.bind_eq_some_iff.mp hl
    rw [he, Option.bind_some] at hp
    rw [List.cons_append, put, bare_folder, bare_folder]
    congr 1
    exact bareAll_alterEntry he rfl (ih below hp)

end Put

end Entry

open Entry

/-! ## Ignore files -/

namespace Ignore

theorem isReportName_fileName : isReportName fileName = false := by
  decide

theorem filePatterns_bareAll (base : String) (entries : List (String × Entry)) :
    filePatterns base (bareAll entries) = filePatterns base entries := by
  rw [filePatterns, lookup_bareAll isReportName_fileName, filePatterns]
  cases entries.lookup fileName with
  | none => rfl
  | some e => cases e <;> simp

/-- The bare tree has the same patterns. -/
theorem patternsIn_bare (here : List String) (e : Entry) :
    patternsIn here e.bare = patternsIn here e := by
  induction e using inductionOn generalizing here with
  | file bytes => rw [bare_file]
  | folder entries ih =>
    rw [bare_folder, patternsIn, patternsIn, filePatterns_bareAll]
    congr 1
    induction entries with
    | nil => rw [bareAll]
    | cons entry rest ihr =>
      obtain ⟨name, e⟩ := entry
      have below := ihr fun entry he => ih entry (List.mem_cons_of_mem _ he)
      by_cases dropped : (isReportName name && !e.isFolder) = true
      · have none : patternsIn (here ++ [name]) e = [] := by
          cases e with
          | file bytes => rw [patternsIn]
          | folder inner => simp [isFolder] at dropped
        rw [bareAll, if_pos dropped, patternsBelow, none, ite_self, List.nil_append, below]
      · rw [bareAll, if_neg dropped, patternsBelow, patternsBelow, below,
          ih (name, e) List.mem_cons_self]

/-- A repository around a location starts at it or above it. -/
theorem repositoryRoot_above (top : Entry) (l : Location) : repositoryRoot top l <+: l := by
  unfold repositoryRoot
  cases hf : (upward l).find? fun folder => (top.at? (folder ++ [".git"])).isSome with
  | none => exact List.prefix_rfl
  | some folder =>
    obtain ⟨k, -, rfl⟩ := List.mem_map.mp (List.mem_of_find?_eq_some hf)
    exact List.take_prefix _ l

/-- The bare tree has the same repositories. -/
theorem repositoryRoot_bare {top : Entry} {l : Location} (hl : top.look l = some .folder) :
    repositoryRoot top.bare l = repositoryRoot top l := by
  have same : ∀ folder ∈ upward l,
      (top.bare.at? (folder ++ [".git"])).isSome = (top.at? (folder ++ [".git"])).isSome := by
    intro folder hf
    obtain ⟨k, -, rfl⟩ := List.mem_map.mp hf
    rw [at?_bare_concat (look_folder_above hl (List.take_prefix _ l)) (by decide),
      Option.isSome_map]
  rw [repositoryRoot, repositoryRoot, ← List.head?_filter, List.filter_congr same,
    List.head?_filter]

/-- The same rules hold in the bare tree. -/
theorem rulesAt_bare {top : Entry} {l : Location} (hl : top.look l = some .folder) :
    rulesAt top.bare l = rulesAt top l := by
  obtain ⟨entries, he⟩ :=
    look_eq_folder.mp (look_folder_above hl (repositoryRoot_above top l))
  rw [rulesAt, rulesAt, repositoryRoot_bare hl, at?_bare_folder he, he, ← bare_folder]
  simp only [Option.map_some, patternsIn_bare]

end Ignore

/-! ## Scripts -/

/-- The bare tree has the same files, as long as none that hold reports are wanted. -/
theorem filesIn_bare {keep : Keeping}
    (hk : ∀ here name, isReportName name = true → keep.file (here ++ [name]) = false)
    (here : List String) (e : Entry) : filesIn keep here e.bare = filesIn keep here e := by
  induction e using inductionOn generalizing here with
  | file bytes => rw [bare_file]
  | folder entries ih =>
    rw [bare_folder, filesIn, filesIn]
    congr 1
    induction entries with
    | nil => rw [bareAll]
    | cons entry rest ihr =>
      obtain ⟨name, e⟩ := entry
      have below := ihr fun entry he => ih entry (List.mem_cons_of_mem _ he)
      have inside := ih (name, e) List.mem_cons_self (here ++ [name])
      rw [bareAll]
      cases e with
      | file bytes =>
        by_cases hn : isReportName name = true
        · simp [hn, isFolder, listedIn, hk here name hn, below]
        · simp [hn, listedIn, below]
      | folder inner =>
        rw [bare_folder] at inside
        simp [isFolder, listedIn, below, inside]

end ScriptSurvey
