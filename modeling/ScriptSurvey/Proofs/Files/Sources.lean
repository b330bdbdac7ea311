import Mathlib.Data.List.Nodup
import Mathlib.Data.List.Permutation
import Mathlib.Tactic.SplitIfs
import ScriptSurvey.Files.Sources
import ScriptSurvey.Proofs.Archive.Reading
import ScriptSurvey.Proofs.Files.Bare

/-!
# Folders and archives have the same scripts

The listing of a folder leaves out whole folders on its way down, and sorts; an archive is gone
through member by member, and only the whole name of a member counts. Where no ignore file is
around, both find the same scripts in the same files (`packed_perm_listed`): nothing in a folder
that is left out is a script, so that the listing finds the scripts among all files
(`filesIn_perm`), and no two files have the same name, as the names in a folder differ and have no
slashes (`nodup_names`).
-/

namespace ScriptSurvey

namespace Entry

/-! ## All files -/

mutual

/-- The files of an entry that lies at `here`, scripts or not. -/
def files (here : List String) : Entry → List Found
  | .file bytes => [⟨here, bytes⟩]
  | .folder entries => filesAmong here entries

@[inherit_doc files]
def filesAmong (here : List String) : List (String × Entry) → List Found
  | [] => []
  | (name, entry) :: rest => files (here ++ [name]) entry ++ filesAmong here rest

end

mutual

/-- Whether the names in every folder are different and without slashes. -/
def isProper : Entry → Bool
  | .file _ => true
  | .folder entries => allProper entries

@[inherit_doc isProper]
def allProper : List (String × Entry) → Bool
  | [] => true
  | (name, entry) :: rest =>
    !name.toList.contains '/' && !rest.any (·.1 == name) && isProper entry && allProper rest

end

variable {here : List String} {entries : List (String × Entry)} {e : Entry} {f : Found}

@[simp]
theorem mem_filesAmong :
    f ∈ filesAmong here entries ↔ ∃ entry ∈ entries, f ∈ entry.2.files (here ++ [entry.1]) := by
  induction entries with
  | nil => simp [filesAmong]
  | cons entry rest ih => simp [filesAmong, ih]

theorem mem_files_folder :
    f ∈ (folder entries).files here ↔
      ∃ entry ∈ entries, f ∈ entry.2.files (here ++ [entry.1]) := by
  rw [files, mem_filesAmong]

/-- A file lies at or below the place of the entry it belongs to. -/
theorem place_of_mem_files (h : f ∈ e.files here) : here <+: f.place := by
  induction e using inductionOn generalizing here with
  | file bytes =>
    rw [files, List.mem_singleton] at h
    subst h
    exact List.prefix_rfl
  | folder entries ih =>
    obtain ⟨entry, hm, hf⟩ := mem_files_folder.mp h
    exact (List.prefix_append here [entry.1]).trans (ih entry hm hf)

theorem mem_of_allProper (h : allProper entries = true) {entry : String × Entry}
    (hm : entry ∈ entries) : '/' ∉ entry.1.toList ∧ entry.2.isProper = true := by
  induction entries with
  | nil => cases hm
  | cons first rest ih =>
    simp only [allProper, Bool.and_eq_true, Bool.not_eq_true', List.contains_eq_mem,
      decide_eq_false_iff_not] at h
    obtain ⟨⟨⟨slash, -⟩, proper⟩, others⟩ := h
    rcases List.mem_cons.mp hm with rfl | hm
    · exact ⟨slash, proper⟩
    · exact ih others hm

theorem lookup_of_mem (proper : allProper entries = true) {entry : String × Entry}
    (hm : entry ∈ entries) : entries.lookup entry.1 = some entry.2 := by
  induction entries with
  | nil => cases hm
  | cons first rest ih =>
    obtain ⟨name, e⟩ := first
    simp only [allProper, Bool.and_eq_true, Bool.not_eq_true', List.any_eq_false,
      beq_iff_eq] at proper
    obtain ⟨⟨⟨-, differ⟩, -⟩, others⟩ := proper
    rcases List.mem_cons.mp hm with rfl | hm
    · simp
    · rw [List.lookup_cons, beq_false_of_ne (differ entry hm)]
      exact ih others hm

theorem mem_of_lookup {name : String} (he : entries.lookup name = some e) : (name, e) ∈ entries := by
  obtain ⟨before, after, rfl, -⟩ := List.lookup_eq_some_iff.mp he
  simp

theorem isProper_of_at? {top : Entry} {l : Location} (proper : top.isProper = true)
    (h : top.at? l = some e) : e.isProper = true := by
  induction l generalizing top with
  | nil =>
    cases h
    exact proper
  | cons name rest ih =>
    rw [at?_cons] at h
    obtain ⟨inner, hi, below⟩ := Option.bind_eq_some_iff.mp h
    cases top with
    | file bytes => cases hi
    | folder among =>
      rw [isProper] at proper
      exact ih (mem_of_allProper proper (mem_of_lookup hi)).2 below

/-- No name on the way to a file has a slash. -/
theorem names_of_mem_files (he : e.isProper = true) (hh : ∀ name ∈ here, '/' ∉ name.toList)
    (h : f ∈ e.files here) : ∀ name ∈ f.place, '/' ∉ name.toList := by
  induction e using inductionOn generalizing here with
  | file bytes =>
    rw [files, List.mem_singleton] at h
    rw [h]
    exact hh
  | folder entries ih =>
    rw [isProper] at he
    obtain ⟨entry, hm, hf⟩ := mem_files_folder.mp h
    obtain ⟨slash, proper⟩ := mem_of_allProper he hm
    refine ih entry hm proper (fun name hn => ?_) hf
    rcases List.mem_append.mp hn with hn | hn
    · exact hh name hn
    · rw [List.mem_singleton.mp hn]
      exact slash

/-- No two files lie at the same place. -/
theorem nodup_places (he : e.isProper = true) (here : List String) :
    ((e.files here).map (·.place)).Nodup := by
  induction e using inductionOn generalizing here with
  | file bytes => simp [files]
  | folder entries ih =>
    rw [isProper] at he
    rw [files]
    induction entries with
    | nil => simp [filesAmong]
    | cons entry rest ihr =>
      obtain ⟨name, e⟩ := entry
      simp only [allProper, Bool.and_eq_true, Bool.not_eq_true', List.any_eq_false,
        beq_iff_eq] at he
      obtain ⟨⟨⟨-, differ⟩, proper⟩, others⟩ := he
      rw [filesAmong, List.map_append, List.nodup_append]
      refine ⟨ih (name, e) List.mem_cons_self proper _,
        ihr (fun entry hm => ih entry (List.mem_cons_of_mem _ hm)) others, ?_⟩
      rintro place hp other ho rfl
      -- Both places go on from `here` with the name of the entry that the file belongs to.
      obtain ⟨f, hf, rfl⟩ := List.mem_map.mp hp
      obtain ⟨g, hg, same⟩ := List.mem_map.mp ho
      obtain ⟨entry, hm, hg⟩ := mem_filesAmong.mp hg
      have first := place_of_mem_files hf
      have second := place_of_mem_files hg
      rw [same] at second
      have names := List.prefix_of_prefix_length_le second first (by simp)
      exact differ entry hm (by simpa using names)

end Entry

open Entry

/-! ## The listing of a folder -/

/-- The text of the place of a file. -/
def Found.name (f : Found) : String := "/".intercalate f.place

/-- What a contribution to a listing holds. -/
def Listed.found : Listed → List Found
  | .file found => [found]
  | .folder found => found

/-- Sorting neither adds nor drops anything. -/
theorem arrange_perm (listed : List (String × Listed)) :
    (arrange listed).Perm (listed.flatMap (·.2.found)) := by
  unfold arrange byName
  refine (List.Perm.append ((List.mergeSort_perm _ _).map _)
    ((List.mergeSort_perm _ _).flatMap_right _)).trans ?_
  induction listed with
  | nil => exact .refl _
  | cons first rest ih =>
    obtain ⟨name, listed⟩ := first
    cases listed with
    | file found => exact ih.cons found
    | folder found =>
      refine .trans ?_ (ih.append_left found)
      exact List.perm_append_comm_assoc _ _ _

/-- A folder that is left out has no scripts. -/
theorem filter_files_skipped {name : String} (hn : name ∈ skippedFolders) (here : List String)
    (inner : List (String × Entry)) :
    ((folder inner).files (here ++ [name])).filter (isAnalyzable ·.name) = [] := by
  refine List.filter_eq_nil_iff.mpr fun f hf => ?_
  obtain ⟨entry, -, hf⟩ := mem_files_folder.mp hf
  obtain ⟨rest, hrest⟩ := place_of_mem_files hf
  have inside : name ∈ f.place.dropLast := by
    rw [← hrest, List.append_assoc, List.singleton_append,
      List.dropLast_append_of_ne_nil (List.cons_ne_nil _ _)]
    simp
  rw [Found.name, isAnalyzable_of_mem_skippedFolders inside hn]
  exact Bool.false_ne_true

section Listed

variable (keep : Keeping) (here : List String) (name : String) (rest : List (String × Entry))

theorem flatMap_listedIn_file (bytes : List UInt8) :
    (listedIn keep here ((name, .file bytes) :: rest)).flatMap (·.2.found) =
      (if keep.file (here ++ [name]) then [⟨here ++ [name], bytes⟩] else []) ++
        (listedIn keep here rest).flatMap (·.2.found) := by
  rw [listedIn]
  split_ifs <;> rfl

theorem flatMap_listedIn_folder (inner : List (String × Entry)) :
    (listedIn keep here ((name, .folder inner) :: rest)).flatMap (·.2.found) =
      (if keep.folder (here ++ [name]) then filesIn keep (here ++ [name]) (.folder inner)
        else []) ++
        (listedIn keep here rest).flatMap (·.2.found) := by
  rw [listedIn]
  split_ifs <;> rfl

end Listed

section Rules

variable {rules : Ignore.Rules} (h : rules.patterns = none) (base : Location)

include h

theorem keeping_file (place : List String) :
    (keeping rules base).file place = isAnalyzable ("/".intercalate place) := by
  simp [keeping, Ignore.Rules.ignore, h]

theorem keeping_folder (here : List String) (name : String) :
    (keeping rules base).folder (here ++ [name]) = true ↔ name ∉ skippedFolders := by
  simp [keeping, Ignore.Rules.ignore, h]

/-- **The listing** of a folder has the scripts among all its files, if nothing is ignored. -/
theorem filesIn_perm (here : List String) (entries : List (String × Entry)) :
    (filesIn (keeping rules base) here (.folder entries)).Perm
      (((folder entries).files here).filter (isAnalyzable ·.name)) := by
  induction hE : folder entries using inductionOn generalizing here entries with
  | file bytes => cases hE
  | folder among ih =>
    rw [filesIn, files]
    refine (arrange_perm _).trans ?_
    clear hE entries
    -- Once it is not sorted, the listing goes entry by entry, as the list of all files does.
    induction among with
    | nil => exact .refl _
    | cons entry rest ihr =>
      obtain ⟨name, e⟩ := entry
      have others := ihr fun entry hm => ih entry (List.mem_cons_of_mem _ hm)
      rw [filesAmong, List.filter_append]
      cases e with
      | file bytes =>
        rw [flatMap_listedIn_file, keeping_file h, files, List.filter_singleton]
        exact List.Perm.append (.of_eq (Bool.cond_eq_ite ..).symm) others
      | folder inner =>
        rw [flatMap_listedIn_folder]
        refine List.Perm.append ?_ others
        split_ifs with kept
        · exact ih (name, .folder inner) List.mem_cons_self (here ++ [name]) inner rfl
        · have skipped : name ∈ skippedFolders := by
            rwa [keeping_folder h, not_not] at kept
          rw [filter_files_skipped skipped]

end Rules

/-- Where there is no ignore file there are no patterns. -/
theorem Ignore.patternsIn_eq_nil {e : Entry} {here : List String}
    (h : ∀ f ∈ e.files here, f.place.getLast? ≠ some fileName) : patternsIn here e = [] := by
  induction e using inductionOn generalizing here with
  | file bytes => rw [patternsIn]
  | folder entries ih =>
    have own : filePatterns ("/".intercalate here) entries = [] := by
      unfold filePatterns
      split
      · next bytes found =>
        obtain ⟨before, after, rfl, -⟩ := List.lookup_eq_some_iff.mp found
        have held : (⟨here ++ [fileName], bytes⟩ : Found) ∈
            (folder (before ++ (fileName, file bytes) :: after)).files here :=
          mem_files_folder.mpr ⟨(fileName, file bytes), by simp, by simp [files]⟩
        exact absurd List.getLast?_concat (h _ held)
      · rfl
    rw [patternsIn, own, List.nil_append]
    rw [files] at h
    clear own
    induction entries with
    | nil => rw [patternsBelow]
    | cons entry rest ihr =>
      obtain ⟨name, e⟩ := entry
      rw [filesAmong, List.forall_mem_append] at h
      rw [patternsBelow, ih (name, e) List.mem_cons_self h.1, ite_self, List.nil_append]
      exact ihr (fun entry hm => ih entry (List.mem_cons_of_mem _ hm)) h.2

theorem Ignore.rulesAt_eq {top : Entry} {l : Location} {repository : Entry}
    (around : top.at? (repositoryRoot top l) = some repository)
    (h : ∀ f ∈ repository.files [], f.place.getLast? ≠ some fileName) :
    rulesAt top l = .ok ⟨repositoryRoot top l, none⟩ := by
  rw [rulesAt, around, Option.map_some, patternsIn_eq_nil h]
  rfl

/-- Where no ignore file is around, the listing of a folder finds the scripts among all files. -/
theorem listScripts_perm {w : World} {p : Path} {l : Location} {entries : List (String × Entry)}
    {repository : Entry} (located : w.locate p = .ok l)
    (tree : w.top.at? l = some (.folder entries))
    (around : w.top.at? (Ignore.repositoryRoot w.top l) = some repository)
    (unruled : ∀ f ∈ repository.files [], f.place.getLast? ≠ some Ignore.fileName) :
    ∃ listed, listScripts w p = .ok listed ∧
      listed.Perm (((folder entries).files []).filter (isAnalyzable ·.name)) := by
  have leads : w.Leads p l .folder := ⟨located, look_eq_folder.mpr ⟨entries, tree⟩⟩
  obtain ⟨rules, none, found⟩ : ∃ rules : Ignore.Rules, rules.patterns = none ∧
      Ignore.rulesAt w.top l = .ok rules :=
    ⟨⟨_, _⟩, rfl, Ignore.rulesAt_eq around unruled⟩
  refine ⟨filesIn (keeping rules l) [] (.folder entries), ?_, filesIn_perm none l [] entries⟩
  rw [listScripts, leads.resolve, leads.entry_eq, tree, found]
  rfl

/-! ## The members of an archive -/

/-- The archive can be opened and holds the files under the texts of their places, in any order, and
whatever directories. -/
def Archive.Packs (reader : Reader) (archive : List UInt8) (files : List Found) : Prop :=
  ∃ (members : List Member) (content : Member → List UInt8),
    contents reader archive = .ok members ∧
    (∀ m ∈ members, m.isDirectory = false → read reader archive m = .ok (content m)) ∧
    ((members.filter (!·.isDirectory)).map fun m => (m.name, content m)).Perm
      (files.map fun f => (f.name, f.bytes))

theorem Source.ofMembers_eq {reader : Archive.Reader} {archive : List UInt8}
    {members : List Archive.Member} {content : Archive.Member → List UInt8}
    (h : ∀ m ∈ members, m.isDirectory = false → Archive.read reader archive m = .ok (content m)) :
    ofMembers reader archive members =
      ((((members.filter (!·.isDirectory)).map fun m => (m.name, content m)).filter
        (isAnalyzable ·.1)).map fun file => ⟨file.1, decodeSource file.2⟩, none) := by
  induction members with
  | nil => rfl
  | cons m rest ih =>
    obtain ⟨first, others⟩ := List.forall_mem_cons.mp h
    rw [ofMembers, ih others]
    cases hd : m.isDirectory with
    | true => simp [hd]
    | false =>
      cases hs : isAnalyzable m.name with
      | false => simp [hd, hs]
      | true => simp [hd, hs, first hd]

theorem Source.allOfArchive_perm {reader : Archive.Reader} {archive : List UInt8}
    {files : List Found} (h : Archive.Packs reader archive files) :
    ∃ packed, allOfArchive reader archive = .ok packed ∧
      packed.Perm ((files.filter (isAnalyzable ·.name)).map ofFound) := by
  obtain ⟨members, content, opened, readable, same⟩ := h
  have whole : ofArchive reader archive = ofMembers reader archive members := by
    rw [ofArchive, opened]
  refine ⟨_, by rw [allOfArchive, whole, ofMembers_eq readable], ?_⟩
  refine ((same.filter _).map _).trans (.of_eq ?_)
  rw [List.filter_map, List.map_map]
  rfl

/-! ## Both ways -/

/-- No two files of a folder have the same name. -/
theorem nodup_names {entries : List (String × Entry)} (proper : (folder entries).isProper = true) :
    (((folder entries).files []).map (·.name)).Nodup := by
  have slashless : ∀ f ∈ (folder entries).files [], ∀ name ∈ f.place, '/' ∉ name.toList :=
    fun f hf => names_of_mem_files proper (List.forall_mem_nil _) hf
  have nonempty : ∀ f ∈ (folder entries).files [], f.place ≠ [] := by
    intro f hf
    obtain ⟨entry, -, hf⟩ := mem_files_folder.mp hf
    exact (place_of_mem_files hf).ne_nil (by simp)
  refine List.Nodup.map_on (fun f hf g hg same => ?_) (List.Nodup.of_map _ (nodup_places proper []))
  have places := intercalate_injective (slashless f hf) (slashless g hg) (nonempty f hf)
    (nonempty g hg) same
  exact List.inj_on_of_nodup_map (nodup_places proper []) hf hg places

/-- **Folders and archives have the same scripts.** If there is no ignore file in the repository
around a folder, and an archive holds the files of the folder and whatever directories, then the
listing of the folder and the archive give the same sources, in some order: those of all files that
are scripts, each once and under a name of its own. -/
theorem packed_perm_listed {w : World} {p : Path} {l : Location} {entries : List (String × Entry)}
    {repository : Entry} {reader : Archive.Reader} {archive : List UInt8}
    (located : w.locate p = .ok l)
    (tree : w.top.at? l = some (.folder entries)) (proper : (folder entries).isProper = true)
    (around : w.top.at? (Ignore.repositoryRoot w.top l) = some repository)
    (unruled : ∀ f ∈ repository.files [], f.place.getLast? ≠ some Ignore.fileName)
    (packs : Archive.Packs reader archive ((folder entries).files [])) :
    ∃ listed packed, listScripts w p = .ok listed ∧
      Source.allOfArchive reader archive = .ok packed ∧
      packed.Perm (listed.map Source.ofFound) ∧ (packed.map (·.name)).Nodup ∧
      ∀ source, source ∈ packed ↔ ∃ f ∈ (folder entries).files [],
        isAnalyzable f.name = true ∧ Source.ofFound f = source := by
  obtain ⟨listed, listing, scripts⟩ := listScripts_perm located tree around unruled
  obtain ⟨packed, all, perm⟩ := Source.allOfArchive_perm packs
  refine ⟨listed, packed, listing, all, perm.trans (scripts.symm.map _), ?_, fun source => ?_⟩
  · refine (perm.map _).nodup_iff.mpr ?_
    rw [List.map_map]
    exact (nodup_names proper).sublist (List.filter_sublist.map _)
  · rw [perm.mem_iff]
    simp [and_assoc]

/-- A script whose name has a backslash and capitals, one in a folder that is left out, and an
archive of both in another order, with a directory. -/
theorem packed_perm_listed_backslash :
    let entries : List (String × Entry) :=
      [("out", .folder [("b.js", .file [121])]), ("s", .folder [("x\\A.TS", .file [120])])]
    let w : World := { top := .folder [("app", .folder entries)] }
    let archive : List UInt8 :=
      [80, 75, 3, 4, 20, 0, 0, 0, 0, 0, 0, 0, 33, 0, 0, 0, 0, 0, 0, 0, 0, 0, 0, 0, 0, 0, 2, 0, 0, 0,
       115, 47,
       80, 75, 3, 4, 20, 0, 0, 0, 0, 0, 0, 0, 33, 0, 131, 22, 220, 140, 1, 0, 0, 0, 1, 0, 0, 0, 8, 0,
       0, 0, 115, 47, 120, 92, 65, 46, 84, 83, 120,
       80, 75, 3, 4, 20, 0, 0, 0, 0, 0, 0, 0, 33, 0, 21, 38, 219, 251, 1, 0, 0, 0, 1, 0, 0, 0, 8, 0,
       0, 0, 111, 117, 116, 47, 98, 46, 106, 115, 121,
       80, 75, 1, 2, 20, 3, 20, 0, 0, 0, 0, 0, 0, 0, 33, 0, 0, 0, 0, 0, 0, 0, 0, 0, 0, 0, 0, 0, 2, 0,
       0, 0, 0, 0, 0, 0, 0, 0, 0, 0, 128, 1, 0, 0, 0, 0, 115, 47,
       80, 75, 1, 2, 20, 3, 20, 0, 0, 0, 0, 0, 0, 0, 33, 0, 131, 22, 220, 140, 1, 0, 0, 0, 1, 0, 0, 0,
       8, 0, 0, 0, 0, 0, 0, 0, 0, 0, 0, 0, 128, 1, 32, 0, 0, 0, 115, 47, 120, 92, 65, 46, 84, 83,
       80, 75, 1, 2, 20, 3, 20, 0, 0, 0, 0, 0, 0, 0, 33, 0, 21, 38, 219, 251, 1, 0, 0, 0, 1, 0, 0, 0,
       8, 0, 0, 0, 0, 0, 0, 0, 0, 0, 0, 0, 128, 1, 71, 0, 0, 0, 111, 117, 116, 47, 98, 46, 106, 115,
       80, 75, 5, 6, 0, 0, 0, 0, 3, 0, 3, 0, 156, 0, 0, 0, 110, 0, 0, 0, 0, 0]
    Archive.Packs w.reader archive ((folder entries).files []) ∧
      ∃ listed packed, listScripts w (.ofLocation ["app"]) = .ok listed ∧
        Source.allOfArchive w.reader archive = .ok packed ∧
        packed.Perm (listed.map Source.ofFound) ∧ ⟨"s/x\\A.TS", "x"⟩ ∈ packed := by
  intro entries w archive
  have packs : Archive.Packs w.reader archive ((folder entries).files []) := by
    let script : Archive.Member :=
      { name := "s/x\\A.TS", writtenName := "s/x\\A.TS", flags := 0, method := 0,
        checksum := 2363233923, packedSize := 1, size := 1, permissions := 25165824, place := 32,
        limit := 71 }
    let other : Archive.Member :=
      { script with
        name := "out/b.js", writtenName := "out/b.js", checksum := 4225443349, place := 71,
        limit := 110 }
    let directory : Archive.Member :=
      { script with
        name := "s/", writtenName := "s/", checksum := 0, packedSize := 0, size := 0, place := 0,
        limit := 32 }
    have framed : Archive.Framed w.reader archive 110 156 0 := ⟨110, by decide +kernel, rfl⟩
    have described : Archive.members 0 156 157 0 (Archive.slice archive 110 156) =
        .ok ([directory, script, other].map ({ · with limit := 0 })) := by decide +kernel
    have opened : Archive.contents w.reader archive = .ok [directory, script, other] := by
      rw [framed.contents_eq, described]
      exact congrArg Except.ok (by cbv)
    exact ⟨_, fun m => if m = other then [121] else [120], opened, by decide +kernel,
      by decide +kernel⟩
  obtain ⟨listed, packed, hl, ha, perm, -, scripts⟩ := packed_perm_listed
    (w := w) (p := .ofLocation ["app"]) (l := ["app"]) rfl rfl (by decide) rfl (by decide) packs
  refine ⟨packs, listed, packed, hl, ha, perm, (scripts _).mpr ?_⟩
  exact ⟨⟨["s", "x\\A.TS"], [120]⟩, by simp [entries, files, filesAmong], by decide +kernel,
    by decide +kernel⟩

end ScriptSurvey
