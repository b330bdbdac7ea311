import Mathlib.Data.List.Infix
import Mathlib.Data.List.TakeWhile
import ScriptSurvey.Proofs.Files.Bare

/-!
# The ignore files of a repository

The patterns of a repository are collected in one walk from its top, which does not enter the
folders that are left out. `fileTexts` gives the patterns of a single ignore file, from what is seen
of it.

* `wayTexts_sublist`: the ignore files on the way to a folder count, from the top down.
* `exists_patternsIn_put`: an ignore file has its place among all patterns, whatever it says, unless
  it is in a folder that is left out.
* `rulesAt_eq_map`: the rules are the patterns of the repository, once they are read.
* `rulesAt_on_the_way`: which ignore files between the top and a folder hold there.
-/

open scoped List

namespace ScriptSurvey

namespace Entry

/-! ## Files that are replaced -/

section Replace

variable {top e : Entry} {entries : List (String × Entry)} {l : Location} {name : String}

theorem exists_alterEntry_eq (he : entries.lookup name = some e) :
    ∃ before after, entries = before ++ (name, e) :: after ∧ ∀ f : Option Entry → Entry,
      alterEntry name (fun old => some (f old)) entries =
        before ++ (name, f (some e)) :: after := by
  induction entries with
  | nil => cases he
  | cons entry rest ih =>
    obtain ⟨other, first⟩ := entry
    by_cases h : other = name
    · subst h
      obtain rfl : first = e := by simpa using he
      exact ⟨[], rest, rfl, fun f => by simp [alterEntry]⟩
    · have hne : (name == other) = false := beq_false_of_ne (Ne.symm h)
      rw [List.lookup_cons, hne] at he
      obtain ⟨before, after, rfl, alter⟩ := ih he
      exact ⟨(other, first) :: before, after, rfl, fun f => by simp [alterEntry, h, alter f]⟩

theorem exists_folder_of_at?_cons {rest : Location} (h : top.at? (name :: rest) = some e) :
    ∃ entries inner, top = .folder entries ∧ entries.lookup name = some inner ∧
      inner.at? rest = some e := by
  rw [at?_cons] at h
  obtain ⟨inner, hi, below⟩ := Option.bind_eq_some_iff.mp h
  cases top with
  | file bytes => cases hi
  | folder entries => exact ⟨entries, inner, rfl, hi, below⟩

/-- To put what is there changes nothing. -/
theorem put_self (h : top.at? l = some e) : put e l top = top := by
  induction l generalizing top with
  | nil =>
    cases h
    rw [put]
  | cons name rest ih =>
    obtain ⟨entries, inner, rfl, hi, below⟩ := exists_folder_of_at?_cons h
    obtain ⟨before, after, rfl, alter⟩ := exists_alterEntry_eq hi
    rw [put, alter, Option.getD_some, ih below]

theorem at?_put_append (h : top.at? l = some e) (new : Entry) (m : Location) :
    (put new (l ++ m) top).at? l = some (put new m e) := by
  induction l generalizing top with
  | nil =>
    cases h
    exact at?_nil _
  | cons name rest ih =>
    obtain ⟨entries, inner, rfl, hi, below⟩ := exists_folder_of_at?_cons h
    rw [List.cons_append, put, at?_cons]
    change ((alterEntry name _ entries).lookup name).bind _ = _
    rw [lookup_alterEntry, if_pos rfl, hi]
    exact ih below

theorem look_put_file {old : List UInt8} (h : top.look (l ++ [name]) = some (.file old))
    (bytes : List UInt8) (m : Location) :
    (put (.file bytes) (l ++ [name]) top).look m =
      if m = l ++ [name] then some (.file bytes) else top.look m :=
  look_put (look_of_look_append h) (by simp [h]) bytes m

end Replace

end Entry

open Entry

namespace Ignore

/-! ## The patterns of texts -/

namespace Pattern

variable {text : String} {texts texts' : List String} {ps : List Pattern}

theorem parseAll_cons_eq_ok :
    parseAll (text :: texts) = .ok ps ↔
      ∃ p qs, parse text = .ok p ∧ parseAll texts = .ok qs ∧ ps = p.toList ++ qs := by
  unfold parseAll
  rw [List.mapM_cons]
  cases parse text with
  | error e => simp [bind, Except.bind]
  | ok p =>
    cases texts.mapM parse with
    | error e => simp [bind, Except.bind]
    | ok found =>
      cases p <;> simp [bind, Except.bind, pure, Except.pure, eq_comm]

theorem exists_parseAll_eq_ok_iff :
    (∃ ps, parseAll texts = .ok ps) ↔ ∀ text ∈ texts, ∃ p, parse text = .ok p := by
  induction texts with
  | nil => exact iff_of_true ⟨[], rfl⟩ (List.forall_mem_nil _)
  | cons text texts ih =>
    rw [List.forall_mem_cons, ← ih]
    constructor
    · rintro ⟨ps, h⟩
      obtain ⟨p, qs, hp, hqs, -⟩ := parseAll_cons_eq_ok.mp h
      exact ⟨⟨p, hp⟩, qs, hqs⟩
    · rintro ⟨⟨p, hp⟩, qs, hqs⟩
      exact ⟨_, parseAll_cons_eq_ok.mpr ⟨p, qs, hp, hqs, rfl⟩⟩

theorem exists_of_parseAll_append (h : parseAll (texts ++ texts') = .ok ps) :
    ∃ qs rs, parseAll texts = .ok qs ∧ parseAll texts' = .ok rs ∧ ps = qs ++ rs := by
  induction texts generalizing ps with
  | nil => exact ⟨[], ps, rfl, h, rfl⟩
  | cons text texts ih =>
    obtain ⟨p, rest, hp, hrest, rfl⟩ := parseAll_cons_eq_ok.mp h
    obtain ⟨qs, rs, hqs, hrs, rfl⟩ := ih hrest
    exact ⟨p.toList ++ qs, rs, parseAll_cons_eq_ok.mpr ⟨p, qs, hp, hqs, rfl⟩, hrs,
      (List.append_assoc ..).symm⟩

theorem exists_of_mem_parseAll (h : parseAll texts = .ok ps) {p : Pattern} (hp : p ∈ ps) :
    ∃ text ∈ texts, parse text = .ok (some p) := by
  induction texts generalizing ps with
  | nil =>
    cases h
    cases hp
  | cons text texts ih =>
    obtain ⟨q, rest, hq, hrest, rfl⟩ := parseAll_cons_eq_ok.mp h
    rcases List.mem_append.mp hp with hp | hp
    · rw [Option.mem_toList] at hp
      exact ⟨text, List.mem_cons_self, hp ▸ hq⟩
    · obtain ⟨other, hm, ho⟩ := ih hrest hp
      exact ⟨other, List.mem_cons_of_mem _ hm, ho⟩

/-- The patterns of some of the texts are some of the patterns, in the same order. -/
theorem parseAll_sublist (h : parseAll texts = .ok ps) (hs : texts' <+ texts) :
    ∃ qs, parseAll texts' = .ok qs ∧ qs <+ ps := by
  induction hs generalizing ps with
  | slnil => exact ⟨ps, h, List.Sublist.refl ps⟩
  | cons text _ ih =>
    obtain ⟨p, rest, -, hrest, rfl⟩ := parseAll_cons_eq_ok.mp h
    obtain ⟨qs, hqs, sub⟩ := ih hrest
    exact ⟨qs, hqs, sub.trans (List.sublist_append_right p.toList rest)⟩
  | cons_cons text _ ih =>
    obtain ⟨p, rest, hp, hrest, rfl⟩ := parseAll_cons_eq_ok.mp h
    obtain ⟨qs, hqs, sub⟩ := ih hrest
    exact ⟨p.toList ++ qs, parseAll_cons_eq_ok.mpr ⟨p, qs, hp, hqs, rfl⟩,
      sub.append_left p.toList⟩

end Pattern

/-! ## Ignore files -/

/-- The lines of an ignore file. -/
def fileLines (bytes : List UInt8) : List String :=
  (Text.lines (Text.repair bytes).toList).map String.ofList

/-- The patterns of the ignore file in the folder at `place` below the top, given what is seen
there. -/
def fileTexts (place : List String) : Option Sight → List String
  | some (.file bytes) => (fileLines bytes).filterMap (rebase · ("/".intercalate place))
  | _ => []

theorem mem_fileTexts {place : List String} {seen : Option Sight} {text : String} :
    text ∈ fileTexts place seen ↔ ∃ bytes, seen = some (.file bytes) ∧
      ∃ line ∈ fileLines bytes, rebase line ("/".intercalate place) = some text := by
  unfold fileTexts
  split
  · simp
  · next none => simpa using fun bytes file => absurd file (none bytes)

section Walk

theorem filePatterns_eq (here : List String) (entries : List (String × Entry)) :
    filePatterns ("/".intercalate here) entries =
      fileTexts here ((folder entries).look [fileName]) := by
  rw [filePatterns, look_folder_cons]
  cases entries.lookup fileName with
  | none => rfl
  | some e =>
    cases e with
    | file bytes => simp [fileTexts, fileLines, sight, List.filterMap_map]
    | folder inner => rfl

/-- The patterns of the ignore files in an entry of a folder, which does not count if it is left
out. -/
def entryTexts (here : List String) (entry : String × Entry) : List String :=
  if entry.1 ∈ skippedFolders then [] else patternsIn (here ++ [entry.1]) entry.2

theorem patternsBelow_eq (here : List String) (entries : List (String × Entry)) :
    patternsBelow here entries = entries.flatMap (entryTexts here) := by
  induction entries with
  | nil => rw [patternsBelow, List.flatMap_nil]
  | cons entry rest ih =>
    obtain ⟨name, e⟩ := entry
    rw [patternsBelow, ih, List.flatMap_cons, entryTexts]
    simp

theorem patternsIn_folder (here : List String) (entries : List (String × Entry)) :
    patternsIn here (.folder entries) =
      fileTexts here ((folder entries).look [fileName]) ++ entries.flatMap (entryTexts here) := by
  rw [patternsIn, filePatterns_eq, patternsBelow_eq]

/-- The patterns of the ignore files on the way to a folder, from the top down. -/
def wayTexts (here : List String) (e : Entry) (below : List String) : List String :=
  below.inits.flatMap fun place => fileTexts (here ++ place) (e.look (place ++ [fileName]))

theorem wayTexts_nil (here : List String) (e : Entry) :
    wayTexts here e [] = fileTexts here (e.look [fileName]) := by
  simp [wayTexts]

theorem wayTexts_cons (here : List String) (entries : List (String × Entry)) (name : String)
    (rest : List String) :
    wayTexts here (.folder entries) (name :: rest) =
      fileTexts here ((folder entries).look [fileName]) ++
        ((entries.lookup name).map (wayTexts (here ++ [name]) · rest)).getD [] := by
  cases he : entries.lookup name with
  | none => simp [wayTexts, List.flatMap_map, he, fileTexts, List.flatMap_eq_nil_iff]
  | some inner => simp [wayTexts, List.flatMap_map, he]

theorem wayTexts_file (here : List String) (bytes : List UInt8) (below : List String) :
    wayTexts here (.file bytes) below = [] := by
  refine List.flatMap_eq_nil_iff.mpr fun place _ => ?_
  cases place <;> simp [fileTexts]

/-- The ignore files on the way to a folder count in this order, if no folder on the way is left
out. -/
theorem wayTexts_sublist {below : List String} (hb : ∀ name ∈ below, name ∉ skippedFolders)
    (here : List String) (e : Entry) : wayTexts here e below <+ patternsIn here e := by
  induction below generalizing here e with
  | nil =>
    rw [wayTexts_nil]
    cases e with
    | file bytes => simp [fileTexts]
    | folder entries =>
      rw [patternsIn_folder]
      exact List.sublist_append_left _ _
  | cons name rest ih =>
    obtain ⟨hname, hrest⟩ := List.forall_mem_cons.mp hb
    cases e with
    | file bytes =>
      rw [wayTexts_file]
      exact List.nil_sublist _
    | folder entries =>
      rw [wayTexts_cons, patternsIn_folder]
      refine List.Sublist.append_left ?_ _
      cases he : entries.lookup name with
      | none => exact List.nil_sublist _
      | some inner =>
        obtain ⟨before, after, rfl, -⟩ := exists_alterEntry_eq he
        rw [List.flatMap_append, List.flatMap_cons, entryTexts, if_neg hname]
        refine (ih hrest (here ++ [name]) inner).trans ?_
        exact (List.sublist_append_left _ _).trans (List.sublist_append_right _ _)

/-- Where the lines of an ignore file stand among all patterns. They do not count if the file is in
a folder that is left out. -/
theorem exists_patternsIn_put {e : Entry} {below : List String} {old : List UInt8}
    (h : e.look (below ++ [fileName]) = some (.file old)) (here : List String) :
    ∃ before after, ∀ bytes, patternsIn here (put (.file bytes) (below ++ [fileName]) e) =
      before ++ (if ∃ name ∈ below, name ∈ skippedFolders then []
        else fileTexts (here ++ below) (some (.file bytes))) ++ after := by
  induction below generalizing here e with
  | nil =>
    obtain ⟨entries, inner, rfl, hi, -⟩ := exists_folder_of_at?_cons (look_eq_file.mp h)
    obtain ⟨front, back, rfl, alter⟩ := exists_alterEntry_eq hi
    refine ⟨[], (front ++ back).flatMap (entryTexts here), fun bytes => ?_⟩
    have seen := look_put_file h bytes [fileName]
    rw [List.nil_append, put, alter] at seen ⊢
    rw [patternsIn_folder, seen, List.flatMap_append, List.flatMap_cons, entryTexts, put,
      patternsIn, ite_self]
    simp
  | cons name rest ih =>
    obtain ⟨entries, inner, rfl, hi, below⟩ := exists_folder_of_at?_cons (look_eq_file.mp h)
    obtain ⟨front, back, rfl, alter⟩ := exists_alterEntry_eq hi
    obtain ⟨before, after, inside⟩ := ih (look_eq_file.mpr below) (here ++ [name])
    obtain ⟨first, whole⟩ : ∃ first, ∀ bytes,
        patternsIn here (put (.file bytes) (name :: rest ++ [fileName])
            (.folder (front ++ (name, inner) :: back))) =
          first ++ entryTexts here (name, put (.file bytes) (rest ++ [fileName]) inner) ++
            back.flatMap (entryTexts here) := by
      refine ⟨fileTexts here ((folder (front ++ (name, inner) :: back)).look [fileName]) ++
        front.flatMap (entryTexts here), fun bytes => ?_⟩
      have seen := look_put_file h bytes [fileName]
      rw [if_neg (by simp), List.cons_append, put, alter] at seen
      rw [List.cons_append, put, alter, patternsIn_folder, seen, List.flatMap_append,
        List.flatMap_cons]
      simp
    -- a folder that is left out contributes nothing, any other what is in it
    by_cases skipped : name ∈ skippedFolders
    · refine ⟨first, back.flatMap (entryTexts here), fun bytes => ?_⟩
      rw [whole, entryTexts, if_pos skipped, if_pos ⟨name, List.mem_cons_self, skipped⟩]
    · refine ⟨first ++ before, after ++ back.flatMap (entryTexts here), fun bytes => ?_⟩
      rw [whole, entryTexts, if_neg skipped, inside]
      simp [skipped]

end Walk

/-! ## The rules of a repository -/

section Rules

variable {top : Entry} {l : Location} {rules : Rules}

/-- The patterns of all ignore files of the repository around a location. -/
def repositoryTexts (top : Entry) (l : Location) : List String :=
  ((top.at? (repositoryRoot top l)).map (patternsIn [])).getD []

theorem rulesAt_eq_map (top : Entry) (l : Location) :
    rulesAt top l = (Pattern.parseAll (repositoryTexts top l)).map fun patterns =>
      ⟨repositoryRoot top l, if (repositoryTexts top l).isEmpty then none else some patterns⟩ := by
  rw [rulesAt, ← repositoryTexts]
  cases ht : repositoryTexts top l with
  | nil => rfl
  | cons text texts => cases Pattern.parseAll (text :: texts) <;> rfl

theorem exists_rulesAt_eq_ok_iff :
    (∃ rules, rulesAt top l = .ok rules) ↔
      ∀ text ∈ repositoryTexts top l, ∃ p, Pattern.parse text = .ok p := by
  rw [← Pattern.exists_parseAll_eq_ok_iff, rulesAt_eq_map]
  cases Pattern.parseAll (repositoryTexts top l) <;> simp [Except.map]

/-- The rules come from the patterns of the repository. -/
theorem of_rulesAt (h : rulesAt top l = .ok rules) :
    rules.root = repositoryRoot top l ∧
      Pattern.parseAll (repositoryTexts top l) = .ok (rules.patterns.getD []) := by
  rw [rulesAt_eq_map] at h
  cases hp : Pattern.parseAll (repositoryTexts top l) with
  | error e => simp [hp, Except.map] at h
  | ok patterns =>
    rw [hp] at h
    cases h
    refine ⟨rfl, ?_⟩
    cases ht : repositoryTexts top l with
    | nil =>
      rw [ht] at hp
      exact hp.symm
    | cons text texts => rfl

variable {old : List UInt8} {place : Location}

theorem repositoryRoot_put (h : top.look (place ++ [fileName]) = some (.file old))
    (bytes : List UInt8) (l : Location) :
    repositoryRoot (put (.file bytes) (place ++ [fileName]) top) l = repositoryRoot top l := by
  have same (folder : Location) :
      ((put (.file bytes) (place ++ [fileName]) top).at? (folder ++ [".git"])).isSome =
        (top.at? (folder ++ [".git"])).isSome := by
    have seen := look_put_file h bytes (folder ++ [".git"])
    rw [if_neg (by simp [fileName])] at seen
    rw [← Option.isSome_map (f := sight), ← Option.isSome_map (f := sight)]
    exact congrArg Option.isSome seen
  simp only [repositoryRoot, same]

/-- An ignore file stands at its place among the patterns of the repository. -/
theorem exists_repositoryTexts_put {below : List String}
    (h : top.look (repositoryRoot top l ++ below ++ [fileName]) = some (.file old)) :
    ∃ before after, ∀ bytes,
      repositoryTexts (put (.file bytes) (repositoryRoot top l ++ below ++ [fileName]) top) l =
        before ++ (if ∃ name ∈ below, name ∈ skippedFolders then []
          else fileTexts below (some (.file bytes))) ++ after := by
  have inside := h
  rw [List.append_assoc, look_append] at inside
  obtain ⟨repository, he, hf⟩ := Option.bind_eq_some_iff.mp inside
  obtain ⟨before, after, texts⟩ := exists_patternsIn_put hf []
  refine ⟨before, after, fun bytes => ?_⟩
  rw [repositoryTexts, repositoryRoot_put h, List.append_assoc, at?_put_append he]
  exact texts bytes

/-- What an ignore file in a folder that is left out says does not matter. -/
theorem rulesAt_put_skipped {below : List String} (skipped : ∃ name ∈ below, name ∈ skippedFolders)
    (file : top.look (repositoryRoot top l ++ below ++ [fileName]) = some (.file old))
    (bytes : List UInt8) :
    rulesAt (put (.file bytes) (repositoryRoot top l ++ below ++ [fileName]) top) l =
      rulesAt top l := by
  obtain ⟨before, after, texts⟩ := exists_repositoryTexts_put file
  simp only [if_pos skipped] at texts
  have before_put := texts old
  rw [put_self (look_eq_file.mp file)] at before_put
  rw [rulesAt_eq_map, rulesAt_eq_map, texts, before_put, repositoryRoot_put file]

theorem wayTexts_sublist_repositoryTexts {way : List String}
    (kept : ∀ name ∈ way, name ∉ skippedFolders) :
    (way.inits.flatMap fun place =>
        fileTexts place (top.look (repositoryRoot top l ++ place ++ [fileName]))) <+
      repositoryTexts top l := by
  have seen (place : Location) : top.look (repositoryRoot top l ++ place ++ [fileName]) =
      (top.at? (repositoryRoot top l)).bind (·.look (place ++ [fileName])) := by
    rw [List.append_assoc, look_append]
  simp only [seen]
  rw [repositoryTexts]
  cases top.at? (repositoryRoot top l) with
  | none => simp [fileTexts, List.flatMap_eq_nil_iff]
  | some repository => exact wayTexts_sublist kept [] repository

/-- **The ignore files on the way** from the top of a repository to a folder count down to the first
folder that is left out, and those of a folder come before those of the folders in it. What the
ignore files in the folders that are left out say does not matter. -/
theorem rulesAt_on_the_way (h : rulesAt top l = .ok rules) :
    ∃ way, l = repositoryRoot top l ++ way ∧ rules.root = repositoryRoot top l ∧
      (∃ patterns, patterns <+ rules.patterns.getD [] ∧
        Pattern.parseAll ((way.takeWhile (· ∉ skippedFolders)).inits.flatMap fun place =>
          fileTexts place (top.look (rules.root ++ place ++ [fileName]))) = .ok patterns) ∧
      ∀ place old, (∃ name ∈ place, name ∈ skippedFolders) →
        top.look (rules.root ++ place ++ [fileName]) = some (.file old) → ∀ bytes,
          rulesAt (put (.file bytes) (rules.root ++ place ++ [fileName]) top) l = .ok rules := by
  obtain ⟨root, parsed⟩ := of_rulesAt h
  obtain ⟨way, hway⟩ := repositoryRoot_above top l
  have kept : ∀ name ∈ way.takeWhile (· ∉ skippedFolders), name ∉ skippedFolders :=
    fun name hn => by simpa using List.mem_takeWhile_imp hn
  rw [root]
  refine ⟨way, hway.symm, rfl, ?_, fun place old skipped file bytes => ?_⟩
  · obtain ⟨patterns, found, sub⟩ :=
      Pattern.parseAll_sublist parsed (wayTexts_sublist_repositoryTexts kept)
    exact ⟨patterns, sub, found⟩
  · rw [rulesAt_put_skipped skipped file, h]

/-- An ignore file in a folder that is left out, in a folder that is not. -/
theorem rulesAt_on_the_way_web :
    let top : Entry := .folder [(".git", .file []), (fileName, .file [42, 46, 108]),
      ("web", .folder [(fileName, .file [33, 97, 46, 108]),
        ("build", .folder [(fileName, .file [120])])])]
    ∃ rules, rulesAt top ["web", "build"] = .ok rules ∧ (rules.patterns.getD []).length = 2 ∧
      (∃ way patterns, ["web", "build"] = repositoryRoot top ["web", "build"] ++ way ∧
        patterns <+ rules.patterns.getD [] ∧
        Pattern.parseAll ((way.takeWhile (· ∉ skippedFolders)).inits.flatMap fun place =>
          fileTexts place (top.look (rules.root ++ place ++ [fileName]))) = .ok patterns) ∧
      rulesAt (put (.file []) ["web", "build", fileName] top) ["web", "build"] = .ok rules := by
  intro top
  obtain ⟨rules, h, root, two⟩ : ∃ rules, rulesAt top ["web", "build"] = .ok rules ∧
      rules.root = [] ∧ (rules.patterns.getD []).length = 2 := ⟨_, rfl, rfl, rfl⟩
  obtain ⟨way, hway, -, ⟨patterns, sub, found⟩, others⟩ := rulesAt_on_the_way h
  refine ⟨rules, h, two, ⟨way, patterns, hway, sub, found⟩, ?_⟩
  rw [root] at others
  exact others ["web", "build"] [120] ⟨"build", by decide, by decide⟩ rfl []

/-- The ignore file in the folder `build` has a pattern, and it does not count. -/
theorem rulesAt_build :
    let top : Entry := .folder [(".git", .file []),
      ("build", .folder [(fileName, .file [120, 46, 106, 115])])]
    repositoryRoot top ["build"] = [] ∧
      fileTexts ["build"] (top.look ["build", fileName]) = ["build/**/x.js"] ∧
      (∃ p, Pattern.parse "build/**/x.js" = .ok (some p)) ∧
      rulesAt top ["build"] = .ok ⟨[], none⟩ :=
  ⟨by decide, rfl, ⟨_, rfl⟩, rfl⟩

end Rules

end Ignore

end ScriptSurvey
