import ScriptSurvey.Proofs.Files.Malformed

/-!
# How far an ignore file reaches

The path of a folder is put in front of the lines of its ignore file as it is. So the file speaks of
the folder only if the path leads nowhere else (`OwnFolder`), and then whether anything outside is
ignored does not depend on the file (`ignore_outside`).

* `exists_of_rebase`: the path of the folder and a slash stand in front of what is left of a line.
* `OwnFolder.exists_below`: a line covers nothing but what is below the folder. The exception is a
  line of slashes in a folder at the top, of which nothing is left: the name of the folder is then a
  single segment, and holds at every depth.
* `prefix_of_shownText`: the paths below a folder start with the names of the folder.
* `exists_patterns_put`: the patterns of an ignore file come in one piece among all patterns, and a
  piece that covers nothing does not matter (`ignores_append_append`).
-/

namespace ScriptSurvey.Ignore

open Pattern

/-! ## Texts below a folder -/

/-- What counts of a text reaches over its slashes: blanks at the end do not count behind the last
one. -/
theorem significant_append_slash (front rest : List Char) :
    significant (front ++ '/' :: rest) = front ++ '/' :: significant rest := by
  have escaped : [' ', '\\'].isPrefixOf (front ++ '/' :: rest).reverse =
      [' ', '\\'].isPrefixOf rest.reverse := by
    rw [List.reverse_append, List.reverse_cons, List.append_assoc]
    -- two characters decide, and the slash is neither a blank nor a backslash
    rcases rest.reverse with _ | ⟨c, _ | ⟨d, more⟩⟩ <;> simp [List.isPrefixOf]
  have trimmed : Text.dropEndWhile Text.isSpace (front ++ '/' :: rest) =
      front ++ '/' :: Text.dropEndWhile Text.isSpace rest := by
    rw [Text.dropEndWhile, List.reverse_append, List.reverse_cons, List.append_assoc,
      List.dropWhile_append, Text.dropEndWhile]
    cases hd : rest.reverse.dropWhile Text.isSpace with
    | nil => simp [Text.isSpace]
    | cons c more => simp
  rw [significant, significant, escaped, trimmed]
  split <;> rfl

theorem isSpace_of_significant_eq_nil {cs : List Char} (h : significant cs = []) :
    ∀ c ∈ cs, Text.isSpace c = true := by
  rw [significant] at h
  split at h
  · simp [h]
  · rw [Text.dropEndWhile, List.reverse_eq_nil_iff, List.dropWhile_eq_nil_iff] at h
    simpa using h

theorem exists_dropEndWhile_append (p : Char → Bool) (cs : List Char) :
    ∃ ends, cs = Text.dropEndWhile p cs ++ ends ∧ ∀ c ∈ ends, p c = true := by
  refine ⟨(cs.reverse.takeWhile p).reverse, ?_, fun c hc => ?_⟩
  · rw [Text.dropEndWhile, ← List.reverse_append, List.takeWhile_append_dropWhile,
      List.reverse_reverse]
  · exact List.mem_takeWhile_imp (List.mem_reverse.mp hc)

/-- A line of slashes and blanks, which names nothing in its folder. -/
def IsSlashes (line : String) : Prop :=
  ∃ n blanks, unsigned line.toList = List.replicate (n + 1) '/' ++ blanks ∧
    ∀ c ∈ blanks, Text.isSpace c = true

theorem unsigned_append {cs : List Char} (hne : cs ≠ []) (ends : List Char) :
    unsigned (cs ++ ends) = unsigned cs ++ ends := by
  obtain ⟨c, cs, rfl⟩ := List.exists_cons_of_ne_nil hne
  rw [unsigned, unsigned]
  simp only [List.cons_append, List.head?_cons, List.drop_succ_cons, List.drop_zero]
  split <;> rfl

theorem exists_slashes {cs : List Char} (placed : (cs.head? == some '/' ||
      (Text.dropEndWhile (· == '/') (cs.dropWhile (· == '/'))).contains '/') = true)
    (nothing : significant (cs.dropWhile (· == '/')) = []) :
    ∃ n blanks, cs = List.replicate (n + 1) '/' ++ blanks ∧
      ∀ c ∈ blanks, Text.isSpace c = true := by
  have blank := isSpace_of_significant_eq_nil nothing
  have anchored : cs.head? = some '/' := by
    obtain h | h := (Bool.or_eq_true _ _).mp placed
    · exact beq_iff_eq.mp h
    · have inside := (List.rdropWhile_prefix _ _).mem (List.contains_iff_mem.mp h)
      exact absurd (blank _ inside) (by decide)
  obtain ⟨rest, rfl⟩ := List.head?_eq_some_iff.mp anchored
  have slashes : rest.takeWhile (· == '/') =
      List.replicate (rest.takeWhile (· == '/')).length '/' :=
    List.eq_replicate_of_mem fun c hc => by simpa using List.mem_takeWhile_imp hc
  refine ⟨(rest.takeWhile (· == '/')).length, rest.dropWhile (· == '/'), ?_, by simpa using blank⟩
  rw [List.replicate_succ, ← slashes, List.cons_append, List.takeWhile_append_dropWhile]

/-- A line of the ignore file in a folder is put behind the path of the folder. Nothing is left of
it there if it is made of slashes and blanks. -/
theorem exists_of_rebase {line base text : String} (hb : base ≠ "")
    (h : rebase line base = some text) :
    ∃ negated rest, text = String.ofList (mark '!' negated ++ (base.toList ++ '/' :: rest)) ∧
      (significant rest = [] → IsSlashes line) := by
  obtain ⟨ends, hline, hends⟩ := exists_dropEndWhile_append (· == '\n') line.toList
  unfold rebase at h
  generalize Text.dropEndWhile (· == '\n') line.toList = body at h hline
  have inner : (if body.head? == some '!' then body.drop 1 else body) = unsigned body := by
    simp [unsigned]
  simp only [inner, if_neg hb] at h
  split at h
  · cases h
  refine ⟨body.head? == some '!', (if (unsigned body).head? == some '/' ||
    (Text.dropEndWhile (· == '/') ((unsigned body).dropWhile (· == '/'))).contains '/' then []
    else anywhere) ++ (unsigned body).dropWhile (· == '/'), ?_, fun nothing => ?_⟩
  · rw [← Option.some.inj h]
    simp [mark, anywhere]
  · split at nothing
    · next placed =>
      obtain ⟨n, blanks, heq, blank⟩ := exists_slashes placed nothing
      have hne : body ≠ [] := by
        rintro rfl
        simp [unsigned] at heq
      refine ⟨n, blanks ++ ends, ?_, fun c hc => ?_⟩
      · rw [hline, unsigned_append hne, heq, List.append_assoc]
      · rcases List.mem_append.mp hc with hc | hc
        · exact blank c hc
        · rw [beq_iff_eq.mp (hends c hc)]
          decide
    · have kept := significant_append_slash ['*', '*'] ((unsigned body).dropWhile (· == '/'))
      exact absurd (kept.symm.trans nothing) (by simp)

/-! ## Folders that keep to themselves -/

/-- A name that a file can have. -/
def IsFileName (name : String) : Prop :=
  name ≠ "" ∧ name ≠ "." ∧ '/' ∉ name.toList

instance (name : String) : Decidable (IsFileName name) :=
  inferInstanceAs (Decidable (_ ∧ _ ∧ _))

/-- A folder whose path leads nowhere else in front of a pattern: the first name does not start with
the mark that negates, and if the names can be read in a pattern they stand for themselves. -/
structure OwnFolder (here : List String) : Prop where
  ne_nil : here ≠ []
  names : ∀ name ∈ here, IsFileName name
  sign : ("/".intercalate here).toList.head? ≠ some '!'
  literal : (∀ name ∈ here, IsReadable name) → ∀ name ∈ here, IsLiteral name

namespace OwnFolder

variable {here : List String} (folder : OwnFolder here)

include folder

/-- What the lines of the ignore file in a folder cover is below the folder. -/
theorem exists_below {line text path : String} {p : Pattern}
    (hr : rebase line ("/".intercalate here) = some text) (hp : parse text = .ok (some p))
    (slash : here.length = 1 → ¬ IsSlashes line) (hc : p.covers path) :
    ∃ below, path = "/".intercalate here ++ "/" ++ below := by
  obtain ⟨c, cs, hbase⟩ :=
    exists_intercalate_eq_cons folder.ne_nil fun name hn => (folder.names name hn).1
  have named : "/".intercalate here ≠ "" := fun h => by simp [h] at hbase
  obtain ⟨negated, rest, rfl, hrest⟩ := exists_of_rebase named hr
  have counts : significant (String.ofList (mark '!' negated ++
      (("/".intercalate here).toList ++ '/' :: rest))).toList =
        mark '!' negated ++ (("/".intercalate here).toList ++ '/' :: significant rest) := by
    rw [String.toList_ofList, ← List.append_assoc, significant_append_slash, List.append_assoc]
  have sign : negated = false →
      (("/".intercalate here).toList ++ '/' :: significant rest).head? ≠ some '!' := by
    rintro -
    simpa [hbase] using folder.sign
  rw [parse_significant counts, unsigned_mark sign, splitAt_intercalate_append folder.ne_nil
    fun name hn => (folder.names name hn).2.2] at hp
  split at hp
  · cases hp
  · -- the line has a pattern, so the names of the folder can be read
    have readable := isReadable_of_ofSegments hp
    have plain : PlainFolder here :=
      ⟨folder.ne_nil, folder.literal fun name hn => readable name (List.mem_append_left _ hn),
        folder.sign⟩
    refine plain.exists_below (splitAt_ne_nil _) (fun one h => ?_) hp hc
    exact slash one (hrest (splitAt_eq_empty_iff.mp h))

end OwnFolder

/-! ## Paths outside a folder -/

/-- The text that patterns are held against for a place below the top. -/
def shownText (rest : List String) (isFolder : Bool) : String :=
  shown (Location.relativeText rest ++ if isFolder then "/" else "")

theorem shownText_eq {rest : List String} (hne : rest ≠ []) (names : ∀ name ∈ rest, IsFileName name)
    (isFolder : Bool) :
    shownText rest isFolder = "/".intercalate rest ++ if isFolder then "/" else "" := by
  obtain ⟨name, more, rfl⟩ := List.exists_cons_of_ne_nil hne
  obtain ⟨nonempty, dot, slash⟩ := names name List.mem_cons_self
  obtain ⟨tail, htail⟩ : ∃ tail, ("/".intercalate (name :: more) ++
      if isFolder then "/" else "").toList = name.toList ++ tail := by
    cases more with
    | nil => exact ⟨_, by rw [String.intercalate_singleton, String.toList_append]⟩
    | cons next more =>
      rw [String.intercalate_cons_of_ne_nil (List.cons_ne_nil next more)]
      exact ⟨_, by simp only [String.toList_append, List.append_assoc]; rfl⟩
  rw [shownText, Location.relativeText, List.isEmpty_cons, if_neg Bool.false_ne_true, shown, htail]
  obtain ⟨c, cs, hname⟩ : ∃ c cs, name.toList = c :: cs :=
    List.exists_cons_of_ne_nil (by simpa using nonempty)
  rw [hname] at slash ⊢
  split
  · next heq => exact absurd (List.cons.inj heq).1 (List.ne_of_not_mem_cons slash).symm
  · next heq =>
    obtain ⟨rfl, hcs⟩ := List.cons.inj heq
    cases cs with
    | nil => exact absurd (String.toList_injective hname) dot
    | cons d cs =>
      obtain ⟨rfl, -⟩ := List.cons.inj hcs
      exact absurd (by simp) slash
  · rfl

theorem prefix_of_shownText {here rest : List String} (own : ∀ name ∈ here, IsFileName name)
    (hne : here ≠ []) (names : ∀ name ∈ rest, IsFileName name) {isFolder : Bool} {below : String}
    (h : shownText rest isFolder = "/".intercalate here ++ "/" ++ below) : here <+: rest := by
  have slashless {place : List String} (hp : ∀ name ∈ place, IsFileName name) :
      ∀ name ∈ place, '/' ∉ name.toList := fun name hn => (hp name hn).2.2
  have cut : Text.splitAt '/' (shownText rest isFolder) = here ++ Text.splitAt '/' below := by
    have joined : "/".intercalate here ++ "/" ++ below =
        String.ofList (("/".intercalate here).toList ++ '/' :: below.toList) :=
      String.toList_injective (by simp)
    rw [h, joined, splitAt_intercalate_append hne (slashless own), String.ofList_toList]
  by_cases hrest : rest = []
  · have short : (Text.splitAt '/' (shownText rest isFolder)).length = 1 := by
      subst hrest
      cases isFolder <;> rfl
    have first := List.length_pos_iff.mpr hne
    have more := List.length_pos_iff.mpr (splitAt_ne_nil below)
    rw [cut, List.length_append] at short
    omega
  · rw [shownText_eq hrest names] at cut
    cases isFolder with
    | false =>
      rw [if_neg Bool.false_ne_true, String.append_empty,
        splitAt_intercalate hrest (slashless names)] at cut
      exact ⟨_, cut.symm⟩
    | true =>
      have joined : "/".intercalate rest ++ "/" =
          String.ofList (("/".intercalate rest).toList ++ '/' :: []) :=
        String.toList_injective (by simp)
      rw [if_pos rfl, joined, splitAt_intercalate_append hrest (slashless names)] at cut
      obtain heq | inside := List.prefix_concat_iff.mp ⟨_, cut.symm⟩
      · exact absurd rfl (own "" (by simp [heq])).1
      · exact inside

theorem ignores_append_append {before own after : List Pattern} {path : String}
    (h : ∀ p ∈ own, p.covers (shown path) = false) :
    ignores (before ++ own ++ after) path = ignores (before ++ after) path := by
  have none : own.reverse.find? (·.covers (shown path)) = none := by
    simpa using h
  simp only [ignores, List.reverse_append, List.find?_append, none, Option.none_or]

theorem Rules.ignore_eq (rules : Rules) (l : Location) (isFolder : Bool) :
    rules.ignore l isFolder = (l.below? rules.root).any fun rest =>
      ignores (rules.patterns.getD [])
        (Location.relativeText rest ++ if isFolder then "/" else "") := by
  rw [Rules.ignore]
  cases rules.patterns with
  | none => cases l.below? rules.root <;> rfl
  | some patterns => cases l.below? rules.root <;> rfl

theorem eq_append_of_below? {l folder : Location} {rest : List String}
    (h : l.below? folder = some rest) : l = folder ++ rest := by
  rw [Location.below?] at h
  split at h
  · next inside =>
    rw [← Option.some.inj h]
    exact (List.prefix_iff_eq_append.mp (List.isPrefixOf_iff_prefix.mp inside)).symm
  · cases h

open Entry (put put_self look_eq_file)

section Outside

variable {top : Entry} {l other : Location} {here : List String} {old bytes : List UInt8}
  {rules rules' : Rules} {isFolder : Bool}

/-- The rules of a repository have the patterns of an ignore file at a place of their own. -/
theorem exists_patterns_put
    (file : top.look (repositoryRoot top l ++ here ++ [fileName]) = some (.file old)) :
    ∃ before after, ∀ bytes rules,
      rulesAt (put (.file bytes) (repositoryRoot top l ++ here ++ [fileName]) top) l = .ok rules →
      rules.root = repositoryRoot top l ∧ ∃ own, rules.patterns.getD [] = before ++ own ++ after ∧
        ∀ p ∈ own, ∃ line ∈ fileLines bytes, ∃ text,
          rebase line ("/".intercalate here) = some text ∧ parse text = .ok (some p) := by
  obtain ⟨before, after, texts⟩ := exists_repositoryTexts_put file
  refine ⟨((parseAll before).toOption).getD [], ((parseAll after).toOption).getD [],
    fun bytes rules h => ?_⟩
  obtain ⟨root, parsed⟩ := of_rulesAt h
  rw [texts] at parsed
  obtain ⟨front, back, hfront, hback, heq⟩ := exists_of_parseAll_append parsed
  obtain ⟨first, own, hfirst, hown, rfl⟩ := exists_of_parseAll_append hfront
  rw [repositoryRoot_put file] at root
  rw [hfirst, hback]
  refine ⟨root, own, heq, fun p hp => ?_⟩
  obtain ⟨text, ht, hp⟩ := exists_of_mem_parseAll hown hp
  split at ht
  · cases ht
  · obtain ⟨_, ⟨⟩, line, hl, hr⟩ := mem_fileTexts.mp ht
    exact ⟨line, hl, text, hr, hp⟩

/-- The pattern of a line does not cover a path that is not below the folder of the line. -/
theorem OwnFolder.covers_eq_false (folder : OwnFolder here) {line text : String} {p : Pattern}
    (hr : rebase line ("/".intercalate here) = some text) (hp : parse text = .ok (some p))
    (slash : here.length = 1 → ¬ IsSlashes line) {rest : List String}
    (names : ∀ name ∈ rest, IsFileName name) (outside : ¬ here <+: rest) (isFolder : Bool) :
    p.covers (shownText rest isFolder) = false := by
  refine Bool.eq_false_iff.mpr fun hc => outside ?_
  obtain ⟨below, h⟩ := folder.exists_below hr hp slash hc
  exact prefix_of_shownText folder.names folder.ne_nil names h

/-- **An ignore file does not reach outside its folder**, if the path of the folder leads nowhere
else in front of a pattern, and no line of the file is made of slashes where the folder is at the
top: the patterns of its lines cover nothing else, and whether something else is ignored does not
depend on what the file says. -/
theorem ignore_outside (folder : OwnFolder here)
    (file : top.look (repositoryRoot top l ++ here ++ [fileName]) = some (.file old))
    (slash : here.length = 1 → ∀ line ∈ fileLines old ++ fileLines bytes, ¬ IsSlashes line)
    (h : rulesAt top l = .ok rules)
    (h' : rulesAt (put (.file bytes) (repositoryRoot top l ++ here ++ [fileName]) top) l =
      .ok rules')
    (names : ∀ name ∈ other, IsFileName name)
    (outside : ¬ repositoryRoot top l ++ here <+: other) :
    (∀ line ∈ fileLines old, ∀ text p, rebase line ("/".intercalate here) = some text →
        parse text = .ok (some p) → ∀ rest, other = repositoryRoot top l ++ rest →
        p.covers (shownText rest isFolder) = false) ∧
      rules'.ignore other isFolder = rules.ignore other isFolder := by
  have uncovered {line text : String} {p : Pattern} {rest : List String}
      (hl : line ∈ fileLines old ++ fileLines bytes)
      (hr : rebase line ("/".intercalate here) = some text) (hp : parse text = .ok (some p))
      (hrest : other = repositoryRoot top l ++ rest) :
      p.covers (shownText rest isFolder) = false := by
    subst hrest
    refine folder.covers_eq_false hr hp (fun one => slash one line hl)
      (fun name hn => names name (List.mem_append_right _ hn)) (fun inside => outside ?_) isFolder
    exact (List.prefix_append_right_inj _).mpr inside
  refine ⟨fun line hl text p hr hp rest hrest =>
    uncovered (List.mem_append_left _ hl) hr hp hrest, ?_⟩
  obtain ⟨before, after, patterns⟩ := exists_patterns_put file
  rw [← put_self (look_eq_file.mp file)] at h
  obtain ⟨root, own, heq, lines⟩ := patterns old rules h
  obtain ⟨root', own', heq', lines'⟩ := patterns bytes rules' h'
  rw [Rules.ignore_eq, Rules.ignore_eq, root, root', heq, heq']
  cases hb : other.below? (repositoryRoot top l) with
  | none => rfl
  | some rest =>
    have hrest := eq_append_of_below? hb
    rw [Option.any_some, Option.any_some, ignores_append_append, ignores_append_append]
    · intro p hp
      obtain ⟨line, hl, text, hr, hp⟩ := lines p hp
      exact uncovered (List.mem_append_left _ hl) hr hp hrest
    · intro p hp
      obtain ⟨line, hl, text, hr, hp⟩ := lines' p hp
      exact uncovered (List.mem_append_right _ hl) hr hp hrest

end Outside

/-- A folder with a bracket in its name, and a line of a slash alone in its place. -/
theorem ignore_outside_web :
    let top : Entry := .folder [(".git", .file []), ("pkg", .folder
      [("web]", .folder [(fileName, .file [42, 46, 106, 115])]), ("x.js", .file [])])]
    OwnFolder ["pkg", "web]"] ∧ ∃ rules rules',
      rulesAt top [] = .ok rules ∧
      rulesAt (put (.file [47]) ["pkg", "web]", fileName] top) [] = .ok rules' ∧
      rules'.ignore ["pkg", "x.js"] false = rules.ignore ["pkg", "x.js"] false := by
  intro top
  have folder : OwnFolder ["pkg", "web]"] :=
    ⟨by simp, by decide, by decide, fun _ => by decide⟩
  obtain ⟨rules, h⟩ : ∃ rules, rulesAt top [] = .ok rules := ⟨_, rfl⟩
  obtain ⟨rules', h'⟩ : ∃ rules',
    rulesAt (put (.file [47]) ["pkg", "web]", fileName] top) [] = .ok rules' := ⟨_, rfl⟩
  have file : top.look (repositoryRoot top [] ++ ["pkg", "web]"] ++ [fileName]) =
    some (.file [42, 46, 106, 115]) := rfl
  refine ⟨folder, rules, rules', h, h', ?_⟩
  exact (ignore_outside folder file (by simp) h h' (by decide) (by decide)).2

/-- A folder with brackets in its name, and a line of a slash alone in a folder at the top. -/
theorem ignore_reaches_outside :
    (let top : Entry := .folder [(".git", .file []),
      ("[ab]", .folder [(fileName, .file [120, 46, 106, 115])]),
      ("a", .folder [("x.js", .file [])])]
    ∃ rules, rulesAt top [] = .ok rules ∧ rules.ignore ["a", "x.js"] false = true) ∧
    (let top : Entry := .folder [(".git", .file []), ("a", .folder [(fileName, .file [47])]),
      ("lib", .folder [("a", .folder [("x.js", .file [])])])]
    ∃ rules, rulesAt top [] = .ok rules ∧ rules.ignore ["lib", "a", "x.js"] false = true) :=
  ⟨⟨_, rfl, by decide⟩, ⟨_, rfl, by decide⟩⟩

end ScriptSurvey.Ignore
