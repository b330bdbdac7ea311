import Mathlib.Tactic.SplitIfs
import ScriptSurvey.Files.World

/-!
# What a write changes

`Entry.look` is what the program can see of the file system: at each location nothing, a folder, or
a file with its bytes. A path is followed by what is seen on the way (`follow_cons`), and a file
that is written is seen at its location and changes nothing elsewhere (`look_put`).

`World.Writable` says that the file at a path can be opened to be written, and where it then stands;
it is opened exactly then (`Writable.openPlace_eq`, `writable_of_openPlace`). Bytes are put into an
opened file unless there is no room at its place (`fill_eq_ok_iff`), and afterwards they can be read
back (`Writable.read_putFile`), the file can be opened again (`Writable.again`), and the same paths
lead to folders as before (`Writable.isFolder_putFile`).
-/

namespace ScriptSurvey

namespace Entry

/-! ## Looking -/

/-- What is seen of an entry. -/
inductive Sight where
  | folder
  | file (bytes : List UInt8)
deriving DecidableEq

/-- What is seen of an entry. -/
def sight : Entry → Sight
  | .file bytes => .file bytes
  | .folder _ => .folder

/-- What is seen at a location. -/
def look (top : Entry) (l : Location) : Option Sight :=
  (top.at? l).map sight

section Look

variable {top : Entry} {l m : Location}

@[simp]
theorem at?_nil (e : Entry) : e.at? [] = some e := by
  rw [at?]

@[simp]
theorem at?_cons (e : Entry) (name : String) (rest : Location) :
    e.at? (name :: rest) = (e.child? name).bind (·.at? rest) := by
  rw [at?]

theorem at?_append (e : Entry) (l m : Location) :
    e.at? (l ++ m) = (e.at? l).bind (·.at? m) := by
  induction l generalizing e with
  | nil => rfl
  | cons name rest ih =>
    rw [List.cons_append, at?_cons, at?_cons, Option.bind_assoc]
    exact congrArg _ (funext fun e => ih e)

@[simp]
theorem look_nil (e : Entry) : e.look [] = some e.sight :=
  rfl

@[simp]
theorem look_folder_cons (entries : List (String × Entry)) (name : String) (rest : Location) :
    (folder entries).look (name :: rest) = (entries.lookup name).bind (·.look rest) := by
  rw [look, at?_cons, Option.map_bind]
  rfl

@[simp]
theorem look_file_cons (bytes : List UInt8) (name : String) (rest : Location) :
    (file bytes).look (name :: rest) = none := by
  rw [look, at?_cons]
  rfl

theorem look_append : top.look (l ++ m) = (top.at? l).bind (·.look m) := by
  rw [look, at?_append, Option.map_bind]
  rfl

theorem look_eq_folder :
    top.look l = some .folder ↔ ∃ entries, top.at? l = some (.folder entries) := by
  rw [look, Option.map_eq_some_iff]
  constructor
  · rintro ⟨e, he, hs⟩
    cases e with
    | file bytes => cases hs
    | folder entries => exact ⟨entries, he⟩
  · rintro ⟨entries, he⟩
    exact ⟨_, he, rfl⟩

theorem look_eq_file {bytes : List UInt8} :
    top.look l = some (.file bytes) ↔ top.at? l = some (.file bytes) := by
  rw [look, Option.map_eq_some_iff]
  constructor
  · rintro ⟨e, he, hs⟩
    cases e with
    | file bytes =>
      cases hs
      exact he
    | folder entries => cases hs
  · exact fun he => ⟨_, he, rfl⟩

theorem look_eq_none : top.look l = none ↔ top.at? l = none :=
  Option.map_eq_none_iff

/-- Whatever has something in it is a folder. -/
theorem look_of_look_append {s : Sight} {name : String} (h : top.look (l ++ name :: m) = some s) :
    top.look l = some .folder := by
  rw [look_append] at h
  obtain ⟨e, he, hs⟩ := Option.bind_eq_some_iff.mp h
  cases e with
  | file bytes => simp [look, child?] at hs
  | folder entries => exact look_eq_folder.mpr ⟨entries, he⟩

/-- Above a folder there are only folders. -/
theorem look_folder_above (h : top.look l = some .folder) (hm : m <+: l) :
    top.look m = some .folder := by
  obtain ⟨rest, rfl⟩ := hm
  cases rest with
  | nil => rwa [List.append_nil] at h
  | cons name rest => exact look_of_look_append h

theorem look_dropLast (h : top.look l = some .folder) : top.look l.dropLast = some .folder :=
  look_folder_above h (List.dropLast_prefix l)

end Look

/-! ## Following a path -/

section Follow

variable {top : Entry} {here l : Location} {parts : List String}

theorem follow_cons (part : String) (rest : List String) :
    top.follow here (part :: rest) =
      match top.look here with
      | some .folder =>
        if part = ".." then top.follow here.dropLast rest
        else if (top.look (here ++ [part])).isSome then top.follow (here ++ [part]) rest
        else .error .missing
      | some (.file _) => .error .notFolder
      | none => .error .missing := by
  rw [follow]
  cases he : top.at? here with
  | none => rw [look_eq_none.mpr he]
  | some e =>
    cases e with
    | file bytes => rw [look_eq_file.mpr he]
    | folder entries =>
      have inside : (top.look (here ++ [part])).isSome = (entries.lookup part).isSome := by
        rw [look_append, he]
        simp [look, child?]
      rw [look_eq_folder.mpr ⟨entries, he⟩]
      simp only [inside]

theorem follow_append (parts more : List String) :
    top.follow here (parts ++ more) = (top.follow here parts).bind (top.follow · more) := by
  induction parts generalizing here with
  | nil => rfl
  | cons part rest ih =>
    rw [List.cons_append, follow_cons, follow_cons]
    split
    · split_ifs
      · exact ih
      · exact ih
      · rfl
    · rfl
    · rfl

/-- A path that can be followed leads where its text says. -/
theorem follow_eq_foldl (h : top.follow here parts = .ok l) : l = parts.foldl Path.stepTo here := by
  induction parts generalizing here with
  | nil =>
    cases h
    rfl
  | cons part rest ih =>
    rw [follow_cons] at h
    rw [List.foldl_cons, Path.stepTo]
    split at h
    · split_ifs at h with up
      · rw [if_pos up]
        exact ih h
      · rw [if_neg up]
        exact ih h
    · cases h
    · cases h

/-- Where folders stay folders and nothing goes away, a path leads where it led. -/
theorem follow_mono {top' : Entry}
    (folders : ∀ l, top.look l = some .folder → top'.look l = some .folder)
    (stays : ∀ l, (top.look l).isSome → (top'.look l).isSome) (h : top.follow here parts = .ok l) :
    top'.follow here parts = .ok l := by
  induction parts generalizing here with
  | nil => exact h
  | cons part rest ih =>
    rw [follow_cons] at h ⊢
    split at h
    · next folder =>
      rw [folders here folder]
      split_ifs at h with up inside
      · rw [if_pos up]
        exact ih h
      · dsimp only
        rw [if_neg up, if_pos (stays _ inside)]
        exact ih h
    · cases h
    · cases h

/-- A file that is new or changed is not on the way to any other place. -/
theorem follow_of_look_eq {top' : Entry} {place : Location} {bytes : List UInt8}
    (same : ∀ l, l ≠ place → top'.look l = top.look l) (file : top'.look place = some (.file bytes))
    (h : top'.follow here parts = .ok l) (hl : l ≠ place) : top.follow here parts = .ok l := by
  induction parts generalizing here with
  | nil => exact h
  | cons part rest ih =>
    rw [follow_cons] at h ⊢
    split at h
    · next folder =>
      have away : here ≠ place := by
        rintro rfl
        rw [file] at folder
        cases folder
      rw [← same here away, folder]
      dsimp only at h ⊢
      split_ifs at h with up inside
      · rw [if_pos up]
        exact ih h
      · have onward : here ++ [part] ≠ place := by
          rintro rfl
          cases rest with
          | nil =>
            cases h
            exact hl rfl
          | cons next rest =>
            rw [follow_cons, file] at h
            cases h
        rw [if_neg up, ← same _ onward, if_pos inside]
        exact ih h
    · cases h
    · cases h

end Follow

/-! ## Putting a file -/

section Put

theorem lookup_alterEntry (name : String) (f : Option Entry → Entry)
    (entries : List (String × Entry)) (other : String) :
    (alterEntry name (fun old => some (f old)) entries).lookup other =
      if other = name then some (f (entries.lookup name)) else entries.lookup other := by
  induction entries with
  | nil =>
    by_cases h : other = name
    · simp [alterEntry, h]
    · simp [alterEntry, h]
  | cons entry rest ih =>
    obtain ⟨n, e⟩ := entry
    rw [alterEntry]
    by_cases hn : n = name
    · subst hn
      by_cases h : other = n
      · simp [h]
      · simp [h, List.lookup_cons, beq_false_of_ne h]
    · rw [if_neg hn]
      by_cases h : other = n
      · subst h
        simp [hn]
      · have hname : (name == n) = false := beq_false_of_ne (Ne.symm hn)
        simp only [List.lookup_cons, beq_false_of_ne h, hname, ih]

theorem alterEntry_alterEntry (name : String) (f g : Option Entry → Entry)
    (entries : List (String × Entry)) :
    alterEntry name (fun old => some (f old)) (alterEntry name (fun old => some (g old)) entries) =
      alterEntry name (fun old => some (f (some (g old)))) entries := by
  induction entries with
  | nil => simp [alterEntry]
  | cons entry rest ih =>
    obtain ⟨n, e⟩ := entry
    by_cases hn : n = name
    · simp [alterEntry, hn]
    · simp [alterEntry, hn, ih]

/-- Of two files put at one place the later one counts. -/
theorem put_put (new : Entry) (bytes : List UInt8) (l : Location) (top : Entry) :
    put new l (put (.file bytes) l top) = put new l top := by
  induction l generalizing top with
  | nil => rw [put, put]
  | cons name rest ih =>
    cases top with
    | file old => simp [put]
    | folder entries =>
      rw [put, put, put, alterEntry_alterEntry]
      simp only [Option.getD_some, ih]

/-- **A file that is put** into a folder is seen at its place, and all else is seen as before. -/
theorem look_put {top : Entry} {l : Location} {name : String} (hl : top.look l = some .folder)
    (hn : top.look (l ++ [name]) ≠ some .folder) (bytes : List UInt8) (m : Location) :
    (put (.file bytes) (l ++ [name]) top).look m =
      if m = l ++ [name] then some (.file bytes) else top.look m := by
  induction l generalizing top m with
  | nil =>
    obtain ⟨entries, rfl⟩ : ∃ entries, top = .folder entries := by simpa using look_eq_folder.mp hl
    rw [List.nil_append] at hn ⊢
    cases m with
    | nil => simp [put, sight]
    | cons first rest =>
      rw [put, look_folder_cons, lookup_alterEntry, look_folder_cons]
      by_cases h : first = name
      · subst h
        cases rest with
        | nil => simp [put, sight]
        | cons next rest =>
          have empty : (entries.lookup first).bind (·.look (next :: rest)) = none := by
            cases he : entries.lookup first with
            | none => rfl
            | some e =>
              cases e with
              | file old => simp
              | folder inner => simp [he, sight] at hn
          simp [put, empty]
      · simp [h]
  | cons first rest ih =>
    obtain ⟨entries, rfl⟩ : ∃ entries, top = .folder entries := by
      simpa using look_eq_folder.mp (look_of_look_append (l := []) hl)
    rw [List.cons_append, look_folder_cons] at hn
    rw [look_folder_cons] at hl
    obtain ⟨e, he, hr⟩ := Option.bind_eq_some_iff.mp hl
    rw [he, Option.bind_some] at hn
    rw [List.cons_append]
    cases m with
    | nil => simp [put, sight]
    | cons next m =>
      rw [put, look_folder_cons, lookup_alterEntry, look_folder_cons]
      by_cases h : next = first
      · subst h
        rw [if_pos rfl, he, Option.getD_some, Option.bind_some, Option.bind_some, ih hr hn m]
        simp
      · simp [h]

end Put

end Entry

namespace World

open Entry

variable {w : World} {p : Path} {place : Location}

/-! ## Paths and their parents -/

/-- What a path leads to is what is seen at the place where it ends. -/
theorem isFolder_iff :
    w.isFolder p = true ↔ ∃ l, w.locate p = .ok l ∧ w.top.look l = some .folder := by
  unfold isFolder entry?
  cases hl : w.locate p with
  | error problem => simp
  | ok l =>
    simp only [Option.any_eq_true]
    constructor
    · rintro ⟨e, he, hf⟩
      cases e with
      | file bytes => cases hf
      | folder entries => exact ⟨l, rfl, look_eq_folder.mpr ⟨entries, he⟩⟩
    · rintro ⟨_, ⟨⟩, hf⟩
      obtain ⟨entries, he⟩ := look_eq_folder.mp hf
      exact ⟨_, he, rfl⟩

theorem read_eq : w.read p =
    match w.locate p with
    | .error problem => .error ⟨problem, p.text⟩
    | .ok l =>
      match w.top.look l with
      | some (.file bytes) => .ok bytes
      | some .folder => .error ⟨.isFolder, p.text⟩
      | none => .error ⟨.missing, p.text⟩ := by
  unfold read
  cases hl : w.locate p with
  | error problem => rfl
  | ok l =>
    dsimp only
    rw [look]
    cases w.top.at? l with
    | none => rfl
    | some e => cases e <;> rfl

@[simp]
theorem name_child (p : Path) (name : String) : (p.child name).name = name := by
  simp [Path.child, Path.name]

@[simp]
theorem parent_child (p : Path) (name : String) : (p.child name).parent = p := by
  simp [Path.child, Path.parent]

theorem fromTop_eq_concat (hp : p.parts ≠ []) (folder : Location) :
    p.fromTop folder = p.parent.fromTop folder ++ [p.name] := by
  have split : p.parts = p.parts.dropLast ++ [p.name] := by
    rw [Path.name, List.getLast?_eq_some_getLast hp, Option.getD_some, List.dropLast_concat_getLast]
  have root : p.parent.root = p.root := rfl
  rw [Path.fromTop, Path.fromTop, root]
  split_ifs
  · rw [List.append_assoc]
    exact congrArg (folder ++ ·) split
  · exact split

/-- The last step of a path. -/
theorem locate_eq_bind (hp : p.parts ≠ []) :
    w.locate p = (w.locate p.parent).bind fun l => w.top.follow l [p.name] := by
  rw [locate, fromTop_eq_concat hp, follow_append]
  rfl

/-! ## Where paths lead -/

/-- A path leads to a location, and something is seen there. -/
structure Leads (w : World) (p : Path) (l : Location) (s : Sight) : Prop where
  locate : w.locate p = .ok l
  look : w.top.look l = some s

theorem pathExists_iff : w.pathExists p = true ↔ ∃ l s, w.Leads p l s := by
  unfold pathExists entry?
  cases hl : w.locate p with
  | error problem => exact ⟨nofun, fun ⟨l, s, h⟩ => by rw [h.locate] at hl; cases hl⟩
  | ok l =>
    dsimp only
    rw [Option.isSome_iff_exists]
    constructor
    · rintro ⟨e, he⟩
      exact ⟨l, e.sight, hl, by rw [Entry.look, he]; rfl⟩
    · rintro ⟨_, s, h⟩
      obtain rfl : l = _ := Except.ok.inj (hl.symm.trans h.locate)
      obtain ⟨e, he, -⟩ := Option.map_eq_some_iff.mp h.look
      exact ⟨e, he⟩

section Leads

variable {l : Location} {s : Sight}

theorem Leads.isFolder_iff (h : w.Leads p l s) : w.isFolder p = true ↔ s = .folder := by
  rw [World.isFolder_iff]
  constructor
  · rintro ⟨m, hm, hf⟩
    obtain rfl : m = l := Except.ok.inj (hm.symm.trans h.locate)
    exact Option.some.inj (h.look.symm.trans hf)
  · rintro rfl
    exact ⟨l, h.locate, h.look⟩

theorem Leads.resolve (h : w.Leads p l s) : w.resolve p = l :=
  (follow_eq_foldl h.locate).symm

theorem Leads.read {bytes : List UInt8} (h : w.Leads p l (.file bytes)) : w.read p = .ok bytes := by
  rw [read_eq, h.locate]
  dsimp only
  rw [h.look]

theorem Leads.entry_eq (h : w.Leads p l s) : w.entry? p = w.top.at? l := by
  rw [World.entry?, h.locate]

/-- A path to a file ends in the name of the file, after a path to the folder that it is in. -/
theorem Leads.parent {bytes : List UInt8} (h : w.Leads p l (.file bytes)) (hp : p.parts ≠ []) :
    p.name ≠ ".." ∧ ∃ front, l = front ++ [p.name] ∧ w.Leads p.parent front .folder := by
  have hl := h.locate
  rw [locate_eq_bind hp] at hl
  cases hf : w.locate p.parent with
  | error problem =>
    rw [hf] at hl
    cases hl
  | ok front =>
    rw [hf] at hl
    change w.top.follow front [p.name] = _ at hl
    rw [follow_cons] at hl
    split at hl
    · next folder =>
      split_ifs at hl with up inside
      · cases hl
        have file := h.look
        rw [look_dropLast folder] at file
        cases file
      · cases hl
        exact ⟨up, front, rfl, hf, folder⟩
    · cases hl
    · cases hl

end Leads

/-! ## Writing -/

/-- The file at a path can be opened to be written, and stands at `place` then. -/
structure Writable (w : World) (p : Path) (place : Location) : Prop where
  named : p.parts ≠ [] ∧ p.name ≠ ".."
  parent : ∃ l, w.locate p.parent = .ok l ∧ w.top.look l = some .folder ∧ place = l ++ [p.name]
  notFolder : w.top.look place ≠ some .folder

theorem locate_child {l : Location} (named : p.parts ≠ [] ∧ p.name ≠ "..")
    (hl : w.locate p.parent = .ok l) (hf : w.top.look l = some .folder) :
    w.locate p = if (w.top.look (l ++ [p.name])).isSome then .ok (l ++ [p.name])
      else .error .missing := by
  rw [locate_eq_bind named.1, hl]
  change w.top.follow l [p.name] = _
  rw [follow_cons, hf]
  dsimp only
  rw [if_neg named.2]
  rfl

/-- In a folder every file can be written whose name is not that of a folder. -/
theorem Leads.writable_child {l : Location} (h : w.Leads p l .folder) {name : String}
    (hn : name ≠ "..") (hf : w.top.look (l ++ [name]) ≠ some .folder) :
    w.Writable (p.child name) (l ++ [name]) where
  named := ⟨by simp [Path.child], by rwa [name_child]⟩
  parent := ⟨l, by rw [parent_child, h.locate], h.look, by rw [name_child]⟩
  notFolder := hf

theorem Writable.locate (h : w.Writable p place) :
    w.locate p = if (w.top.look place).isSome then .ok place else .error .missing := by
  obtain ⟨l, hl, hf, rfl⟩ := h.parent
  exact locate_child h.named hl hf

theorem Writable.unique {other : Location} (h : w.Writable p place) (h' : w.Writable p other) :
    place = other := by
  obtain ⟨l, hl, -, rfl⟩ := h.parent
  obtain ⟨m, hm, -, rfl⟩ := h'.parent
  rw [Except.ok.inj (hl.symm.trans hm)]

theorem Writable.isFolder (h : w.Writable p place) : w.isFolder p = false := by
  rw [Bool.eq_false_iff, ne_eq, isFolder_iff]
  rintro ⟨l, hl, hf⟩
  rw [h.locate] at hl
  split_ifs at hl
  cases hl
  exact h.notFolder hf

theorem Writable.openPlace_eq (h : w.Writable p place) : w.openPlace p = .ok place := by
  obtain ⟨l, hl, hf, hplace⟩ := h.parent
  obtain ⟨entries, he⟩ := look_eq_folder.mp hf
  rw [openPlace, h.isFolder, hl, hplace]
  simp [he]

theorem writable_of_openPlace (h : w.openPlace p = .ok place) : w.Writable p place := by
  unfold openPlace at h
  split at h
  · cases h
  · next notFolder =>
    cases hl : w.locate p.parent with
    | error problem =>
      rw [hl] at h
      cases h
    | ok l =>
      rw [hl] at h
      dsimp only at h
      split at h
      · next entries he =>
        have hf := look_eq_folder.mpr ⟨entries, he⟩
        have leads : ∀ m, w.locate p = .ok m → w.top.look m ≠ some .folder :=
          fun m hm hfolder => notFolder (isFolder_iff.mpr ⟨m, hm, hfolder⟩)
        have named : p.parts ≠ [] := fun hp => by
          have self : p.parent = p := by
            cases p
            simp_all [Path.parent]
          exact leads l (self ▸ hl) hf
        have down : p.name ≠ ".." := fun hup => by
          refine leads l.dropLast ?_ (look_dropLast hf)
          rw [locate_eq_bind named, hl, hup]
          change w.top.follow l [".."] = _
          rw [follow_cons, hf]
          rfl
        cases h
        refine ⟨⟨named, down⟩, ⟨l, hl, hf, rfl⟩, fun hfolder => ?_⟩
        refine leads _ ?_ hfolder
        rw [locate_child ⟨named, down⟩ hl hf, hfolder]
        rfl
      · cases h
      · cases h

theorem fill_eq_ok_iff {bytes : List UInt8} {after : World} :
    w.fill place bytes = .ok after ↔ place ∉ w.full ∧ after = w.putFile place bytes := by
  unfold fill
  split_ifs with full <;> simp [full, eq_comm]

/-- A write succeeds only where the file can be opened and there is room. -/
theorem writable_of_write {bytes : List UInt8} {after : World} (h : w.write p bytes = .ok after) :
    ∃ place, w.Writable p place ∧ place ∉ w.full := by
  unfold write at h
  cases opened : w.openPlace p with
  | error fault =>
    rw [opened] at h
    cases h
  | ok place =>
    rw [opened] at h
    exact ⟨place, writable_of_openPlace opened, (fill_eq_ok_iff.mp h).1⟩

section Written

variable (h : w.Writable p place) (bytes : List UInt8)

include h

theorem Writable.look_putFile (m : Location) :
    (w.putFile place bytes).top.look m =
      if m = place then some (.file bytes) else w.top.look m := by
  obtain ⟨l, -, hf, rfl⟩ := h.parent
  exact look_put hf h.notFolder bytes m

/-- The folders are those from before. -/
theorem Writable.look_putFile_eq_folder (m : Location) :
    (w.putFile place bytes).top.look m = some .folder ↔ w.top.look m = some .folder := by
  rw [h.look_putFile]
  split_ifs with hm
  · subst hm
    exact ⟨nofun, fun hf => absurd hf h.notFolder⟩
  · rfl

/-- Paths lead where they led. -/
theorem Writable.locate_putFile {q : Path} {l : Location} (hl : w.locate q = .ok l) :
    (w.putFile place bytes).locate q = .ok l := by
  refine follow_mono (fun m => (h.look_putFile_eq_folder bytes m).mpr) (fun m hm => ?_) hl
  rw [h.look_putFile]
  split_ifs
  · rfl
  · exact hm

theorem Writable.again : (w.putFile place bytes).Writable p place := by
  obtain ⟨l, hl, hf, hplace⟩ := h.parent
  refine ⟨h.named, ⟨l, h.locate_putFile bytes hl, ?_, hplace⟩, ?_⟩
  · exact (h.look_putFile_eq_folder bytes l).mpr hf
  · rw [ne_eq, h.look_putFile_eq_folder]
    exact h.notFolder

/-- **What was written** is read. -/
theorem Writable.read_putFile : (w.putFile place bytes).read p = .ok bytes := by
  have seen : (w.putFile place bytes).top.look place = some (.file bytes) := by
    rw [h.look_putFile, if_pos rfl]
  rw [read_eq, (h.again bytes).locate, seen]
  simp [seen]

/-- No path leads to a folder that did not, and none ceases to. -/
theorem Writable.isFolder_putFile (q : Path) :
    (w.putFile place bytes).isFolder q = w.isFolder q := by
  rw [Bool.eq_iff_iff, isFolder_iff, isFolder_iff]
  constructor
  · rintro ⟨l, hl, hf⟩
    have same : ∀ m, m ≠ place → (w.putFile place bytes).top.look m = w.top.look m :=
      fun m hm => by rw [h.look_putFile, if_neg hm]
    have file : (w.putFile place bytes).top.look place = some (.file bytes) := by
      rw [h.look_putFile, if_pos rfl]
    have away : l ≠ place := by
      rintro rfl
      rw [file] at hf
      cases hf
    exact ⟨l, follow_of_look_eq same file hl away, (h.look_putFile_eq_folder bytes l).mp hf⟩
  · rintro ⟨l, hl, hf⟩
    exact ⟨l, h.locate_putFile bytes hl, (h.look_putFile_eq_folder bytes l).mpr hf⟩

end Written

theorem putFile_putFile (place : Location) (first second : List UInt8) :
    (w.putFile place first).putFile place second = w.putFile place second := by
  simp only [putFile, put_put]

end World

end ScriptSurvey
