import ScriptSurvey.Proofs.Files.Sources

/-!
# What a removal changes

A file that is removed is no longer seen, and changes nothing elsewhere (`look_remove`). Where it
was not meant a path leads where it led (`Writable.leads_without`), and the bare tree does not show
that a report has gone (`bare_remove`).
-/

namespace ScriptSurvey

open Cache (isReportName)

namespace Entry

section Entries

variable {entries : List (String × Entry)} {name : String}

/-- As the names in a folder differ, what is behind an entry that goes does not appear under its
name. -/
theorem lookup_alterEntry_of_allProper (proper : allProper entries = true)
    (f : Option Entry → Option Entry) (hf : f none = none) (other : String) :
    (alterEntry name f entries).lookup other =
      if other = name then f (entries.lookup name) else entries.lookup other := by
  induction entries with
  | nil => simp [alterEntry, hf]
  | cons entry rest ih =>
    obtain ⟨first, e⟩ := entry
    simp only [allProper, Bool.and_eq_true, Bool.not_eq_true', List.any_eq_false, beq_iff_eq]
      at proper
    obtain ⟨⟨⟨-, fresh⟩, -⟩, proper⟩ := proper
    rw [alterEntry]
    by_cases hn : first = name
    · subst hn
      rw [if_pos rfl, List.lookup_cons_self]
      have behind : rest.lookup first = none := by
        rw [Option.eq_none_iff_forall_ne_some]
        intro e' he
        exact fresh _ (mem_of_lookup he) rfl
      by_cases h : other = first
      · subst h
        cases f (some e) <;> simp [behind]
      · have hne : (other == first) = false := beq_false_of_ne h
        cases f (some e) <;> simp [List.lookup_cons, hne, h]
    · rw [if_neg hn, List.lookup_cons, List.lookup_cons, List.lookup_cons, ih proper]
      by_cases h : other = first
      · subst h
        simp [hn]
      · have hne : (other == first) = false := beq_false_of_ne h
        have hne' : (name == first) = false := beq_false_of_ne (Ne.symm hn)
        simp only [hne, hne']

end Entries

section Remove

variable {top : Entry} {name : String} {bytes : List UInt8}

theorem remove_cons (first : String) {rest : Location} (hr : rest ≠ [])
    (entries : List (String × Entry)) :
    remove (first :: rest) (.folder entries) =
      .folder (alterEntry first (fun old => old.map (remove rest)) entries) := by
  cases rest with
  | nil => exact absurd rfl hr
  | cons second rest =>
    rw [remove]
    simp

/-- Where a file lies below, there is a folder. -/
theorem exists_folder_of_look_cons {first : String} {rest : Location} {s : Sight}
    (h : top.look (first :: rest) = some s) :
    ∃ entries e, top = .folder entries ∧ entries.lookup first = some e ∧ e.look rest = some s := by
  cases top with
  | file bytes => simp at h
  | folder entries =>
    rw [look_folder_cons] at h
    obtain ⟨e, he, below⟩ := Option.bind_eq_some_iff.mp h
    exact ⟨entries, e, rfl, he, below⟩

/-- **A file that is removed** is seen no more, and all else is seen as before. -/
theorem look_remove (proper : top.isProper = true) {l : Location} (hl : l ≠ [])
    (file : top.look l = some (.file bytes)) (m : Location) :
    (remove l top).look m = if m = l then none else top.look m := by
  induction l generalizing top m with
  | nil => exact absurd rfl hl
  | cons first rest ih =>
    obtain ⟨entries, e, rfl, he, below⟩ := exists_folder_of_look_cons file
    rw [isProper] at proper
    cases rest with
    | nil =>
      obtain rfl : e = .file bytes := by simpa using look_eq_file.mp below
      rw [remove]
      cases m with
      | nil => simp [sight]
      | cons next m =>
        rw [look_folder_cons, lookup_alterEntry_of_allProper proper _ rfl, look_folder_cons]
        by_cases h : next = first
        · subst h
          cases m <;> simp [he]
        · simp [h]
    | cons second rest =>
      rw [remove_cons first (List.cons_ne_nil second rest)]
      cases m with
      | nil => simp [sight]
      | cons next m =>
        rw [look_folder_cons, lookup_alterEntry_of_allProper proper _ rfl, look_folder_cons]
        by_cases h : next = first
        · subst h
          have inner := (mem_of_allProper proper (mem_of_lookup he)).2
          rw [if_pos rfl, he, Option.map_some, Option.bind_some, Option.bind_some,
            ih inner (List.cons_ne_nil _ _) below m]
          simp
        · simp [h]

/-- **To remove a report** changes nothing of the bare tree. -/
theorem bare_remove {l : Location} (hn : isReportName name = true)
    (file : top.look (l ++ [name]) = some (.file bytes)) :
    (remove (l ++ [name]) top).bare = top.bare := by
  induction l generalizing top with
  | nil =>
    obtain ⟨entries, e, rfl, he, below⟩ := exists_folder_of_look_cons file
    obtain rfl : e = .file bytes := by simpa using look_eq_file.mp below
    rw [List.nil_append, remove, bare_folder, bare_folder,
      bareAll_alterEntry_report hn (fun _ _ hf => by cases hf) (by simp [he])]
  | cons first rest ih =>
    obtain ⟨entries, e, rfl, he, below⟩ := exists_folder_of_look_cons file
    rw [List.cons_append, remove_cons first (by simp), bare_folder, bare_folder,
      bareAll_alterEntry he rfl (ih below)]

end Remove

end Entry

namespace World

open Entry

/-- The world without what stands at a location. -/
def without (w : World) (place : Location) : World :=
  { w with top := Entry.remove place w.top }

section Without

variable {w : World} {p q : Path} {place l : Location} {s : Sight} {bytes : List UInt8}

/-- A file to which a named path leads can be written. -/
theorem Leads.writable (h : w.Leads p place (.file bytes)) (hp : p.parts ≠ []) :
    w.Writable p place := by
  obtain ⟨hn, front, rfl, parent⟩ := h.parent hp
  exact ⟨⟨hp, hn⟩, ⟨front, parent.locate, parent.look, rfl⟩, by simp [h.look]⟩

theorem Writable.ne_nil (h : w.Writable p place) : place ≠ [] := by
  obtain ⟨l, -, -, rfl⟩ := h.parent
  simp

variable (proper : w.top.isProper = true) (h : w.Writable p place)
  (file : w.top.look place = some (.file bytes))

include proper h file

theorem Writable.look_without (m : Location) :
    (w.without place).top.look m = if m = place then none else w.top.look m :=
  look_remove proper h.ne_nil file m

/-- A path that leads elsewhere still leads there. -/
theorem Writable.leads_without (hq : w.Leads q l s) (hl : l ≠ place) :
    (w.without place).Leads q l s := by
  have look := h.look_without proper file
  refine ⟨follow_of_look_eq (fun m hm => ?_) file hq.locate hl, ?_⟩
  · rw [look, if_neg hm]
  · rw [look, if_neg hl]
    exact hq.look

/-- The file can be written again. -/
theorem Writable.without : (w.without place).Writable p place := by
  obtain ⟨l, hl, hf, hplace⟩ := h.parent
  have away : l ≠ place := by
    rintro rfl
    rw [file] at hf
    cases hf
  have parent := h.leads_without proper file ⟨hl, hf⟩ away
  refine ⟨h.named, ⟨l, parent.locate, parent.look, hplace⟩, ?_⟩
  rw [h.look_without proper file, if_pos rfl]
  simp

end Without

end World

end ScriptSurvey
