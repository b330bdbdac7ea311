import Mathlib.Data.List.Forall2
import ScriptSurvey.Proofs.Archive.Reading
import ScriptSurvey.Proofs.Project.Scan
import ScriptSurvey.Proofs.Service.Requests

/-!
# Archives that cannot be read

The sources of an archive are read one after the other, until something is wrong. `Outcome` says
what comes of it: all sources, none because the archive cannot be opened, none because its directory
cannot be read, or those before the first member that cannot be read. Only an archive that cannot be
opened is reported as such, and only for it a request for a scan is refused; in the other cases the
fault of the archive passes through, and the request fails (`ofArchive_outcome`).
-/

namespace ScriptSurvey

open Archive (Member Reader)

namespace Source

/-- Whether a member of an archive is a source of it. -/
def wants (m : Member) : Bool :=
  !m.isDirectory && isAnalyzable m.name

/-- The source of a member that can be read. -/
def OfMember (reader : Reader) (bytes : List UInt8) (m : Member) (source : Source) : Prop :=
  ∃ content, m.Intact reader bytes content ∧ source = ⟨m.name, decodeSource content⟩

section Members

variable {reader : Reader} {bytes : List UInt8} {members : List Member} {sources : List Source}

theorem ofMembers_cons (reader : Reader) (bytes : List UInt8) (m : Member) (rest : List Member) :
    ofMembers reader bytes (m :: rest) =
      if wants m then
        match Archive.read reader bytes m with
        | .error fault => ([], some (archiveFault fault))
        | .ok content =>
          (⟨m.name, decodeSource content⟩ :: (ofMembers reader bytes rest).1,
            (ofMembers reader bytes rest).2)
      else ofMembers reader bytes rest := by
  rw [ofMembers, wants]
  cases m.isDirectory <;> cases isAnalyzable m.name <;> rfl

/-- A fault of a member passes through. -/
theorem archiveFault_of_read {m : Member} {fault : Archive.Fault}
    (h : Archive.read reader bytes m = .error fault) : archiveFault fault = .archive fault := by
  cases fault with
  | unopenable opening => exact absurd h (Archive.confined_read reader bytes m opening)
  | _ => rfl

/-- Behind members whose sources can be read, reading goes on. -/
theorem ofMembers_append (rest : List Member)
    (h : List.Forall₂ (OfMember reader bytes) (members.filter wants) sources) :
    ofMembers reader bytes (members ++ rest) =
      (sources ++ (ofMembers reader bytes rest).1, (ofMembers reader bytes rest).2) := by
  induction members generalizing sources with
  | nil =>
    cases h
    rfl
  | cons m members ih =>
    rw [List.cons_append, ofMembers_cons]
    by_cases wanted : wants m = true
    · rw [List.filter_cons_of_pos wanted] at h
      obtain ⟨source, others, ⟨content, intact, rfl⟩, below, rfl⟩ := List.forall₂_cons_left_iff.mp h
      rw [if_pos wanted, Archive.read_eq_ok_iff.mpr intact, ih below]
      rfl
    · rw [List.filter_cons_of_neg wanted] at h
      rw [if_neg wanted, ih h]

/-- The sources of all members can be read, or there is a first one that cannot. -/
theorem exists_unreadable (reader : Reader) (bytes : List UInt8) (members : List Member) :
    (∃ sources, List.Forall₂ (OfMember reader bytes) (members.filter wants) sources) ∨
      ∃ before m after sources fault, members = before ++ m :: after ∧
        List.Forall₂ (OfMember reader bytes) (before.filter wants) sources ∧ wants m = true ∧
        Archive.read reader bytes m = .error fault := by
  induction members with
  | nil => exact .inl ⟨[], .nil⟩
  | cons m members ih =>
    by_cases wanted : wants m = true
    · cases hr : Archive.read reader bytes m with
      | error fault => exact .inr ⟨[], m, members, [], fault, rfl, .nil, wanted, hr⟩
      | ok content =>
        have first : OfMember reader bytes m ⟨m.name, decodeSource content⟩ :=
          ⟨content, Archive.read_eq_ok_iff.mp hr, rfl⟩
        obtain ⟨sources, h⟩ | ⟨before, bad, after, sources, fault, rfl, h, rest⟩ := ih
        · exact .inl ⟨_ :: sources, by rw [List.filter_cons_of_pos wanted]; exact .cons first h⟩
        · exact .inr ⟨m :: before, bad, after, _ :: sources, fault, rfl,
            by rw [List.filter_cons_of_pos wanted]; exact .cons first h, rest⟩
    · obtain ⟨sources, h⟩ | ⟨before, bad, after, sources, fault, rfl, h, rest⟩ := ih
      · exact .inl ⟨sources, by rwa [List.filter_cons_of_neg wanted]⟩
      · exact .inr ⟨m :: before, bad, after, sources, fault, rfl,
          by rwa [List.filter_cons_of_neg wanted], rest⟩

end Members

/-- What comes of reading the sources of an archive: those that were read, and what went wrong. -/
inductive Outcome (reader : Reader) (bytes : List UInt8) : List Source → Option SourceFault → Prop
  /-- The sources of all members that are wanted, in the order of the directory. -/
  | complete {members : List Member} {sources : List Source}
      (lists : Archive.Lists reader bytes members)
      (read : List.Forall₂ (OfMember reader bytes) (members.filter wants) sources) :
      Outcome reader bytes sources none
  /-- The archive cannot be opened. -/
  | unopened {fault : Archive.OpenFault}
      (broken : Archive.Broken reader bytes (.unopenable fault)) :
      Outcome reader bytes [] (some (.unopened fault.message))
  /-- The directory has a name that is no text, or a version that is not known. -/
  | unlisted {fault : Archive.Fault} (broken : Archive.Broken reader bytes fault)
      (other : ∀ opening, fault ≠ .unopenable opening) :
      Outcome reader bytes [] (some (.archive fault))
  /-- A member that is wanted cannot be read; the sources of those before it were. -/
  | unread {before after : List Member} {m : Member} {sources : List Source}
      {fault : Archive.Fault} (lists : Archive.Lists reader bytes (before ++ m :: after))
      (read : List.Forall₂ (OfMember reader bytes) (before.filter wants) sources)
      (wanted : wants m = true) (spoiled : Archive.read reader bytes m = .error fault) :
      Outcome reader bytes sources (some (.archive fault))

theorem Outcome.ofArchive_eq {reader : Reader} {bytes : List UInt8} {sources : List Source}
    {fault : Option SourceFault} (h : Outcome reader bytes sources fault) :
    ofArchive reader bytes = (sources, fault) := by
  cases h with
  | @complete members _ lists read =>
    have whole := ofMembers_append [] read
    rw [List.append_nil] at whole
    rw [ofArchive, Archive.contents_eq_ok_iff.mpr lists]
    dsimp only
    rw [whole, ofMembers, List.append_nil]
  | unopened broken =>
    rw [ofArchive, Archive.contents_eq_error_iff.mpr broken]
    rfl
  | @unlisted fault broken other =>
    rw [ofArchive, Archive.contents_eq_error_iff.mpr broken]
    cases fault with
    | unopenable opening => exact absurd rfl (other opening)
    | _ => rfl
  | unread lists read wanted spoiled =>
    rw [ofArchive, Archive.contents_eq_ok_iff.mpr lists]
    dsimp only
    rw [ofMembers_append _ read, ofMembers_cons, if_pos wanted, spoiled]
    dsimp only
    rw [archiveFault_of_read spoiled, List.append_nil]

theorem exists_outcome (reader : Reader) (bytes : List UInt8) :
    ∃ sources fault, Outcome reader bytes sources fault := by
  cases opened : Archive.contents reader bytes with
  | error fault =>
    have broken := Archive.contents_eq_error_iff.mp opened
    by_cases frame : ∃ opening, fault = .unopenable opening
    · obtain ⟨opening, rfl⟩ := frame
      exact ⟨_, _, .unopened broken⟩
    · exact ⟨_, _, .unlisted broken fun opening h => frame ⟨opening, h⟩⟩
  | ok members =>
    have lists := Archive.contents_eq_ok_iff.mp opened
    obtain ⟨sources, read⟩ | ⟨before, m, after, sources, fault, rfl, read, wanted, spoiled⟩ :=
      exists_unreadable reader bytes members
    · exact ⟨_, _, .complete lists read⟩
    · exact ⟨_, _, .unread lists read wanted spoiled⟩

theorem ofArchive_eq_iff {reader : Reader} {bytes : List UInt8} {sources : List Source}
    {fault : Option SourceFault} :
    ofArchive reader bytes = (sources, fault) ↔ Outcome reader bytes sources fault := by
  refine ⟨fun h => ?_, Outcome.ofArchive_eq⟩
  obtain ⟨others, other, outcome⟩ := exists_outcome reader bytes
  cases outcome.ofArchive_eq.symm.trans h
  exact outcome

end Source

/-! ## Requests -/

namespace Service

/-- The sources at a path to an archive are those of the archive, if they can all be read. -/
theorem atPath_archive {w : World} {p : Path} {l : Location} {bytes : List UInt8}
    (leads : w.Leads p l (.file bytes)) (suffix : Text.lower p.suffix = ".zip") :
    Source.atPath w p = Source.allOfArchive w.reader bytes := by
  rw [Source.atPath, if_neg (leads.isFolder_iff.not.mpr (by simp)), if_pos suffix, leads.read]

theorem respond_of_outcome {w : World} {request : Request} {l : Location} {bytes : List UInt8}
    {sources : List Source} {fault : SourceFault} (scans : request.Scans w)
    (leads : w.Leads (target w request.path) l (.file bytes))
    (suffix : Text.lower (target w request.path).suffix = ".zip")
    (outcome : Source.Outcome w.reader bytes sources (some fault)) :
    (respond w request).response = .ofScanFault (.source fault) := by
  have scanned : (scanPath w 1 (target w request.path)).value = .error (.source fault) := by
    rw [scanPath_value, atPath_archive leads suffix, Source.allOfArchive, outcome.ofArchive_eq]
  rw [respond_of_scans scans (World.pathExists_iff.mpr ⟨l, _, leads⟩), refresh_of_fault scanned]

/-- **What comes of an archive.** Reading its sources has the outcome that its bytes say. A request
for a scan of it is refused if the archive cannot be opened; if anything else is wrong with it, the
request fails. -/
theorem ofArchive_outcome (bytes : List UInt8) :
    (∀ reader sources fault,
      Source.ofArchive reader bytes = (sources, fault) ↔
        Source.Outcome reader bytes sources fault) ∧
    ∀ {w : World} {request : Request} {l : Location}, request.Scans w →
      w.Leads (target w request.path) l (.file bytes) →
      Text.lower (target w request.path).suffix = ".zip" →
      (∀ sources reason, Source.Outcome w.reader bytes sources (some (.unopened reason)) →
        (respond w request).response =
          .refusal 400 ("Could not open zip archive: " ++ reason)) ∧
      ∀ sources fault, Source.Outcome w.reader bytes sources (some (.archive fault)) →
        (respond w request).response = .internal := by
  refine ⟨fun reader sources fault => Source.ofArchive_eq_iff,
    fun {w request l} scans leads suffix => ?_⟩
  constructor
  · intro sources reason outcome
    exact respond_of_outcome scans leads suffix outcome
  · intro sources fault outcome
    exact respond_of_outcome scans leads suffix outcome

/-- An archive of two scripts, of which the second was changed after its checksum was taken. -/
def damagedArchive : List UInt8 :=
  [80, 75, 3, 4, 20, 0, 0, 0, 0, 0, 0, 0, 33, 0, 131, 22, 220, 140, 1, 0, 0, 0, 1, 0, 0, 0, 4, 0, 0,
   0, 97, 46, 106, 115, 120,
   80, 75, 3, 4, 20, 0, 0, 0, 0, 0, 0, 0, 33, 0, 21, 38, 219, 251, 1, 0, 0, 0, 1, 0, 0, 0, 4, 0, 0,
   0, 98, 46, 106, 115, 122,
   80, 75, 1, 2, 20, 0, 20, 0, 0, 0, 0, 0, 0, 0, 33, 0, 131, 22, 220, 140, 1, 0, 0, 0, 1, 0, 0, 0, 4,
   0, 0, 0, 0, 0, 0, 0, 0, 0, 0, 0, 128, 1, 0, 0, 0, 0, 97, 46, 106, 115,
   80, 75, 1, 2, 20, 0, 20, 0, 0, 0, 0, 0, 0, 0, 33, 0, 21, 38, 219, 251, 1, 0, 0, 0, 1, 0, 0, 0, 4,
   0, 0, 0, 0, 0, 0, 0, 0, 0, 0, 0, 128, 1, 35, 0, 0, 0, 98, 46, 106, 115,
   80, 75, 5, 6, 0, 0, 0, 0, 2, 0, 2, 0, 100, 0, 0, 0, 70, 0, 0, 0, 0, 0]

theorem ofArchive_damaged : Source.ofArchive .file damagedArchive =
    ([⟨"a.js", "x"⟩], some (.archive (.checksum "b.js"))) := by
  let first : Member :=
    { name := "a.js", writtenName := "a.js", flags := 0, method := 0, checksum := 2363233923,
      packedSize := 1, size := 1, permissions := 25165824, place := 0, limit := 35 }
  let second : Member :=
    { first with
      name := "b.js", writtenName := "b.js", checksum := 4225443349, place := 35, limit := 70 }
  have framed : Archive.Framed .file damagedArchive 70 100 0 := ⟨70, by decide +kernel, rfl⟩
  have described : Archive.members 0 100 101 0 (Archive.slice damagedArchive 70 100) =
      .ok ([first, second].map ({ · with limit := 0 })) := by decide +kernel
  have opened : Archive.contents .file damagedArchive = .ok [first, second] := by
    rw [framed.contents_eq, described]
    exact congrArg Except.ok (by cbv)
  have whole : Archive.read .file damagedArchive first = .ok [120] := by decide +kernel
  have changed : Archive.read .file damagedArchive second = .error (.checksum "b.js") := by
    decide +kernel
  rw [Source.ofArchive, opened]
  dsimp only
  rw [Source.ofMembers_cons, if_pos (by decide +kernel), whole, Source.ofMembers_cons,
    if_pos (by decide +kernel), changed]
  rfl

/-- A damaged archive: the script before the damage is read, and a scan fails. -/
theorem ofArchive_outcome_damaged :
    let w : World := { top := .folder [("p.zip", .file damagedArchive)] }
    let request : Request :=
      { method := "POST", url := "/api/analysis/refresh", path := some "p.zip" }
    Source.Outcome w.reader damagedArchive [⟨"a.js", "x"⟩]
        (some (.archive (.checksum "b.js"))) ∧
      (respond w request).response = .internal := by
  intro w request
  obtain ⟨outcomes, requests⟩ := ofArchive_outcome damagedArchive
  have outcome := (outcomes _ _ _).mp ofArchive_damaged
  have scans : request.Scans w := ⟨.refresh, by decide, by decide +kernel, .inl rfl⟩
  exact ⟨outcome, (requests scans (l := ["p.zip"]) ⟨rfl, rfl⟩ (by decide +kernel)).2 _ _ outcome⟩

/-- A damaged archive is not reported as one that cannot be opened, and the request for a scan of it
is not refused. -/
theorem respond_to_damaged :
    let w : World := { top := .folder [("p.zip", .file damagedArchive)] }
    let request : Request :=
      { method := "POST", url := "/api/analysis/refresh", path := some "p.zip" }
    (∃ fault, (Source.ofArchive w.reader damagedArchive).2 = some fault ∧
      ∀ reason, fault ≠ .unopened reason) ∧
    (respond w request).response.status = 500 := by
  intro w request
  refine ⟨⟨.archive (.checksum "b.js"), ?_, by simp⟩, ?_⟩
  · rw [ofArchive_damaged]
  · have scans : request.Scans w := ⟨.refresh, by decide, by decide +kernel, .inl rfl⟩
    rw [respond_of_outcome scans (l := ["p.zip"]) ⟨rfl, rfl⟩ (by decide +kernel)
      (Source.ofArchive_eq_iff.mp ofArchive_damaged)]
    rfl

end Service

end ScriptSurvey
