import ScriptSurvey.Project.Decode
import ScriptSurvey.Project.Encode
import ScriptSurvey.Proofs.Json.RoundTrip

/-!
# Reports that are read back

Each kind of record is decoded from what it is encoded as, member by member (`ofJson?_toJson` of
each kind), and what it is encoded as can be read back from its text as long as its times are finite
(`fits_toJson`). So a report is read back from its text with every field of every record
(`Report.parse?_text`).
-/

namespace ScriptSurvey

open Json (Decoder whenObject required? optional? toText? toInt? toDouble? toList? toOption? Fits)

/-! ## Decoders -/

namespace Json

section Decoders

variable {α β : Type} {decoder : Decoder α} {encode : α → Json}

@[simp]
theorem whenObject_object (members : List (String × Json)) :
    whenObject decoder (.object members) = decoder (.object members) :=
  rfl

@[simp]
theorem required?_cons (key name : String) (value : Json) (members : List (String × Json)) :
    required? (.object ((key, value) :: members)) name decoder =
      if key = name then decoder value else required? (.object members) name decoder := by
  simp only [required?, member?, Ledger.get?]
  split_ifs <;> rfl

@[simp]
theorem optional?_cons (key name : String) (value : Json) (members : List (String × Json))
    (absent : α) :
    optional? (.object ((key, value) :: members)) name decoder absent =
      if key = name then decoder value else optional? (.object members) name decoder absent := by
  simp only [optional?, member?, Ledger.get?]
  split_ifs <;> rfl

@[simp]
theorem toText?_text (value : String) : toText? (.text value) = some value :=
  rfl

@[simp]
theorem toInt?_int (value : Int) : toInt? (.int value) = some value :=
  rfl

@[simp]
theorem toList?_map (h : ∀ a, decoder (encode a) = some a) (as : List α) :
    toList? decoder (.list (as.map encode)) = some as := by
  rw [toList?]
  induction as with
  | nil => rfl
  | cons a as ih =>
    rw [List.map_cons, List.mapM_cons, h, ih]
    rfl

@[simp]
theorem toList?_texts (values : List String) : toList? toText? (.texts values) = some values :=
  toList?_map toText?_text values

/-- Null is told apart from what is there, since nothing is encoded as null. -/
theorem toOption?_orNull (h : ∀ a, decoder (encode a) = some a) (hn : ∀ a, encode a ≠ .null)
    (a : Option α) : toOption? decoder (.orNull encode a) = some a := by
  cases a with
  | none => rfl
  | some a =>
    rw [orNull, toOption?, h]
    · rfl
    · exact fun he => absurd he (hn a)

/-- A member that is there is decoded, and the decoding goes on. -/
theorem required?_bind {object value : Json} {name : String} {f : α → Option β} {a : α} {b : β}
    (hv : object.member? name = some value) (hd : decoder value = some a) (hf : f a = some b) :
    (required? object name decoder >>= f) = some b := by
  rw [required?, hv, Option.bind_some, hd]
  exact hf

@[inherit_doc required?_bind]
theorem optional?_bind {object value : Json} {name : String} {absent : α} {f : α → Option β} {a : α}
    {b : β} (hv : object.member? name = some value) (hd : decoder value = some a)
    (hf : f a = some b) : (optional? object name decoder absent >>= f) = some b := by
  rw [optional?, hv]
  dsimp only
  rw [hd]
  exact hf

end Decoders

/-! ## What can be read back -/

section Fits

variable {α : Type} {depth : Nat} {encode : α → Json}

@[simp]
theorem fits_object {members : List (String × Json)} : Fits (depth + 1) (.object members) ↔
    (members.map Prod.fst).Nodup ∧ ∀ member ∈ members, Fits depth member.2 :=
  ⟨fun h => by cases h with | object differ all => exact ⟨differ, all⟩, fun h => .object h.1 h.2⟩

attribute [simp] Fits.text Fits.int

@[simp]
theorem fits_real {x : Double} : Fits depth (.real x) ↔ x.isFinite = true :=
  ⟨fun h => by cases h with | real finite => exact finite, .real⟩

@[simp]
theorem Fits.map (h : ∀ a, Fits depth (encode a)) (as : List α) :
    Fits (depth + 1) (.list (as.map encode)) :=
  .list (List.forall_mem_map.mpr fun a _ => h a)

@[simp]
theorem Fits.texts (values : List String) : Fits (depth + 1) (.texts values) :=
  .map .text values

@[simp]
theorem Fits.orNull (h : ∀ a, Fits depth (encode a)) (a : Option α) :
    Fits depth (.orNull encode a) := by
  cases a with
  | none => exact .null
  | some a => exact h a

end Fits

end Json

/-! ## Kinds of records -/

section Records

open Json (required?_bind optional?_bind toOption?_orNull toList?_map toList?_texts toText?_text)

variable {depth : Nat}

@[simp]
theorem Import.ofJson?_toJson (i : Import) : Import.ofJson? i.toJson = some i := by
  simp [Import.ofJson?, Import.toJson]

@[simp]
theorem Import.fits_toJson (i : Import) : Fits (depth + 2) i.toJson := by
  simp [Import.toJson]

@[simp]
theorem Issue.ofJson?_toJson (i : Issue) : Issue.ofJson? i.toJson = some i := by
  simp [Issue.ofJson?, Issue.toJson]

@[simp]
theorem Issue.fits_toJson (i : Issue) : Fits (depth + 1) i.toJson := by
  simp [Issue.toJson]

@[simp]
theorem Complexity.ofJson?_toJson (c : Complexity) : Complexity.ofJson? c.toJson = some c := by
  simp [Complexity.ofJson?, Complexity.toJson]

@[simp]
theorem Complexity.fits_toJson (c : Complexity) : Fits (depth + 1) c.toJson := by
  simp [Complexity.toJson]

@[simp]
theorem Metrics.ofJson?_toJson (m : Metrics) : Metrics.ofJson? m.toJson = some m := by
  simp [Metrics.ofJson?, Metrics.toJson]

@[simp]
theorem Metrics.fits_toJson (m : Metrics) : Fits (depth + 1) m.toJson := by
  simp [Metrics.toJson]

@[simp]
theorem StateUnit.ofJson?_toJson (s : StateUnit) : StateUnit.ofJson? s.toJson = some s := by
  simp [StateUnit.ofJson?, StateUnit.toJson]

@[simp]
theorem StateUnit.fits_toJson (s : StateUnit) : Fits (depth + 1) s.toJson := by
  simp [StateUnit.toJson]

@[simp]
theorem Transition.ofJson?_toJson (t : Transition) : Transition.ofJson? t.toJson = some t := by
  simp [Transition.ofJson?, Transition.toJson]

@[simp]
theorem Transition.fits_toJson (t : Transition) : Fits (depth + 1) t.toJson := by
  simp [Transition.toJson]

@[simp]
theorem Effect.ofJson?_toJson (e : Effect) : Effect.ofJson? e.toJson = some e := by
  simp [Effect.ofJson?, Effect.toJson]

@[simp]
theorem Effect.fits_toJson (e : Effect) : Fits (depth + 2) e.toJson := by
  simp [Effect.toJson]

@[simp]
theorem StateModel.ofJson?_toJson (m : StateModel) : StateModel.ofJson? m.toJson = some m := by
  simp [StateModel.ofJson?, StateModel.toJson]

@[simp]
theorem StateModel.fits_toJson (m : StateModel) : Fits (depth + 4) m.toJson := by
  simp [StateModel.toJson]

@[simp]
theorem Declared.ofJson?_toJson (d : Declared) : Declared.ofJson? d.toJson = some d := by
  simp [Declared.ofJson?, Declared.toJson]

@[simp]
theorem Declared.fits_toJson (d : Declared) : Fits (depth + 1) d.toJson := by
  simp [Declared.toJson]

@[simp]
theorem Edge.ofJson?_toJson (e : Edge) : Edge.ofJson? e.toJson = some e := by
  simp [Edge.ofJson?, Edge.toJson]

@[simp]
theorem Edge.fits_toJson (e : Edge) : Fits (depth + 1) e.toJson := by
  simp [Edge.toJson]

@[simp]
theorem Graph.ofJson?_toJson (g : Graph) : Graph.ofJson? g.toJson = some g := by
  simp [Graph.ofJson?, Graph.toJson]

@[simp]
theorem Graph.fits_toJson (g : Graph) : Fits (depth + 3) g.toJson := by
  simp [Graph.toJson]

@[simp]
theorem Record.ofJson?_toJson (r : Record) : Record.ofJson? r.toJson = some r := by
  have names := toOption?_orNull toList?_texts nofun
  refine required?_bind rfl rfl (required?_bind rfl rfl (optional?_bind rfl rfl ?_))
  refine optional?_bind rfl (toOption?_orNull toText?_text nofun r.error) ?_
  refine optional?_bind rfl rfl (optional?_bind rfl (names r.functions) ?_)
  refine optional?_bind rfl (names r.bindings) (optional?_bind rfl (names r.handlers) ?_)
  refine optional?_bind rfl (names r.components) (optional?_bind rfl (names r.hooks) ?_)
  refine optional?_bind rfl
    (toOption?_orNull (toList?_map Import.ofJson?_toJson) nofun r.imports) ?_
  refine optional?_bind rfl (names r.exports) ?_
  refine optional?_bind rfl (toOption?_orNull Complexity.ofJson?_toJson nofun r.complexity) ?_
  refine optional?_bind rfl
    (toOption?_orNull (toList?_map Issue.ofJson?_toJson) nofun r.issues) ?_
  refine optional?_bind rfl (toOption?_orNull Metrics.ofJson?_toJson nofun r.metrics) ?_
  refine optional?_bind rfl (toOption?_orNull StateModel.ofJson?_toJson nofun r.stateModel) ?_
  exact optional?_bind rfl (toOption?_orNull Graph.ofJson?_toJson nofun r.graph) rfl

theorem Record.fits_toJson {r : Record} (h : r.time.isFinite = true) :
    Fits (depth + 5) r.toJson := by
  simp [Record.toJson, h]

@[simp]
theorem Summary.ofJson?_toJson (s : Summary) : Summary.ofJson? s.toJson = some s := by
  have opened : ∀ decoder : Decoder Summary, whenObject decoder s.toJson = decoder s.toJson :=
    fun _ => rfl
  rw [Summary.ofJson?, opened]
  refine optional?_bind rfl rfl (optional?_bind rfl rfl (optional?_bind rfl rfl ?_))
  refine optional?_bind rfl rfl (optional?_bind rfl rfl (optional?_bind rfl rfl ?_))
  refine optional?_bind rfl rfl (optional?_bind rfl (toList?_texts s.hooks) ?_)
  refine optional?_bind rfl (toList?_texts s.importSources) ?_
  refine optional?_bind rfl rfl (optional?_bind rfl rfl (optional?_bind rfl rfl ?_))
  refine optional?_bind rfl rfl (optional?_bind rfl rfl (optional?_bind rfl rfl ?_))
  refine optional?_bind rfl rfl (optional?_bind rfl (Graph.ofJson?_toJson s.graph) ?_)
  refine optional?_bind rfl (toList?_map StateUnit.ofJson?_toJson s.states) ?_
  refine optional?_bind rfl (toList?_map Transition.ofJson?_toJson s.transitions) ?_
  exact optional?_bind rfl (toList?_map Effect.ofJson?_toJson s.effects) rfl

theorem Summary.fits_toJson {s : Summary} (h : s.totalTime.isFinite = true) :
    Fits (depth + 4) s.toJson := by
  simp [Summary.toJson, h]

theorem Report.ofJson?_toJson (r : Report) : Report.ofJson? r.toJson = some r := by
  simp [Report.ofJson?, Report.toJson]

end Records

/-! ## Texts of reports -/

namespace Report

/-- A report all of whose times are finite. -/
structure TimesFinite (r : Report) : Prop where
  files : ∀ f ∈ r.files, f.time.isFinite = true
  summary : r.summary.totalTime.isFinite = true

theorem fits_toJson {r : Report} (h : r.TimesFinite) (depth : Nat) : Fits (depth + 7) r.toJson := by
  have files : Fits (depth + 6) (.list (r.files.map (·.toJson))) :=
    .list (List.forall_mem_map.mpr fun f hf => Record.fits_toJson (h.files f hf))
  have summary : Fits (depth + 6) r.summary.toJson := Summary.fits_toJson h.summary
  simp [toJson, files, summary]

/-- Finite doubles of reports have texts that are read back. -/
theorem style_reads : style.Reads := by
  intro x hx rest hr
  cases x with
  | nan => cases hx
  | infinite negative => cases hx
  | finite negative mantissa exponent h => exact Json.scalar_write _ rfl hr

/-- **A report** is read back from its text. -/
theorem parse?_text {r : Report} (h : r.TimesFinite) : parse? r.text = some r := by
  have read : Json.read { depth := 200 } r.text = .ok r.toJson :=
    Json.read_write style_reads (fits_toJson h 193)
  rw [parse?, read]
  exact ofJson?_toJson r

end Report

end ScriptSurvey
