import Mathlib.Data.List.Induction
import Mathlib.Data.List.Nodup
import Mathlib.Data.List.TakeWhile
import ScriptSurvey.Ledger

/-!
# Histories

What a run leaves behind depends on what happened, in order. A history is a list here.

* `withPast` gives each member of a history together with those before it (`mem_withPast`), so that
  what counts until something happens can be counted (`countP_withPast`), and
  `getLast?_filter_eq_some_iff` says which member is the latest of a sort;
* `distinct` keeps the first occurrences (`firstOccurrences_distinct`); it may be applied in stages
  (`distinct_flatMap_distinct`), to some of the members (`distinct_filter`) and to a history in
  another order (`distinct_perm`);
* `Ledger.written` is the ledger that a history of writes leaves. Its keys are the distinct keys of
  the history (`keys_written`), and the value of a key is decided by the writes to that key alone
  (`get?_written`). A ledger is known by the two (`eq_filterMap_get?`).
-/

namespace ScriptSurvey

/-! ## Members with their past -/

section Past

variable {α : Type}

/-- Each member of a list, with the members before it. -/
def withPast (as : List α) : List (List α × α) :=
  as.zipIdx.map fun (a, i) => (as.take i, a)

theorem mem_withPast {as past : List α} {a : α} :
    (past, a) ∈ withPast as ↔ ∃ later, as = past ++ a :: later := by
  simp only [withPast, List.mem_map, Prod.mk.injEq, Prod.exists, List.mem_zipIdx_iff_getElem?]
  constructor
  · rintro ⟨b, i, hb, rfl, rfl⟩
    obtain ⟨hi, rfl⟩ := List.getElem?_eq_some_iff.mp hb
    exact ⟨as.drop (i + 1), by rw [← List.drop_eq_getElem_cons hi, List.take_append_drop]⟩
  · rintro ⟨later, rfl⟩
    exact ⟨a, past.length, by simp, by simp, rfl⟩

theorem withPast_append_singleton (as : List α) (a : α) :
    withPast (as ++ [a]) = withPast as ++ [(as, a)] := by
  rw [withPast, List.zipIdx_append, List.map_append]
  congr 1
  · refine List.map_congr_left fun (b, i) hb => ?_
    have hi : i < as.length := by simpa using List.snd_lt_of_mem_zipIdx hb
    simp only [List.take_append_of_le_length (Nat.le_of_lt hi)]
  · simp

/-- What does not look at the past may be taken of the members alone. -/
theorem filterMap_withPast {β : Type} (f : α → Option β) (as : List α) :
    ((withPast as).filterMap fun (_, a) => f a) = as.filterMap f := by
  induction as using List.reverseRecOn with
  | nil => rfl
  | append_singleton as a ih =>
    rw [withPast_append_singleton, List.filterMap_append, List.filterMap_append, ih]
    rfl

/-- A member with `q` of which all members before have `p` stands in the part at the start of the
list in which all have `p`. -/
theorem countP_withPast {p q : α → Bool} (h : ∀ a, q a → p a) (as : List α) :
    ((withPast as).countP fun (past, a) => q a && past.all p) = (as.takeWhile p).countP q := by
  induction as using List.reverseRecOn with
  | nil => rfl
  | append_singleton as a ih =>
    rw [withPast_append_singleton, List.countP_append, ih]
    cases hall : as.all p with
    | true =>
      have whole : as.takeWhile p = as := List.takeWhile_eq_self_iff.mpr (List.all_eq_true.mp hall)
      rw [List.takeWhile_append_of_pos (List.all_eq_true.mp hall), List.countP_append, whole]
      cases hq : q a with
      | true => simp [hq, hall, h a hq]
      | false => cases hp : p a <;> simp [hq, hp]
    | false =>
      -- a member without `p` has been met, so nothing more is taken
      have cut : (as ++ [a]).takeWhile p = as.takeWhile p := by
        rw [List.takeWhile_append, if_neg]
        intro hl
        have whole := (List.takeWhile_prefix p).eq_of_length hl
        rw [List.takeWhile_eq_self_iff, ← List.all_eq_true, hall] at whole
        cases whole
      simp [cut, hall]

/-- The last of the members with a property has none of them after it. -/
theorem getLast?_filter_eq_some_iff {p : α → Bool} {as : List α} {a : α} :
    (as.filter p).getLast? = some a ↔
      p a ∧ ∃ earlier later, as = earlier ++ a :: later ∧ ∀ b ∈ later, ¬ p b := by
  rw [List.getLast?_filter, List.find?_eq_some_iff_append]
  refine and_congr_right fun _ => ⟨?_, ?_⟩
  · rintro ⟨later, earlier, h, none_later⟩
    refine ⟨earlier.reverse, later.reverse, ?_, by simpa using none_later⟩
    rw [← as.reverse_reverse, h]
    simp
  · rintro ⟨earlier, later, rfl, none_later⟩
    exact ⟨later.reverse, earlier.reverse, by simp, by simpa using none_later⟩

@[simp] theorem getLast?_toList (o : Option α) : o.toList.getLast? = o := by
  cases o <;> rfl

/-- What the last member of several lists gives is decided by the last member of each. -/
theorem getLast?_flatMap_congr {ι β γ : Type} {is : List ι} {as : ι → List α} {bs : ι → List β}
    {f : α → γ} {g : β → γ} (h : ∀ i ∈ is, (as i).getLast?.map f = (bs i).getLast?.map g) :
    (is.flatMap as).getLast?.map f = (is.flatMap bs).getLast?.map g := by
  induction is with
  | nil => rfl
  | cons i is ih =>
    rw [List.flatMap_cons, List.flatMap_cons, List.getLast?_append, List.getLast?_append,
      Option.map_or, Option.map_or, h i (by simp), ih fun j hj => h j (by simp [hj])]

end Past

/-! ## Distinct members -/

section Distinct

variable {α : Type} [DecidableEq α]

@[simp] theorem mem_distinct {a : α} {as : List α} : a ∈ distinct as ↔ a ∈ as := by
  induction as with
  | nil => simp [distinct]
  | cons b as ih =>
    by_cases h : a = b
    · simp [distinct, h]
    · simp [distinct, h, ih]

theorem nodup_distinct (as : List α) : (distinct as).Nodup := by
  induction as with
  | nil => exact List.nodup_nil
  | cons a as ih =>
    rw [distinct, List.nodup_cons]
    exact ⟨by simp, ih.filter _⟩

/-- Of a list that comes later, the members count that are new. -/
theorem distinct_append (as bs : List α) :
    distinct (as ++ bs) = distinct as ++ (distinct bs).filter (· ∉ as) := by
  induction as with
  | nil => rw [List.nil_append, distinct, List.nil_append, List.filter_eq_self.mpr (by simp)]
  | cons a as ih =>
    rw [List.cons_append, distinct, distinct, ih, List.filter_append, List.filter_filter,
      List.cons_append]
    congr 2
    refine List.filter_congr fun b _ => ?_
    by_cases h : b = a <;> simp [h]

/-- A member that comes last is new or was there already. -/
theorem distinct_append_singleton (as : List α) (a : α) :
    distinct (as ++ [a]) = if a ∈ as then distinct as else distinct as ++ [a] := by
  rw [distinct_append]
  by_cases h : a ∈ as <;> simp [distinct, h]

theorem distinct_eq_self {as : List α} (h : as.Nodup) : distinct as = as := by
  induction as with
  | nil => rfl
  | cons a as ih =>
    obtain ⟨ha, hn⟩ := List.nodup_cons.mp h
    rw [distinct, ih hn, List.filter_eq_self.mpr]
    intro b hb
    have hne : b ≠ a := fun e => ha (e ▸ hb)
    simpa using hne

/-- The distinct members of several lists may be taken of each list first. -/
theorem distinct_flatMap_distinct {ι : Type} (is : List ι) (f : ι → List α) :
    distinct (is.flatMap fun i => distinct (f i)) = distinct (is.flatMap f) := by
  induction is with
  | nil => rfl
  | cons i is ih =>
    simp only [List.flatMap_cons, distinct_append, ih, distinct_eq_self (nodup_distinct _),
      mem_distinct]

theorem distinct_perm {as bs : List α} (h : as.Perm bs) : (distinct as).Perm (distinct bs) :=
  (List.perm_ext_iff_of_nodup (nodup_distinct as) (nodup_distinct bs)).mpr fun a => by
    simp only [mem_distinct, h.mem_iff]

/-- Which members are kept may be decided before or after. -/
theorem distinct_filter (p : α → Bool) (as : List α) :
    distinct (as.filter p) = (distinct as).filter p := by
  induction as with
  | nil => rfl
  | cons a as ih =>
    rw [List.filter_cons, distinct, List.filter_cons, List.filter_filter]
    cases hp : p a with
    | true =>
      rw [if_pos rfl, if_pos rfl, distinct, ih, List.filter_filter]
      simp only [Bool.and_comm]
    | false =>
      rw [if_neg Bool.false_ne_true, if_neg Bool.false_ne_true, ih]
      -- `a` itself is not kept, so that there is no need to drop it
      refine List.filter_congr fun b _ => ?_
      by_cases h : b = a
      · simp [h, hp]
      · simp [h]

theorem distinct_sublist (as : List α) : (distinct as).Sublist as := by
  induction as with
  | nil => exact .slnil
  | cons a as ih => exact (List.filter_sublist.trans ih).cons_cons a

theorem length_distinct_eq_iff {as : List α} : (distinct as).length = as.length ↔ as.Nodup := by
  constructor
  · intro h
    rw [← (distinct_sublist as).eq_of_length h]
    exact nodup_distinct as
  · intro h
    rw [distinct_eq_self h]

/-- A list has the members of another, each once, in the order in which they first occur there. -/
structure FirstOccurrences (as bs : List α) : Prop where
  nodup : bs.Nodup
  mem : ∀ a, a ∈ bs ↔ a ∈ as
  ordered : bs.Pairwise fun a b => as.idxOf a < as.idxOf b

theorem firstOccurrences_distinct (as : List α) : FirstOccurrences as (distinct as) where
  nodup := nodup_distinct as
  mem _ := mem_distinct
  ordered := by
    induction as with
    | nil => exact .nil
    | cons a as ih =>
      rw [distinct, List.pairwise_cons, List.pairwise_filter]
      refine ⟨fun b hb => ?_, ih.imp fun {b c} before hb hc => ?_⟩
      · have hne : b ≠ a := by simpa using (List.mem_filter.mp hb).2
        rw [List.idxOf_cons_self, List.idxOf_cons_ne _ hne.symm]
        exact Nat.succ_pos _
      · rw [decide_eq_true_eq] at hb hc
        rw [List.idxOf_cons_ne _ hb.symm, List.idxOf_cons_ne _ hc.symm]
        exact Nat.succ_lt_succ before

/-- There is one such list. -/
theorem FirstOccurrences.eq_distinct {as bs : List α} (h : FirstOccurrences as bs) :
    bs = distinct as := by
  have other := firstOccurrences_distinct as
  refine List.Perm.eq_of_pairwise (fun a b _ _ before after => ?_) h.ordered other.ordered
    ((List.perm_ext_iff_of_nodup h.nodup other.nodup).mpr fun a => by rw [h.mem, other.mem])
  exact absurd (Nat.lt_trans before after) (Nat.lt_irrefl _)

/-- Of what is made of distinct keys, each thing under its own key, one thing stands under a key. -/
theorem filter_filterMap_eq {β : Type} {ks : List α} (hn : ks.Nodup) {f : α → Option β}
    {key : β → α} (under : ∀ k b, f k = some b → key b = k) (k : α) :
    (ks.filterMap f).filter (key · = k) = if k ∈ ks then (f k).toList else [] := by
  induction ks with
  | nil => rfl
  | cons k₁ ks ih =>
    obtain ⟨hk₁, hn⟩ := List.nodup_cons.mp hn
    by_cases h : k₁ = k
    · subst h
      cases hf : f k₁ with
      | none => simp [hf, ih hn, hk₁]
      | some b => simp [hf, ih hn, hk₁, under k₁ b hf]
    · cases hf : f k₁ with
      | none => simp [hf, ih hn, Ne.symm h]
      | some b => simp [hf, ih hn, under k₁ b hf, h, Ne.symm h]

end Distinct

namespace Ledger

variable {κ ν α : Type} [DecidableEq κ]

/-! ## Look-up after a write -/

theorem get?_alter (f : Option ν → ν) (l : Ledger κ ν) (key k : κ) :
    (alter f l key).get? k = if k = key then some (f (l.get? key)) else l.get? k := by
  induction l with
  | nil =>
    simp only [alter, get?]
    by_cases h : key = k
    · simp [h]
    · simp [h, Ne.symm h]
  | cons entry rest ih =>
    obtain ⟨k₁, v⟩ := entry
    by_cases h₁ : k₁ = key
    · subst h₁
      by_cases hk : k₁ = k
      · simp [alter, get?, hk]
      · simp [alter, get?, hk, Ne.symm hk]
    · by_cases hk : k₁ = k
      · subst hk
        simp [alter, get?, h₁]
      · simp [alter, get?, h₁, hk, ih]

/-- A ledger whose keys are distinct is known by its keys and by the value of each. -/
theorem eq_filterMap_get? {l : Ledger κ ν} (hn : l.keys.Nodup) :
    l = l.keys.filterMap fun k => (l.get? k).map (k, ·) := by
  induction l with
  | nil => rfl
  | cons entry rest ih =>
    obtain ⟨k, v⟩ := entry
    obtain ⟨hk, hn⟩ := List.nodup_cons.mp hn
    have later :
        ((keys rest).filterMap fun k' => (get? ((k, v) :: rest) k').map (k', ·)) = rest := by
      refine Eq.trans (List.filterMap_congr fun k' hk' => ?_) (ih hn).symm
      have hne : k ≠ k' := fun e => hk (e ▸ hk')
      rw [get?, if_neg hne]
    have first : get? ((k, v) :: rest) k = some v := if_pos rfl
    show (k, v) :: rest = List.filterMap _ (k :: keys rest)
    rw [List.filterMap_cons_some (by rw [first]; rfl), later]

theorem get?_map (value : κ → ν) (ks : List κ) (k : κ) :
    get? (ks.map fun k => (k, value k)) k = if k ∈ ks then some (value k) else none := by
  induction ks with
  | nil => rfl
  | cons k₁ ks ih =>
    rw [List.map_cons, get?, ih]
    by_cases h : k₁ = k
    · subst h
      simp
    · simp [h, Ne.symm h]

/-! ## Histories of writes -/

/-- The ledger that is left when each member of a history has written to its key. -/
def written (f : α → Option ν → ν) (key : α → κ) (as : List α) : Ledger κ ν :=
  as.foldl (fun l a => l.alter (f a) (key a)) []

theorem written_append_singleton (f : α → Option ν → ν) (key : α → κ) (as : List α) (a : α) :
    written f key (as ++ [a]) = (written f key as).alter (f a) (key a) := by
  simp [written]

theorem keys_written (f : α → Option ν → ν) (key : α → κ) (as : List α) :
    (written f key as).keys = distinct (as.map key) := by
  induction as using List.reverseRecOn with
  | nil => rfl
  | append_singleton as a ih =>
    rw [written_append_singleton, keys_alter, ih, List.map_append, List.map_singleton,
      distinct_append_singleton]
    simp only [mem_distinct]

/-- **The value of a key** is what the writes to it make of each other, the first starting from
nothing. -/
theorem get?_written (f : α → Option ν → ν) (key : α → κ) (as : List α) (k : κ) :
    (written f key as).get? k =
      (as.filter (key · = k)).foldl (fun value a => some (f a value)) none := by
  induction as using List.reverseRecOn with
  | nil => rfl
  | append_singleton as a ih =>
    rw [written_append_singleton, get?_alter, List.filter_append, List.foldl_append]
    by_cases h : key a = k
    · subst h
      simp [ih]
    · simp [ih, h, Ne.symm h]

/-- A key that each write decides anew has the value of the last write to it. -/
theorem get?_written_const (value : α → ν) (key : α → κ) (as : List α) (k : κ) :
    (written (fun a _ => value a) key as).get? k =
      (as.filter (key · = k)).getLast?.map value := by
  rw [get?_written]
  induction as.filter (key · = k) using List.reverseRecOn with
  | nil => rfl
  | append_singleton as a _ => simp

/-- **A history of writes leaves** its distinct keys, with the value of each. -/
theorem written_eq_filterMap (f : α → Option ν → ν) (key : α → κ) (as : List α) :
    written f key as =
      (distinct (as.map key)).filterMap fun k => ((written f key as).get? k).map (k, ·) := by
  have hk := keys_written f key as
  have hn : (written f key as).keys.Nodup := hk ▸ nodup_distinct _
  rw [← hk]
  exact eq_filterMap_get? hn

theorem written_eq_map (f : α → Option ν → ν) (key : α → κ) (as : List α) (value : κ → ν)
    (h : ∀ k ∈ as.map key, (written f key as).get? k = some (value k)) :
    written f key as = (distinct (as.map key)).map fun k => (k, value k) := by
  rw [written_eq_filterMap, List.filterMap_eq_map_iff_forall_eq_some]
  intro k hk
  rw [h k (mem_distinct.mp hk)]
  rfl

/-- A history of keys whose values follow from the keys. -/
theorem written_id_eq_map (value : κ → ν) (ks : List κ) :
    written (fun k _ => value k) id ks = (distinct ks).map fun k => (k, value k) := by
  rw [written_eq_map _ id ks value, List.map_id]
  intro k hk
  have hne : ks.filter (id · = k) ≠ [] :=
    List.ne_nil_of_mem (List.mem_filter.mpr ⟨by simpa using hk, by simp⟩)
  have hlast : (ks.filter (id · = k)).getLast hne = k := by
    simpa using (List.mem_filter.mp (List.getLast_mem hne)).2
  rw [get?_written_const, List.getLast?_eq_some_getLast hne, hlast]
  rfl

/-! ## Counting -/

/-- The distinct members of a list, each with the number of its occurrences. -/
def counts (ks : List κ) : Ledger κ Int :=
  (distinct ks).map fun k => (k, (ks.countP (· = k) : Int))

/-- **Counting the members of a history one by one** gives the number of occurrences of each. -/
theorem written_increase_eq_counts (ks : List κ) :
    written (fun _ old => old.getD 0 + 1) id ks = counts ks := by
  have tallied : ∀ as : List κ, as.foldl (fun value _ => some (value.getD 0 + 1)) none =
      if as = [] then none else some (as.length : Int) := by
    intro as
    induction as using List.reverseRecOn with
    | nil => rfl
    | append_singleton as a ih =>
      rw [List.foldl_append, ih]
      by_cases h : as = [] <;> simp [h]
  rw [written_eq_map _ id ks fun k => (ks.countP (· = k) : Int), List.map_id, counts]
  intro k hk
  have hne : ks.filter (id · = k) ≠ [] :=
    List.ne_nil_of_mem (List.mem_filter.mpr ⟨by simpa using hk, by simp⟩)
  rw [get?_written, tallied, if_neg hne, List.countP_eq_length_filter]
  rfl

end Ledger

end ScriptSurvey
