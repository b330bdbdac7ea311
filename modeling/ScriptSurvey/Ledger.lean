/-!
# Ledgers

A ledger maps keys to values and remembers the order in which its keys first came. Writing to a
key that is there already keeps its place.
-/

namespace ScriptSurvey

/-- Keys with their values, in the order in which the keys first came. -/
abbrev Ledger (κ ν : Type) := List (κ × ν)

namespace Ledger

variable {κ ν : Type} [DecidableEq κ]

/-- The keys in order. -/
def keys (l : Ledger κ ν) : List κ :=
  l.map Prod.fst

/-- The value of a key. -/
def get? : Ledger κ ν → κ → Option ν
  | [], _ => none
  | (k, v) :: rest, key => if k = key then some v else get? rest key

/-- The ledger with the value of `key` replaced by what `f` makes of it; a new key comes last. -/
def alter (f : Option ν → ν) : Ledger κ ν → κ → Ledger κ ν
  | [], key => [(key, f none)]
  | (k, v) :: rest, key =>
    if k = key then (k, f (some v)) :: rest else (k, v) :: alter f rest key

/-- The ledger with `value` at `key`. -/
def put (l : Ledger κ ν) (key : κ) (value : ν) : Ledger κ ν :=
  l.alter (fun _ => value) key

/-- The ledger with `amount` added at `key`, from zero if the key is new. -/
def increase (l : Ledger κ Int) (key : κ) (amount : Int) : Ledger κ Int :=
  l.alter (fun old => old.getD 0 + amount) key

theorem keys_alter (f : Option ν → ν) (l : Ledger κ ν) (key : κ) :
    (alter f l key).keys = if key ∈ l.keys then l.keys else l.keys ++ [key] := by
  induction l with
  | nil => simp [alter, keys]
  | cons entry rest ih =>
    obtain ⟨k, v⟩ := entry
    by_cases h : k = key
    · simp [alter, keys, h]
    · have h' : key ≠ k := fun e => h e.symm
      simp only [keys, List.map_cons] at ih ⊢
      simp only [alter, h, if_false, List.map_cons, ih, List.mem_cons, h', false_or]
      split <;> simp_all

end Ledger

/-- The members of a list in order of their first occurrence, each once. -/
def distinct {α : Type} [DecidableEq α] : List α → List α
  | [] => []
  | a :: as => a :: (distinct as).filter (· ≠ a)

end ScriptSurvey
