import ScriptSurvey.Survey.Scope

/-!
# Runs of a scope

A run makes any moves in any order. Its log has each move with the answer it got.

* `depth_after`: the declarations that are open after a run are those entered less those left, so
  no more are left than were entered;
* `move_leave_zero` and `move_leave_succ`: to leave fails exactly where no declaration is open;
* `Paired.restores`: a run in which every declaration entered is left with the name that entering
  it gave back ends in the scope it started from. The scope has no stack of names; the log has.
-/

namespace ScriptSurvey.Scope

/-- The scope before any move, outside every declaration. -/
def start (initial : String) : Scope :=
  { current := initial }

/-- The scope after some moves. -/
def after (s : Scope) (moves : List ScopeMove) : Scope :=
  moves.foldl (fun s move => (s.move move).2) s

/-- The moves of a run, each with its answer. -/
def log (s : Scope) : List ScopeMove → List (ScopeMove × ScopeAnswer)
  | [] => []
  | move :: moves => (move, (s.move move).1) :: (s.move move).2.log moves

/-- Whether an entry of a log enters a declaration. -/
def entered (entry : ScopeMove × ScopeAnswer) : Bool :=
  entry.1 matches .enter _

/-- Whether an entry of a log leaves a declaration, and does not fail to. -/
def left (entry : ScopeMove × ScopeAnswer) : Bool :=
  entry.1 matches .leave _ && entry.2.isOk

/-- A log in which the moves are nested as brackets are, and each declaration is left with the name
that entering it gave back. Nothing is said of what the leaves answer. -/
inductive Paired : List (ScopeMove × ScopeAnswer) → Prop
  | nil : Paired []
  | block {name previous : String} {answer : ScopeAnswer}
      {inner rest : List (ScopeMove × ScopeAnswer)} :
      Paired inner → Paired rest →
      Paired ((.enter name, .ok (some previous)) :: inner ++ (.leave previous, answer) :: rest)

/-! ## Runs in parts -/

@[simp] theorem after_nil (s : Scope) : s.after [] = s := rfl

@[simp] theorem after_cons (s : Scope) (move : ScopeMove) (moves : List ScopeMove) :
    s.after (move :: moves) = (s.move move).2.after moves := rfl

theorem after_append (s : Scope) (moves later : List ScopeMove) :
    s.after (moves ++ later) = (s.after moves).after later :=
  List.foldl_append

theorem log_append (s : Scope) (moves later : List ScopeMove) :
    s.log (moves ++ later) = s.log moves ++ (s.after moves).log later := by
  induction moves generalizing s with
  | nil => rfl
  | cons move moves ih => simp only [List.cons_append, log, after_cons, ih]

@[simp] theorem map_fst_log (s : Scope) (moves : List ScopeMove) :
    (s.log moves).map Prod.fst = moves := by
  induction moves generalizing s with
  | nil => rfl
  | cons move moves ih => simp only [log, List.map_cons, ih]

theorem length_log (s : Scope) (moves : List ScopeMove) :
    (s.log moves).length = moves.length := by
  rw [← List.length_map Prod.fst, map_fst_log]

/-! ## One move -/

theorem move_enter (s : Scope) (name : String) :
    s.move (.enter name) = (.ok (some s.current), { current := name, depth := s.depth + 1 }) := rfl

theorem move_leave_zero {s : Scope} (h : s.depth = 0) (previous : String) :
    s.move (.leave previous) = (.error .unmatchedLeave, s) := by
  simp only [move, leave, h]

theorem move_leave_succ {s : Scope} {depth : Nat} (h : s.depth = depth + 1) (previous : String) :
    s.move (.leave previous) = (.ok none, { current := previous, depth }) := by
  simp only [move, leave, h]

/-- A leave fails exactly where no declaration is open. -/
theorem isOk_move_leave (s : Scope) (previous : String) :
    (s.move (.leave previous)).1.isOk = false ↔ s.depth = 0 := by
  cases h : s.depth with
  | zero => simp [move_leave_zero h, Except.isOk, Except.toBool]
  | succ depth => simp [move_leave_succ h, Except.isOk, Except.toBool]

theorem depth_move (s : Scope) (move : ScopeMove) :
    (s.move move).2.depth + [(move, (s.move move).1)].countP left =
      s.depth + [(move, (s.move move).1)].countP entered := by
  cases move with
  | enter name => rfl
  | leave previous =>
    cases h : s.depth with
    | zero => rw [move_leave_zero h, h]; rfl
    | succ depth => rw [move_leave_succ h]; rfl

/-! ## Whole runs -/

/-- The declarations that are open, and those that were left, are those that were open at the start
and those that were entered. -/
theorem depth_after (s : Scope) (moves : List ScopeMove) :
    (s.after moves).depth + (s.log moves).countP left =
      s.depth + (s.log moves).countP entered := by
  induction moves generalizing s with
  | nil => rfl
  | cons move moves ih =>
    have first := depth_move s move
    have rest := ih (s.move move).2
    rw [log, after_cons, ← List.singleton_append, List.countP_append, List.countP_append]
    omega

/-- To enter a declaration, come back to its scope and leave it with the name that was given is to
do nothing. -/
theorem after_block {s : Scope} {name : String} {inner : List ScopeMove}
    (back : (s.move (.enter name)).2.after inner = (s.move (.enter name)).2)
    (later : List ScopeMove) :
    s.after (.enter name :: inner ++ .leave s.current :: later) = s.after later := by
  rw [List.cons_append, after_cons, after_append, back, after_cons, move_enter,
    move_leave_succ rfl]

/-- **A run that is paired restores the scope**, and none of its moves fails. -/
theorem Paired.restores {entries : List (ScopeMove × ScopeAnswer)} (paired : Paired entries)
    {s : Scope} (run : s.log (entries.map Prod.fst) = entries) :
    s.after (entries.map Prod.fst) = s ∧ ∀ entry ∈ entries, entry.2.isOk := by
  induction paired generalizing s with
  | nil => exact ⟨rfl, by simp⟩
  | @block name previous answer inner rest _ _ ihInner ihRest =>
    simp only [List.map_append, List.map_cons, List.cons_append, log, log_append,
      List.cons.injEq, Prod.mk.injEq, true_and] at run
    obtain ⟨given, run⟩ := run
    obtain rfl : s.current = previous := by simpa [move_enter] using given
    obtain ⟨runInner, runRest⟩ := List.append_inj run (by rw [length_log, List.length_map])
    obtain ⟨back, okInner⟩ := ihInner runInner
    -- the inner run comes back to one declaration more than are open in `s`, so the leave goes well
    rw [back, move_enter, move_leave_succ rfl] at runRest
    simp only [List.cons.injEq, Prod.mk.injEq, true_and] at runRest
    obtain ⟨rfl, runRest⟩ := runRest
    obtain ⟨backRest, okRest⟩ := ihRest runRest
    constructor
    · rw [List.map_append, List.map_cons, List.map_cons, after_block back]
      exact backRest
    · intro entry mem
      simp only [List.cons_append, List.mem_cons, List.mem_append] at mem
      obtain rfl | mem | rfl | mem := mem
      · rfl
      · exact okInner entry mem
      · rfl
      · exact okRest entry mem

/-- **Scopes along a run.** After any moves, as many declarations are open as were entered and not
left, and to leave one more fails exactly when none is open, which changes nothing. Moves that are
paired, from whatever scope, do not fail and end in the scope they started from. -/
theorem balanced_runs (initial : String) :
    (∀ moves,
      (((start initial).after moves).depth : Int) =
        ((start initial).log moves).countP entered - ((start initial).log moves).countP left ∧
      ((start initial).log moves).countP left ≤ ((start initial).log moves).countP entered ∧
      ∀ previous,
        ((((start initial).after moves).move (.leave previous)).1.isOk = false ↔
          ((start initial).after moves).depth = 0) ∧
        ((((start initial).after moves).move (.leave previous)).1.isOk = false →
          (start initial).after (moves ++ [.leave previous]) = (start initial).after moves)) ∧
    ∀ (s : Scope) (moves : List ScopeMove), Paired (s.log moves) →
      (∀ entry ∈ s.log moves, entry.2.isOk) ∧ s.after moves = s := by
  constructor
  · intro moves
    have balance := depth_after (start initial) moves
    simp only [start, Nat.zero_add] at balance ⊢
    refine ⟨by omega, by omega, fun previous => ⟨isOk_move_leave _ previous, fun fails => ?_⟩⟩
    rw [after_append, after_cons, after_nil,
      move_leave_zero ((isOk_move_leave _ previous).mp fails)]
  · intro s moves paired
    have restores := paired.restores (s := s) (by rw [map_fst_log])
    rw [map_fst_log] at restores
    exact restores.symm

/-- Two declarations in a third one, the first of them of the name that stands for the file. -/
def declaredUnknown : List ScopeMove :=
  [.enter "App", .enter "Unknown", .leave "App", .enter "App", .leave "App", .leave "Unknown"]

theorem paired_declaredUnknown : Paired ((start "Unknown").log declaredUnknown) :=
  .block (.block .nil (.block .nil .nil)) .nil

theorem balanced_runs_declaredUnknown :
    Paired ((start "Unknown").log declaredUnknown) ∧
      (∀ entry ∈ (start "Unknown").log declaredUnknown, entry.2.isOk) ∧
      (start "Unknown").after declaredUnknown = start "Unknown" :=
  ⟨paired_declaredUnknown, (balanced_runs "Unknown").2 _ _ paired_declaredUnknown⟩

end ScriptSurvey.Scope
