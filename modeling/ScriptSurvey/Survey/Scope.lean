/-!
# Scopes

While a tree is walked, a scope names the declaration whose body the walk is in, and counts how many
declarations are open. Entering a declaration gives back the name to restore on leaving it; the
scope itself keeps no names but the current one.
-/

namespace ScriptSurvey

/-- The name of the scope outside every declaration. -/
def fileScope : String := "Unknown"

/-- The declaration that the walk is in, and the number of open declarations. -/
structure Scope where
  current : String := fileScope
  depth : Nat := 0
deriving DecidableEq, Repr

/-- A scope was left that had not been entered. -/
inductive ScopeFault where
  | unmatchedLeave
deriving DecidableEq, Repr

/-- The wording of a scope fault. -/
def ScopeFault.message : ScopeFault → String
  | .unmatchedLeave => "leave_scope called without a matching enter_scope"

namespace Scope

/-- Whether no declaration is open. -/
def atFileScope (s : Scope) : Bool :=
  s.depth == 0

/-- Enter a declaration: the name to restore later, and the scope inside. -/
def enter (s : Scope) (name : String) : String × Scope :=
  (s.current, { current := name, depth := s.depth + 1 })

/-- Leave the innermost declaration and restore the name before it. -/
def leave (s : Scope) (previous : String) : Except ScopeFault Scope :=
  match s.depth with
  | 0 => .error .unmatchedLeave
  | depth + 1 => .ok { current := previous, depth }

end Scope

/-- What may be done to a scope. -/
inductive ScopeMove where
  /-- Enter the declaration of a name. -/
  | enter (name : String)
  /-- Leave a declaration and restore a name. -/
  | leave (previous : String)
deriving DecidableEq, Repr

/-- What a move answers: the name to restore when a declaration is entered, nothing when one is
left, or what went wrong. -/
abbrev ScopeAnswer := Except ScopeFault (Option String)

/-- Make a move: its answer, and the scope after it. A move that fails changes nothing. -/
def Scope.move (s : Scope) : ScopeMove → ScopeAnswer × Scope
  | .enter name => (.ok (some (s.enter name).1), (s.enter name).2)
  | .leave previous =>
    match s.leave previous with
    | .ok outside => (.ok none, outside)
    | .error fault => (.error fault, s)

end ScriptSurvey
