import ScriptSurvey.Text.Split

/-!
# Path names

A path name is a text whose components are set apart by slashes. Empty components and single dots
say nothing and are dropped; two dots are kept. `suffix` is what follows the last dot of the last
component, the dot included.
-/

namespace ScriptSurvey.PathName

/-- The components of a path name, in order. -/
def components (path : String) : List String :=
  (Text.splitAt '/' path).filter fun part => part != "" && part != "."

/-- The last component, empty if there is none. -/
def name (path : String) : String :=
  (components path).getLast?.getD ""

/-- The part of a component from its last dot on. A dot at either end of the component starts no
suffix. -/
def suffixOf (name : String) : String :=
  let tail := (name.toList.reverse.takeWhile (· != '.')).reverse
  if tail.isEmpty || tail.length + 1 ≥ name.length then ""
  else String.ofList ('.' :: tail)

/-- The suffix of the last component. -/
def suffix (path : String) : String :=
  suffixOf (name path)

/-- The path name with slashes in place of backslashes. -/
def forward (path : String) : String :=
  path.map fun c => if c = '\\' then '/' else c

end ScriptSurvey.PathName
