import ScriptSurvey.Text.Blank

/-!
# Lines of ignore files

A line of an ignore file speaks of the folder that the file is in. `Ignore.rebase` turns it into a
pattern that speaks of the top folder of the repository.
-/

namespace ScriptSurvey.Ignore

/-- The pattern of a line, for an ignore file in the folder `base` below the top, empty for the top
itself. A line that is blank or a comment has none. A pattern with a slash before its end holds at
its place below the folder, any other at every depth. -/
def rebase (line base : String) : Option String :=
  let body := Text.dropEndWhile (· == '\n') line.toList
  let first := (body.dropWhile Text.isSpace).head?
  if first.isNone || first == some '#' then none
  else
    let negated := body.head? == some '!'
    let body := if negated then body.drop 1 else body
    let anchored := body.head? == some '/'
    let body := body.dropWhile (· == '/')
    let folder := if base = "" then [] else base.toList ++ ['/']
    let anywhere := if anchored || (Text.dropEndWhile (· == '/') body).contains '/' then []
      else ['*', '*', '/']
    some (String.ofList ((if negated then ['!'] else []) ++ folder ++ anywhere ++ body))

end ScriptSurvey.Ignore
