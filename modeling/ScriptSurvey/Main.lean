import ScriptSurvey.Command.Run

/-!
# The program

The part of the disk that the command can see is read, the command is run on it, and what it prints
is printed. Answering requests is left to `Service.respond`, for whoever holds the connection.
-/

namespace ScriptSurvey.Main

/-- What stands at a place on the disk, with all that is below it. -/
partial def load (place : String) : IO Entry := do
  let here := (← IO.currentDir) / place
  if ← here.isDir then
    let mut entries := #[]
    for found in ← here.readDir do
      entries := entries.push (found.fileName, ← load found.path.toString)
    return .folder entries.toList
  else
    return .file (← IO.FS.readBinFile here).toList

/-- Whether a folder is the root of a repository. -/
def isRepository (l : Location) : IO Bool := do
  ((← IO.currentDir) / ((Path.ofLocation l).child ".git").text).pathExists

/-- The place from which on the disk must be seen: the repository around a path, or the path. -/
def vantage (l : Location) : List Location → IO Location
  | [] => return l
  | around :: further => do
    if ← isRepository around then return around else vantage l further

/-- The world as far as a path needs it. -/
def surroundings (folder : Location) (l : Location) : IO World := do
  let bare : World := { top := .folder [], folder }
  if ← ((← IO.currentDir) / (Path.ofLocation l).text).pathExists then
    let seen ← vantage l (Ignore.upward l)
    return { bare with top := Entry.put (← load (Path.ofLocation seen).text) seen bare.top }
  else return bare

/-- The world in which the command with these arguments runs. -/
def worldFor (arguments : List String) : IO World := do
  let folder := PathName.components (← IO.currentDir).toString
  match Command.parseArguments arguments with
  | .ok (.run settings) => surroundings folder ((Path.ofText settings.path).resolve folder)
  | _ => return { top := .folder [], folder }

end ScriptSurvey.Main

open ScriptSurvey in
/-- The command. -/
def main (arguments : List String) : IO UInt32 := do
  match Command.run (← Main.worldFor arguments) arguments with
  | .error fault =>
    IO.eprintln fault.message
    return 1
  | .ok run =>
    IO.eprint run.stderr
    IO.print run.stdout
    match run.exit with
    | .code value => return value.toUInt32
    | .message text =>
      IO.eprintln text
      return 1
