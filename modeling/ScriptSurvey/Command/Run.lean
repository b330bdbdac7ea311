import ScriptSurvey.Command.Arguments
import ScriptSurvey.Project.Encode
import ScriptSurvey.Project.Scan

/-!
# The command

The command either prints the report on a path, or has the service started for that path and opens
its address in a browser. What it does is told as a value; to do it is left to the caller.
-/

namespace ScriptSurvey.Command

/-- How the command is used. -/
def usage : String :=
  "usage: codeprobe [-h] [--host HOST] [--port PORT] [--report]\n" ++
  "                 [--workers WORKERS]\n" ++
  "                 [path]\n"

/-- What the command says about itself. -/
def help : String :=
  usage ++
  "\n" ++
  "Static analysis of JavaScript/TypeScript projects. By default, serves the\n" ++
  "analysis of the current working directory.\n" ++
  "\n" ++
  "positional arguments:\n" ++
  "  path               Directory, .zip archive or source file to analyze\n" ++
  "                     (default: current directory).\n" ++
  "\n" ++
  "options:\n" ++
  "  -h, --help         show this help message and exit\n" ++
  "  --host HOST        Host interface to bind the server to (default:\n" ++
  "                     127.0.0.1).\n" ++
  "  --port PORT        Port to run the server on (default: 8000).\n" ++
  "  --report           Print the JSON report to stdout instead of starting the\n" ++
  "                     server.\n" ++
  "  --workers WORKERS  Worker processes used to analyze files (default: 1).\n"

/-- How the command ends. -/
inductive Exit where
  | code (value : Nat)
  | message (text : String)
deriving DecidableEq, Repr

/-- A service to be started: its address, and the folder and the path it is for. -/
structure Launch where
  host : String
  port : Int
  folder : String
  root : String
deriving DecidableEq, Repr

/-- The address of a service. -/
def Launch.url (l : Launch) : String :=
  "http://" ++ l.host ++ ":" ++ toString l.port

/-- The time in seconds before the browser is opened, so that the service is up by then. -/
def browserDelay : Double := .ofInt 1

/-- What the command does. -/
structure Run where
  exit : Exit
  stdout : String := ""
  stderr : String := ""
  launch : Option Launch := none
  /-- The world afterwards. -/
  world : World

/-- Lines as they are printed. -/
def printed (lines : List String) : String :=
  String.join (lines.map (· ++ "\n"))

/-- The path that a text leads to from the folder of the world, with the dots worked off. -/
def absolute (w : World) (text : String) : Path :=
  let p := Path.ofText text
  { root := if p.root = "" then "/" else p.root, parts := w.resolve p }

/-- Why the command breaks off. -/
inductive Fault where
  | scan (fault : ScanFault)
  /-- There is no text of the report. -/
  | unspelled

/-- The wording of a fault of the command. -/
def Fault.message : Fault → String
  | .scan fault => fault.message
  | .unspelled => "Error serializing to JSON"

/-- The report on a path is printed, and the lines of the scan beside it. -/
def printReport (w : World) (workers : Int) (p : Path) : Except Fault Run := do
  let scan := scanPath w workers p
  let report ← scan.value.mapError .scan
  let some text := report.text? w.stray | throw .unspelled
  return { exit := .code 0, stdout := text ++ "\n", stderr := printed scan.lines, world := w }

/-- The service is started for a path: the world is set up for it. -/
def serve (w : World) (settings : Settings) (p : Path) : Run :=
  let folder := if w.isFolder p then p.parts else p.parts.dropLast
  let launch : Launch :=
    { host := settings.host, port := settings.port, root := p.text
      folder := (Path.ofLocation folder).text }
  { exit := .code 0
    stdout := printed ["📂 Analyzing codebase at: " ++ p.text,
      "🚀 Starting server at " ++ launch.url, "   Press Ctrl+C to stop."]
    launch := some launch
    world := { w with folder, served := some p.text } }

/-- What the command does with its arguments. -/
def run (w : World) (arguments : List String) : Except Fault Run :=
  match parseArguments arguments with
  | .error fault =>
    .ok {
      exit := .code 2, stderr := usage ++ "codeprobe: error: " ++ fault.message ++ "\n", world := w }
  | .ok .help => .ok { exit := .code 0, stdout := help, world := w }
  | .ok (.run settings) =>
    let p := absolute w settings.path
    if !w.pathExists p then
      .ok { exit := .message ("Path does not exist: " ++ p.text), world := w }
    else if settings.report then printReport w settings.workers p
    else .ok (serve w settings p)

end ScriptSurvey.Command
