import ScriptSurvey.Json.Finite
import ScriptSurvey.Project.Scan
import ScriptSurvey.Service.Cache
import ScriptSurvey.Service.Payload

/-!
# Requests and their answers

The service answers requests about the project under a path and about sources that come with the
request. A request is answered from the world as it is; the answer says what the world is afterwards
and which lines were printed.
-/

namespace ScriptSurvey.Service

/-- A request. -/
structure Request where
  method : String
  url : String
  /-- The path that the request asks about. -/
  path : Option String := none
  body : String := ""

/-- The body of a response. -/
inductive Body where
  | json (value : Json)
  | text (text : String)

/-- A response. -/
structure Response where
  status : Nat
  body : Body

/-- A response, the world after it, and the lines printed. -/
structure Answer where
  response : Response
  world : World
  lines : List String := []

/-! ## Responses -/

namespace Response

/-- All went well. -/
def ok (value : Json) : Response := ⟨200, .json value.finiteOrNull⟩

/-- A refusal with its reason. -/
def refusal (status : Nat) (detail : String) : Response :=
  ⟨status, .json (.object [("detail", .text detail)])⟩

/-- Something went wrong that the request is not to blame for. -/
def internal : Response := ⟨500, .text "Internal Server Error"⟩

/-- The body was refused. A complaint about a value that has no text cannot be told. -/
def unprocessable (complaints : List Complaint) : Response :=
  let value := Json.object [("detail", .list (complaints.map (·.toJson)))]
  if value.isFinite then ⟨422, .json value⟩ else internal

/-- The response to a scan that failed: an archive that cannot be opened is the request's fault. -/
def ofScanFault : ScanFault → Response
  | .source (.unopened reason) => refusal 400 (SourceFault.unopened reason).message
  | _ => internal

end Response

/-! ## Targets -/

/-- The target of a request: the path it names, else the one that is served, else the folder that
the program runs in. -/
def target (w : World) (path : Option String) : Path :=
  match path.filter (· ≠ "") <|> w.served.filter (· ≠ "") with
  | some text => .ofText text
  | none => .ofLocation w.folder

/-- An answer about the target of a request, if there is one. -/
def withTarget (w : World) (path : Option String) (answer : Path → Answer) : Answer :=
  let p := target w path
  if w.pathExists p then answer p else ⟨.refusal 404 "Path not found", w, []⟩

/-! ## What is asked for -/

/-- A new scan of a target, whose report is kept. -/
def refresh (w : World) (p : Path) : Answer :=
  let scan := scanPath w 1 p
  match scan.value with
  | .error fault => ⟨.ofScanFault fault, w, scan.lines⟩
  | .ok report =>
    match Cache.keep w p (report.text? w.stray) with
    | ⟨left, some _⟩ => ⟨.internal, left, scan.lines⟩
    | ⟨after, none⟩ => ⟨.ok report.toJson, after, scan.lines ++ [Cache.savedLine w p]⟩

/-- The report kept on a target, or that of a new scan. -/
def analysis (w : World) (p : Path) : Answer :=
  match Cache.load w p with
  | .error _ => ⟨.internal, w, []⟩
  | .ok (some report) => ⟨.ok report.toJson, w, []⟩
  | .ok none => refresh w p

/-- The dependency graph of a target, from the report kept on it or from a scan. -/
def dependencies (w : World) (p : Path) : Answer :=
  let graph (report : Report) : Response := .ok report.summary.graph.toJson
  match Cache.load w p with
  | .error _ => ⟨.internal, w, []⟩
  | .ok (some report) => ⟨graph report, w, []⟩
  | .ok none =>
    let scan := scanPath w 1 p
    match scan.value with
    | .error fault => ⟨.ofScanFault fault, w, scan.lines⟩
    | .ok report => ⟨graph report, w, scan.lines⟩

/-- The record of a source. -/
def analyzeOne (w : World) (body : String) : Answer :=
  match Payload.check body (Payload.source []) with
  | .error complaints => ⟨.unprocessable complaints, w, []⟩
  | .ok source =>
    match source.analyze with
    | .error _ => ⟨.internal, w, []⟩
    | .ok record => ⟨.ok record.toJson, w, []⟩

/-- The root of a report on sources that came with a request. -/
def uploadRoot : String := "(upload)"

/-- The report on a list of sources. -/
def analyzeMany (w : World) (body : String) : Answer :=
  match Payload.check body Payload.sources with
  | .error complaints => ⟨.unprocessable complaints, w, []⟩
  | .ok sources =>
    let told := analyzeInTurn Source.analyze sources
    match Report.ofRecords uploadRoot told.value with
    | .error _ => ⟨.internal, w, told.lines⟩
    | .ok report => ⟨.ok report.toJson, w, told.lines⟩

/-! ## Routes -/

/-- What can be asked for. -/
inductive Route where
  | status
  | analysis
  | refresh
  | source
  | batch
  | dependencies
deriving DecidableEq, Repr

namespace Route

/-- All routes. -/
def all : List Route := [.analysis, .refresh, .source, .batch, .dependencies, .status]

/-- The address of a route. -/
def url : Route → String
  | .status => "/api-status"
  | .analysis => "/api/analysis"
  | .refresh => "/api/analysis/refresh"
  | .source => "/api/analysis/source"
  | .batch => "/api/analysis/batch"
  | .dependencies => "/api/analysis/dependencies"

/-- The method of a route. -/
def method : Route → String
  | .refresh | .source | .batch => "POST"
  | .status | .analysis | .dependencies => "GET"

/-- The route at an address. Slashes at the end of an address do not count. -/
def find? (url : String) : Option Route :=
  let bare := String.ofList (Text.dropEndWhile (· == '/') url.toList)
  all.find? (·.url = bare)

/-- The answer of a route. -/
def answer (route : Route) (w : World) (request : Request) : Answer :=
  match route with
  | .status =>
    let message := "codeprobe server is running. Visit /docs for API documentation."
    ⟨.ok (.object [("message", .text message)]), w, []⟩
  | .analysis => withTarget w request.path (Service.analysis w)
  | .refresh => withTarget w request.path (Service.refresh w)
  | .dependencies => withTarget w request.path (Service.dependencies w)
  | .source => analyzeOne w request.body
  | .batch => analyzeMany w request.body

end Route

/-- The answer of the route at the address of a request, if the method is that of the route. -/
def dispatch (w : World) (request : Request) : Answer :=
  match Route.find? request.url with
  | none => ⟨.refusal 404 "Not Found", w, []⟩
  | some route =>
    if request.method.toUpper = route.method then route.answer w request
    else ⟨.refusal 405 "Method Not Allowed", w, []⟩

/-- The answer to a request. To a question for the head alone the body is empty. -/
def respond (w : World) (request : Request) : Answer :=
  let answer := dispatch w request
  if request.method.toUpper = "HEAD" then
    { answer with response := { answer.response with body := .text "" } }
  else answer

end ScriptSurvey.Service
