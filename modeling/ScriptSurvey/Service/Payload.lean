import ScriptSurvey.Json.Read
import ScriptSurvey.Survey.Source
import ScriptSurvey.Text.Utf8

/-!
# The bodies of requests

A body is JSON text: a source, or a list of sources. What is wrong with a body is told as a list of
complaints, each with its place in the body; all parts of a body are looked at before it is refused.
-/

namespace ScriptSurvey.Service

/-- What a complaint is about. -/
inductive Complaint.Cause where
  | missing
  | notText
  | notList
  | notObject
  | malformed (problem : Json.Problem)
deriving DecidableEq, Repr

/-- The name of a cause. -/
def Complaint.Cause.label : Complaint.Cause → String
  | .missing => "missing"
  | .notText => "string_type"
  | .notList => "list_type"
  | .notObject => "model_attributes_type"
  | .malformed _ => "json_invalid"

/-- The wording of a cause. -/
def Complaint.Cause.message : Complaint.Cause → String
  | .missing => "Field required"
  | .notText => "Input should be a valid string"
  | .notList => "Input should be a valid list"
  | .notObject => "Input should be a valid dictionary or object to extract fields from"
  | .malformed _ => "JSON decode error"

/-- Something that is wrong with a body: what, where, and the value that stands there. -/
structure Complaint where
  cause : Complaint.Cause
  place : List Json
  input : Json

/-- A complaint as JSON. -/
def Complaint.toJson (c : Complaint) : Json :=
  let context :=
    match c.cause with
    | .malformed problem => [("ctx", Json.object [("error", .text problem.message)])]
    | _ => []
  .object ([("type", .text c.cause.label), ("loc", .list (.text "body" :: c.place)),
    ("msg", .text c.cause.message), ("input", c.input)] ++ context)

/-- A result, or the complaints. -/
abbrev Checked (α : Type) := Except (List Complaint) α

namespace Payload

/-- Two results, or the complaints of both. -/
def both {α β : Type} : Checked α → Checked β → Checked (α × β)
  | .ok a, .ok b => .ok (a, b)
  | .error first, .ok _ => .error first
  | .ok _, .error second => .error second
  | .error first, .error second => .error (first ++ second)

/-- All results, or the complaints of all. -/
def every {α : Type} : List (Checked α) → Checked (List α)
  | [] => .ok []
  | x :: xs => (both x (every xs)).map fun (a, rest) => a :: rest

/-- The text that an object has under a name. -/
def text (place : List Json) (name : String) (v : Json) : Checked String :=
  match v.member? name with
  | none => .error [⟨.missing, place ++ [.text name], v⟩]
  | some (.text s) => .ok s
  | some other => .error [⟨.notText, place ++ [.text name], other⟩]

/-- A source, which has a name and a text. -/
def source (place : List Json) (v : Json) : Checked Source :=
  match v with
  | .object _ =>
    (both (text place "filename" v) (text place "source" v)).map fun (name, text) => ⟨name, text⟩
  | _ => .error [⟨.notObject, place, v⟩]

/-- A list of sources under the name `files`; without it there are none. -/
def sources (v : Json) : Checked (List Source) :=
  match v with
  | .object _ =>
    let place := [Json.text "files"]
    match v.member? "files" with
    | none => .ok []
    | some (.list items) => every (items.mapIdx fun i item => source (place ++ [.int i]) item)
    | some other => .error [⟨.notList, place, other⟩]
  | _ => .error [⟨.notObject, [], v⟩]

/-- Lists and objects of a body may be nested so deep. -/
def depth : Nat := 900

/-- The value of a body, and what it must be. Nothing and null are no body. -/
def check {α : Type} (body : String) (decode : Json → Checked α) : Checked α :=
  if body.isEmpty then .error [⟨.missing, [], .null⟩]
  else
    let text := Text.withoutMark body
    match Json.read { surrogate := some '?', depth } text with
    | .error fault =>
      .error [⟨.malformed fault.problem, [.int (fault.position text)], .object []⟩]
    | .ok .null => .error [⟨.missing, [], .null⟩]
    | .ok v => decode v

end Payload

end ScriptSurvey.Service
