import ScriptSurvey.Text.Blank
import ScriptSurvey.Text.Digit
import ScriptSurvey.Text.Quoted

/-!
# The arguments of the command

Arguments are options and at most one path. First every argument is sorted: it is an option, or it is
plain, and after two dashes all are plain. Then the options are carried out from left to right, each
with the plain argument after it if it wants one; the first plain argument that no option wants is
the path. The name of an option may be cut short as long as it fits one option only, and a value may
follow an equals sign.
-/

namespace ScriptSurvey.Command

/-- The options. -/
inductive Switch where
  | help
  | host
  | port
  | report
  | workers
deriving DecidableEq, Repr

/-- What the command is told to do. -/
structure Settings where
  path : String := "."
  host : String := "127.0.0.1"
  port : Int := 8000
  report : Bool := false
  workers : Int := 1
deriving DecidableEq, Repr

/-- What is wrong with the arguments. -/
inductive UsageFault where
  | invalidInteger (switch : Switch) (value : String)
  | valueMissing (switch : Switch)
  | valueIgnored (switch : Switch) (value : String)
  | ambiguous (argument : String) (names : List String)
  | unrecognized (arguments : List String)
deriving DecidableEq, Repr

namespace Switch

/-- The names of the options, in the order in which they are looked through. -/
def names : List (String × Switch) :=
  [("-h", .help), ("--help", .help), ("--host", .host), ("--port", .port), ("--report", .report),
   ("--workers", .workers)]

/-- The name under which an option is complained about. -/
def label : Switch → String
  | .help => "-h/--help"
  | .host => "--host"
  | .port => "--port"
  | .report => "--report"
  | .workers => "--workers"

/-- Whether an option wants a value. -/
def wantsValue : Switch → Bool
  | .help | .report => false
  | .host | .port | .workers => true

end Switch

/-- The wording of a usage fault. -/
def UsageFault.message : UsageFault → String
  | .invalidInteger switch value =>
    "argument " ++ switch.label ++ ": invalid int value: " ++ Text.quoted value
  | .valueMissing switch => "argument " ++ switch.label ++ ": expected one argument"
  | .valueIgnored switch value =>
    "argument " ++ switch.label ++ ": ignored explicit argument " ++ Text.quoted value
  | .ambiguous argument names =>
    "ambiguous option: " ++ argument ++ " could match " ++ ", ".intercalate names
  | .unrecognized arguments => "unrecognized arguments: " ++ " ".intercalate arguments

/-! ## Integers -/

/-- The blanks that may stand around an integer. A text of plain characters has fewer of them. -/
def integerBlank (cs : List Char) : Char → Bool :=
  if cs.all (·.toNat < 128) then
    fun c => c == ' ' || (9 ≤ c.toNat && c.toNat ≤ 13)
  else Text.isSpace

/-- The values of digits with single underscores between them. -/
def groupedDigits? : List Char → Option (List Nat)
  | [] => none
  | [c] => (Text.digitValue? c).map ([·])
  | c :: '_' :: rest => do return (← Text.digitValue? c) :: (← groupedDigits? rest)
  | c :: rest => do return (← Text.digitValue? c) :: (← groupedDigits? rest)

/-- An integer has at most so many digits. -/
def integerLimit : Nat := 4300

/-- The natural number of grouped digits. -/
def natural? (cs : List Char) : Option Nat := do
  let digits ← groupedDigits? cs
  if digits.length ≤ integerLimit then some (digits.foldl (fun n d => n * 10 + d) 0) else none

/-- The integer that an argument spells. -/
def integer? (text : String) : Option Int :=
  let cs := text.toList
  let blank := integerBlank cs
  match Text.dropEndWhile blank (cs.dropWhile blank) with
  | '-' :: rest => (natural? rest).map fun n => -(n : Int)
  | '+' :: rest => (natural? rest).map Int.ofNat
  | rest => (natural? rest).map Int.ofNat

/-! ## Sorting the arguments -/

/-- How a value is joined to the name of its option in one argument. -/
inductive Joined where
  | apart
  /-- After an equals sign. -/
  | assigned (value : String)
  /-- Right after a name of one letter. -/
  | attached (rest : List Char)
deriving DecidableEq, Repr

/-- An argument by its kind. -/
inductive Token where
  | plain (text : String)
  /-- The two dashes that end the options. -/
  | dashes
  | option (switch : Switch) (joined : Joined)
  /-- What looks like an option and is none. -/
  | unknown (text : String)
deriving DecidableEq, Repr

/-- The argument of a plain token or of dashes. -/
def Token.text? : Token → Option String
  | .plain text => some text
  | .dashes => some "--"
  | _ => none

/-- Whether an argument is a number below zero. -/
def isNegativeNumber (cs : List Char) : Bool :=
  let isDigit (c : Char) : Bool := (Text.digitValue? c).isSome
  let cs := if cs.getLast? = some '\n' then cs.dropLast else cs
  match cs with
  | '-' :: rest =>
    match rest.dropWhile isDigit with
    | [] => !rest.isEmpty
    | '.' :: fraction => !fraction.isEmpty && fraction.all isDigit
    | _ => false
  | _ => false

/-- An argument cut at its first equals sign. -/
def cutAtEquals (cs : List Char) : List Char × Option String :=
  match cs.dropWhile (· != '=') with
  | [] => (cs, none)
  | _ :: value => (cs.takeWhile (· != '='), some (String.ofList value))

/-- How a value after an equals sign, if there is one, is joined. -/
def joinedBy : Option String → Joined
  | none => .apart
  | some value => .assigned value

/-- An argument that names no option: a number or a text with a blank in it is plain. -/
def unnamed (text : String) : Token :=
  let cs := text.toList
  if isNegativeNumber cs || cs.contains ' ' then .plain text else .unknown text

/-- An argument that starts with two dashes and is no full name: the names it may be short for. -/
def shortened (text : String) : Except UsageFault Token :=
  let (start, value) := cutAtEquals text.toList
  match Switch.names.filter fun (name, _) => start.isPrefixOf name.toList with
  | [] => .ok (unnamed text)
  | [(_, switch)] => .ok (.option switch (joinedBy value))
  | several => .error (.ambiguous text (several.map (·.1)))

/-- The kind of an argument before the two dashes. -/
def sort (text : String) : Except UsageFault Token :=
  match Switch.names.lookup text with
  | some switch => .ok (.option switch .apart)
  | none =>
    match text.toList with
    | '-' :: '-' :: rest =>
      match cutAtEquals ('-' :: '-' :: rest) with
      | (name, some value) =>
        match Switch.names.lookup (String.ofList name) with
        | some switch => .ok (.option switch (.assigned value))
        | none => shortened text
      | _ => shortened text
    | ['-'] => .ok (.plain text)
    | '-' :: 'h' :: '=' :: value => .ok (.option .help (.assigned (String.ofList value)))
    | '-' :: 'h' :: rest => .ok (.option .help (.attached rest))
    | '-' :: _ => .ok (unnamed text)
    | _ => .ok (.plain text)

/-- All arguments by their kinds. -/
def sortAll : List String → Except UsageFault (List Token)
  | [] => .ok []
  | "--" :: rest => .ok (.dashes :: rest.map .plain)
  | text :: rest => do
    let token ← sort text
    return token :: (← sortAll rest)

/-! ## Carrying them out -/

/-- What the arguments come to. -/
inductive Request where
  | help
  | run (settings : Settings)
deriving DecidableEq, Repr

/-- What has been gathered on the way. -/
structure Gathered where
  settings : Settings := {}
  /-- Whether the path has been found. -/
  pathFound : Bool := false
  /-- The arguments that nobody wanted. -/
  extras : List String := []

namespace Gathered

/-- The path set, unless it is found already: then the argument is one too many. -/
def plain (g : Gathered) (text : String) : Gathered :=
  if g.pathFound then { g with extras := g.extras ++ [text] }
  else { g with settings.path := text, pathFound := true }

/-- An option with its value set. -/
def set (g : Gathered) (switch : Switch) (value : String) : Except UsageFault Gathered :=
  let number : Except UsageFault Int :=
    match integer? value with
    | some n => .ok n
    | none => .error (.invalidInteger switch value)
  match switch with
  | .host => .ok { g with settings.host := value }
  | .port => do return { g with settings.port := ← number }
  | .workers => do return { g with settings.workers := ← number }
  | .report => .ok { g with settings.report := true }
  | .help => .ok g

/-- The arguments after the last option. One path is taken from them, the dashes before or after it
with it. -/
def finish (g : Gathered) (rest : List String) : Gathered :=
  if g.pathFound then { g with extras := g.extras ++ rest }
  else
    match rest with
    | "--" :: path :: rest => { g.plain path with extras := g.extras ++ rest }
    | ["--"] => { g with pathFound := true }
    | path :: "--" :: rest => { g.plain path with extras := g.extras ++ rest }
    | path :: rest => { g.plain path with extras := g.extras ++ rest }
    | [] => { g with pathFound := true }

end Gathered

/-- The letters after the name of an option of one letter that wants no value: each may be the same
option again. Letters that are none do no harm, since help comes first. -/
def attachedLetters : List Char → Except UsageFault Request
  | [] => .ok .help
  | '-' :: rest => .error (.valueIgnored .help (String.ofList ('-' :: rest)))
  | 'h' :: '=' :: value => .error (.valueIgnored .help (String.ofList value))
  | 'h' :: rest => attachedLetters rest
  | _ => .ok .help

/-- The tokens carried out from left to right. -/
def carryOut (g : Gathered) : List Token → Except UsageFault Request
  | [] =>
    if g.extras.isEmpty then .ok (.run g.settings) else .error (.unrecognized g.extras)
  | .option .help .apart :: _ => .ok .help
  | .option .help (.attached letters) :: _ => attachedLetters letters
  | .option switch (.assigned value) :: rest =>
    if switch.wantsValue then do carryOut (← g.set switch value) rest
    else .error (.valueIgnored switch value)
  | .option switch _ :: .plain value :: rest =>
    if switch.wantsValue then do carryOut (← g.set switch value) rest
    else do carryOut (← g.set switch value) (.plain value :: rest)
  | .option switch _ :: rest =>
    if switch.wantsValue then .error (.valueMissing switch)
    else do carryOut (← g.set switch "") rest
  | .unknown text :: rest => carryOut { g with extras := g.extras ++ [text] } rest
  | token :: rest =>
    match (token :: rest).mapM Token.text? with
    | some texts => carryOut (g.finish texts) []
    | none => carryOut (g.plain (token.text?.getD "")) rest
termination_by tokens => tokens.length

/-- What the arguments come to, or what is wrong with them. -/
def parseArguments (arguments : List String) : Except UsageFault Request := do
  carryOut {} (← sortAll arguments)

end ScriptSurvey.Command
