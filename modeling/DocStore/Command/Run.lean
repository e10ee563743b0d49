import DocStore.Command.Arguments
import DocStore.Command.Error
import DocStore.Config.Reader
import DocStore.Query.Run
import DocStore.Text.Blank

/-!
# Running a command

Every command loads the configuration first. A query comes from a file or from
standard input. The answer is one line of JSON on standard output, and log lines
go to standard error.
-/

set_option autoImplicit false

namespace DocStore

structure Inputs where
  file : String → FileContent
  stdin : FileContent

structure Outcome where
  exitCode : Nat
  stdout : String
  trace : Trace

def versionText : String := "firestore-lite 0.1.0\n"

namespace Command

def openDatabase (content : FileContent) : Action (Except CommandError Database) :=
  match Config.load content with
  | .error e => return .error (.config e)
  | .ok config => do
    Action.log .configLoaded [("project_id", config.projectId)]
    match Database.open? config 0 with
    | .error e => return .error (.config e)
    | .ok db => return .ok db

def readInput (content : FileContent) : Except CommandError Json :=
  match content.text with
  | .error e => .error (.input e.message)
  | .ok text =>
    if isBlankText text then .error .emptyInput
    else match Json.read? text with
      | none => .error (.notJson text)
      | some j => .ok j

def makeQuery (inputs : Inputs) (config : String) (query : Option String) :
    Action (Except CommandError Query) := do
  match ← openDatabase (inputs.file config) with
  | .error e => return .error e
  | .ok db =>
    match readInput (match query with | some path => inputs.file path | none => inputs.stdin) with
    | .error e => return .error e
    | .ok j =>
      match Options.ofJson db j with
      | .error e => return .error (.query e)
      | .ok options =>
        match ← db.query options with
        | .error e => return .error (.query e)
        | .ok q => return .ok q

def perform (inputs : Inputs) : Command → Action (Except CommandError Json)
  | compile config query => do
    match ← makeQuery inputs config query with
    | .error e => return .error e
    | .ok q => return .ok q.toJson
  | run config query => do
    match ← makeQuery inputs config query with
    | .error e => return .error e
    | .ok q =>
      match ← q.run with
      | .error e => return .error (.query e)
      | .ok documents => return .ok (.arr (documents.map Document.toJson))
  | get config path => do
    match ← openDatabase (inputs.file config) with
    | .error e => return .error e
    | .ok db =>
      match ← (db.reference path).get with
      | .error e => return .error (.read e)
      | .ok document => return .ok document.toJson

def report (wording : Wording) : Except CommandError Json → Json
  | .ok data => .obj [("data", data), ("status", .str "ok")]
  | .error e =>
    .obj [("code", .str e.code), ("message", .str (e.message wording)), ("status", .str "error")]

def finish (wording : Wording) (result : Except CommandError Json) (trace : Trace) : Outcome :=
  ⟨match result with | .ok _ => 0 | .error _ => 1, (report wording result).render ++ "\n", trace⟩

def invoke (wording : Wording) (inputs : Inputs) (network : Network) (i : Invocation) : Outcome :=
  match Severity.parse? i.logLevel with
  | none => finish wording (.error (.unknownLevel i.logLevel)) .empty
  | some minimum =>
    let (result, trace) := i.command.perform inputs ⟨minimum, network⟩
    finish wording result trace

def execute (wording : Wording) (inputs : Inputs) (network : Network) (args : List String) :
    Outcome :=
  match CommandLine.read args with
  | .help => ⟨0, wording.help args, .empty⟩
  | .version => ⟨0, versionText, .empty⟩
  | .invalid => ⟨2, "", .empty⟩
  | .invoke i => invoke wording inputs network i

end Command

end DocStore
