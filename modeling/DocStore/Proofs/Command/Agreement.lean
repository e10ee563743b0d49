import DocStore.Command.Run
import DocStore.Proofs.Config.Loading
import DocStore.Proofs.Json.Lines
import DocStore.Proofs.Path.Separators
import DocStore.Proofs.Query.Outcome

/-!
# Commands stage by stage

A command goes through stages, and the first that fails decides its answer. The
stages are written down here as relations, with the requests that are sent on
the way. Main statement: what is compiled is what is sent when it is run, and
what cannot be compiled is not run; every answer is one line that tells a result
from the error of one stage.
-/

set_option autoImplicit false

namespace DocStore

open DocStore.Action

namespace Command

structure Opens (content : FileContent) (db : Database) : Prop where
  config : Config.load content = .ok db.config
  channel : db.channel = 0

def queryInput (inputs : Inputs) (query : Option String) : FileContent :=
  match query with
  | some path => inputs.file path
  | none => inputs.stdin

inductive Prepares (config input : FileContent) : Except CommandError Query → Prop
  | config {e : ConfigError} (h : Config.load config = .error e) :
      Prepares config input (.error (.config e))
  | input {db : Database} {e : CommandError} (hdb : Opens config db)
      (h : readInput input = .error e) : Prepares config input (.error e)
  | options {db : Database} {j : Json} {e : QueryError} (hdb : Opens config db)
      (hj : readInput input = .ok j) (h : Options.ofJson db j = .error e) :
      Prepares config input (.error (.query e))
  | query {db : Database} {j : Json} {o : Options} {e : QueryError} (hdb : Opens config db)
      (hj : readInput input = .ok j) (ho : Options.ofJson db j = .ok o)
      (h : Query.ofOptions (db.resolveOptions o) = .error e) :
      Prepares config input (.error (.query e))
  | made {db : Database} {j : Json} {o : Options} {q : Query} (hdb : Opens config db)
      (hj : readInput input = .ok j) (ho : Options.ofJson db j = .ok o)
      (h : Query.ofOptions (db.resolveOptions o) = .ok q) :
      Prepares config input (.ok q)

inductive Answers (inputs : Inputs) (network : Network) :
    Command → Except CommandError Json → List Request → Prop
  | notCompiled {config : String} {query : Option String} {e : CommandError}
      (h : Prepares (inputs.file config) (queryInput inputs query) (.error e)) :
      Answers inputs network (.compile config query) (.error e) []
  | compiled {config : String} {query : Option String} {q : Query}
      (h : Prepares (inputs.file config) (queryInput inputs query) (.ok q)) :
      Answers inputs network (.compile config query) (.ok q.toJson) []
  | notRun {config : String} {query : Option String} {e : CommandError}
      (h : Prepares (inputs.file config) (queryInput inputs query) (.error e)) :
      Answers inputs network (.run config query) (.error e) []
  | runFailed {config : String} {query : Option String} {q : Query} {source : Source}
      {rest : List Source} {url : String} {e : QueryError}
      (h : Prepares (inputs.file config) (queryInput inputs query) (.ok q))
      (hs : q.sources = source :: rest) (hu : q.endpoint = .ok url)
      (he : Query.outcome source.reference.database
        (network ⟨source.reference.database, .post, url, some q.toJson⟩) = .error e) :
      Answers inputs network (.run config query) (.error (.query e))
        [⟨source.reference.database, .post, url, some q.toJson⟩]
  | ran {config : String} {query : Option String} {q : Query} {source : Source}
      {rest : List Source} {url : String} {documents : List Document}
      (h : Prepares (inputs.file config) (queryInput inputs query) (.ok q))
      (hs : q.sources = source :: rest) (hu : q.endpoint = .ok url)
      (hd : Query.outcome source.reference.database
        (network ⟨source.reference.database, .post, url, some q.toJson⟩) = .ok documents) :
      Answers inputs network (.run config query) (.ok (.arr (documents.map Document.toJson)))
        [⟨source.reference.database, .post, url, some q.toJson⟩]
  | notOpened {config path : String} {e : ConfigError}
      (h : Config.load (inputs.file config) = .error e) :
      Answers inputs network (.get config path) (.error (.config e)) []
  | notDocument {config path : String} {db : Database} (hdb : Opens (inputs.file config) db)
      (h : (db.reference path).isDocument = false) :
      Answers inputs network (.get config path)
        (.error (.read (.notADocument (db.reference path).path))) []
  | getFailed {config path : String} {db : Database} {e : ReadError}
      (hdb : Opens (inputs.file config) db) (h : (db.reference path).isDocument = true)
      (he : Reference.outcome db (network ⟨db, .get, (db.reference path).endpoint, none⟩) =
        .error e) :
      Answers inputs network (.get config path) (.error (.read e))
        [⟨db, .get, (db.reference path).endpoint, none⟩]
  | got {config path : String} {db : Database} {document : Document}
      (hdb : Opens (inputs.file config) db) (h : (db.reference path).isDocument = true)
      (hd : Reference.outcome db (network ⟨db, .get, (db.reference path).endpoint, none⟩) =
        .ok document) :
      Answers inputs network (.get config path) (.ok document.toJson)
        [⟨db, .get, (db.reference path).endpoint, none⟩]

theorem exists_opens {content : FileContent} {c : Config} (h : Config.load content = .ok c) :
    ∃ db, Opens content db :=
  ⟨⟨c, 0, Config.valid_of_load h⟩, h, rfl⟩

theorem exists_prepares (config input : FileContent) : ∃ result, Prepares config input result := by
  cases hload : Config.load config with
  | error e => exact ⟨_, .config hload⟩
  | ok c =>
    obtain ⟨db, hdb⟩ := exists_opens hload
    cases hj : readInput input with
    | error e => exact ⟨_, .input hdb hj⟩
    | ok j =>
      cases ho : Options.ofJson db j with
      | error e => exact ⟨_, .options hdb hj ho⟩
      | ok o =>
        cases hq : Query.ofOptions (db.resolveOptions o) with
        | error e => exact ⟨_, .query hdb hj ho hq⟩
        | ok q => exact ⟨_, .made hdb hj ho hq⟩

theorem Prepares.reachable {config input : FileContent} {q : Query}
    (h : Prepares config input (.ok q)) : q.Reachable := by
  cases h with
  | @made db j o _ _ _ _ h =>
    have hnew := Query.new_result (db.resolveOptions o) ⟨.warn, fun _ => .ok .null⟩
    exact .new (hnew.trans h)

theorem exists_answers_of_made {inputs : Inputs} {config : String} {query : Option String}
    {q : Query} (h : Prepares (inputs.file config) (queryInput inputs query) (.ok q))
    (network : Network) :
    ∃ result db url, Answers inputs network (.run config query) result
      [⟨db, .post, url, some q.toJson⟩] := by
  obtain ⟨source, rest, parent, hs, -, hu⟩ := h.reachable.wellFormed.endpoint
  cases hr : Query.outcome source.reference.database
      (network ⟨source.reference.database, .post, parent.endpoint ++ ":runQuery",
        some q.toJson⟩) with
  | error e => exact ⟨_, _, _, .runFailed h hs hu hr⟩
  | ok documents => exact ⟨_, _, _, .ran h hs hu hr⟩

theorem exists_answers (inputs : Inputs) (network : Network) (command : Command) :
    ∃ result requests, Answers inputs network command result requests := by
  cases command with
  | compile config query =>
    obtain ⟨result, h⟩ := exists_prepares (inputs.file config) (queryInput inputs query)
    cases result with
    | error e => exact ⟨_, _, .notCompiled h⟩
    | ok q => exact ⟨_, _, .compiled h⟩
  | run config query =>
    obtain ⟨result, h⟩ := exists_prepares (inputs.file config) (queryInput inputs query)
    cases result with
    | error e => exact ⟨_, _, .notRun h⟩
    | ok q =>
      obtain ⟨result, db, url, hrun⟩ := exists_answers_of_made h network
      exact ⟨_, _, hrun⟩
  | get config path =>
    cases hload : Config.load (inputs.file config) with
    | error e => exact ⟨_, _, .notOpened hload⟩
    | ok c =>
      obtain ⟨db, hdb⟩ := exists_opens hload
      cases hdocument : (db.reference path).isDocument with
      | false => exact ⟨_, _, .notDocument hdb hdocument⟩
      | true =>
        cases hr : Reference.outcome db
            (network ⟨db, .get, (db.reference path).endpoint, none⟩) with
        | error e => exact ⟨_, _, .getFailed hdb hdocument hr⟩
        | ok document => exact ⟨_, _, .got hdb hdocument hr⟩

def written (text : String) : FileContent := .ok text.toByteArray.data.toList

end Command

end DocStore
