import DocStore.Action
import DocStore.Document.Basic
import DocStore.Query.Body

/-!
# Running queries and reading documents

One request each. The reply to a query is an array, and its elements that carry
a document are decoded in order; either all of them decode or the first that
does not is the error. What happened goes to the log.
-/

set_option autoImplicit false

namespace DocStore

namespace Query

def new (o : Options) : Action (Except QueryError Query) :=
  match ofOptions o with
  | .error e => return .error e
  | .ok q => do
    let collection := match q.sources with
      | [] => ""
      | source :: _ => source.reference.id
    Action.log .queryCompiled
      [("collection", collection), ("filters", natString q.conditionCount)]
    return .ok q

def decodeDocument (db : Database) (raw : Json) : Except QueryError Document :=
  match Document.decode db raw with
  | .ok d => .ok d
  | .error e => .error (.document e)

def decodeReply (db : Database) : Json → Except QueryError (List Document)
  | .arr items => collect (decodeDocument db) (items.filterMap (Json.get? "document"))
  | reply => .error (.unexpectedResponse ("expected an array, got " ++ reply.render))

def outcome (db : Database) : Except TransportError Json → Except QueryError (List Document)
  | .ok reply => decodeReply db reply
  | .error e => .error (.transport e)

def report (endpoint : String) : Except QueryError (List Document) → Action Unit
  | .ok documents => Action.log .queryRunComplete
      [("documents", natString documents.length), ("endpoint", endpoint)]
  | .error e => Action.log .queryRunFailed
      [("code", e.code), ("endpoint", endpoint), ("message", e.message)]

def run (q : Query) : Action (Except QueryError (List Document)) :=
  match q.sources, q.endpoint with
  | source :: _, .ok endpoint => do
    Action.log .queryRunStart [("endpoint", endpoint)]
    let reply ← Action.send ⟨source.reference.database, .post, endpoint, some q.toJson⟩
    let result := outcome source.reference.database reply
    report endpoint result
    return result
  | _, .error e => return .error e
  | [], .ok _ => return .error (.invalidArgument .source .notCollection)

end Query

def Database.query (db : Database) (o : Options) : Action (Except QueryError Query) :=
  Query.new (db.resolveOptions o)

namespace Reference

def query (r : Reference) (o : Options) : Action (Except QueryError Query) :=
  Query.new (r.fillOptions o)

def decodeDocument (db : Database) (raw : Json) : Except ReadError Document :=
  match Document.decode db raw with
  | .ok d => .ok d
  | .error e => .error (.document e)

def outcome (db : Database) : Except TransportError Json → Except ReadError Document
  | .ok raw => decodeDocument db raw
  | .error e => .error (.transport e)

def report (endpoint : String) : Except ReadError Document → Action Unit
  | .ok _ => Action.log .documentRead [("endpoint", endpoint)]
  | .error e => Action.log .documentReadFailed
      [("code", e.code), ("endpoint", endpoint), ("message", e.message)]

def get (r : Reference) : Action (Except ReadError Document) :=
  if r.isDocument then do
    let reply ← Action.send ⟨r.database, .get, r.endpoint, none⟩
    let result := outcome r.database reply
    report r.endpoint result
    return result
  else return .error (.notADocument r.path)

end Reference

end DocStore
