import DocStore.Database.Basic
import DocStore.Json.Printer
import DocStore.Json.Reader
import DocStore.Text.Utf8

/-!
# Requests

What is sent to the remote side and what may come back: a JSON value, or one of
three failures. A network answers every request; it is a function, so what a
program asks of it is all that matters about a run.
-/

set_option autoImplicit false

namespace DocStore

inductive Method where
  | get
  | post
  deriving DecidableEq

def Method.name : Method → String
  | get => "GET"
  | post => "POST"

structure Request where
  database : Database
  method : Method
  endpoint : String
  body : Option Json

inductive TransportError where
  | request (endpoint reason : String)
  | status (status : Nat) (body : String)
  | invalidJson (reason : String)
  deriving DecidableEq

namespace TransportError

def code : TransportError → String
  | request _ _ => "TRANSPORT_REQUEST_FAILED"
  | status _ _ => "TRANSPORT_BAD_STATUS"
  | invalidJson _ => "TRANSPORT_INVALID_JSON"

def message : TransportError → String
  | request endpoint reason => "Request to " ++ endpoint ++ " failed: " ++ reason
  | status number body => "Remote returned status " ++ natString number ++ ": " ++ body
  | invalidJson reason => "Invalid JSON response: " ++ reason

end TransportError

abbrev Network := Request → Except TransportError Json

def readReply (status : Nat) (body : List UInt8) : Except TransportError Json :=
  if 200 ≤ status ∧ status ≤ 299 then
    match (readUtf8? body).bind Json.read? with
    | some j => .ok j
    | none => .error (.invalidJson "error decoding response body")
  else .error (.status status (readUtf8Lossy body))

def Config.authorization (c : Config) : Option String := c.authToken.map ("Bearer " ++ ·)

end DocStore
