import DocStore.Document.Error
import DocStore.Path.Address
import DocStore.Value.Scalar

/-!
# Query errors

An option of the wrong shape or meaning is refused by name and with a reason
before anything is sent. All other errors come from running a query.
-/

set_option autoImplicit false

namespace DocStore

inductive Argument where
  | options
  | select
  | source
  | allDescendants
  | filter
  | order
  | startAt
  | endAt
  | offset
  | limit
  deriving DecidableEq

def Argument.name : Argument → String
  | options => "options"
  | select => "select"
  | source => "from"
  | allDescendants => "allDescendants"
  | filter => "where"
  | order => "orderBy"
  | startAt => "startAt"
  | endAt => "endAt"
  | offset => "offset"
  | limit => "limit"

inductive Refusal where
  | notObject
  | notBoolean
  | notPathArray
  | notPathAt (index : Nat)
  | notCollection
  | notFilter
  | badField
  | badOperator
  | nullWithOperator
  | noList (operator : String)
  | unencodable (error : ValueError)
  | notOrder
  | badDirection
  | notDocument
  | notCount
  | other (reason : String)
  deriving DecidableEq

def Refusal.message : Refusal → String
  | notObject => "Expected an object"
  | notBoolean => "Expected a boolean"
  | notPathArray => "Expected argument to be an array of field paths"
  | notPathAt index => "Field path at index [" ++ natString index ++ "] is not a string"
  | notCollection => "Expected a reference to a collection"
  | notFilter => "Expected a filter or an array of filters"
  | badField => "Invalid field path"
  | badOperator => "Invalid operator"
  | nullWithOperator => "Null and NaN can only be used with the == operator"
  | noList operator => "The \"" ++ operator ++ "\" operator requires a non-empty array of values"
  | unencodable error => error.message
  | notOrder => "Expected a field path or an order object"
  | badDirection => "\"direction\" property can only be \"asc\" or \"desc\""
  | notDocument => "Expected a reference to a document"
  | notCount => "Expected an integer that is greater than 0"
  | other reason => reason

inductive QueryError where
  | invalidArgument (argument : Argument) (refusal : Refusal)
  | path (error : PathError)
  | transport (error : TransportError)
  | document (error : DocumentError)
  | unexpectedResponse (detail : String)
  | serialization (detail : String)
  deriving DecidableEq

namespace QueryError

def code : QueryError → String
  | invalidArgument _ _ => "QUERY_INVALID_ARGUMENT"
  | path e => e.code
  | transport e => e.code
  | document e => e.code
  | unexpectedResponse _ => "QUERY_UNEXPECTED_RESPONSE"
  | serialization _ => "QUERY_SERIALIZATION_FAILED"

def message : QueryError → String
  | invalidArgument argument refusal =>
    "Invalid argument \"" ++ argument.name ++ "\": " ++ refusal.message
  | path e => e.message
  | transport e => e.message
  | document e => e.message
  | unexpectedResponse detail => "Unexpected runQuery response: " ++ detail
  | serialization detail => "Failed to serialize query: " ++ detail

def isValidation : QueryError → Bool
  | invalidArgument _ _ => true
  | _ => false

def argument? : QueryError → Option Argument
  | invalidArgument argument _ => some argument
  | _ => none

end QueryError

end DocStore
