import DocStore.Transport
import DocStore.Value.Tag

/-!
# Document errors

Why a raw document or one of its values is refused, and why a document could not
be read.
-/

set_option autoImplicit false

namespace DocStore

inductive WireFault where
  | notSingleKey
  | unknownKind (key : String)
  | notBoolean
  | notString (tag : Tag)
  | notNumber
  | valuesNotArray
  | fieldsNotObject
  | other (reason : String)
  deriving DecidableEq

def WireFault.message : WireFault → String
  | notSingleKey => "expected a single-key typed value"
  | unknownKind key => "unknown value kind " ++ key
  | notBoolean => Tag.boolean.name ++ " is not a boolean"
  | notString tag => tag.name ++ " is not a string"
  | notNumber => Tag.double.name ++ " is not a number"
  | valuesNotArray => Tag.array.name ++ "." ++ valuesKey ++ " is not an array"
  | fieldsNotObject => fieldsKey ++ " is not an object"
  | other reason => reason

inductive DocumentError where
  | missingName
  | invalidName (name : String)
  | unsupported (field : String) (fault : WireFault)
  | invalidTimestamp (text : String)
  | invalidInteger (text : String)
  deriving DecidableEq

namespace DocumentError

def code : DocumentError → String
  | missingName => "DOCUMENT_MISSING_NAME"
  | invalidName _ => "DOCUMENT_INVALID_NAME"
  | unsupported _ _ => "DOCUMENT_UNSUPPORTED_VALUE"
  | invalidTimestamp _ => "DOCUMENT_INVALID_TIMESTAMP"
  | invalidInteger _ => "DOCUMENT_INVALID_INTEGER"

def message : DocumentError → String
  | missingName => "Document is missing its name"
  | invalidName name => "Document name " ++ name ++ " is outside this database"
  | unsupported field fault => "Unsupported value in field " ++ field ++ ": " ++ fault.message
  | invalidTimestamp text => "Invalid timestamp " ++ text
  | invalidInteger text => "Invalid integer " ++ text

end DocumentError

inductive ReadError where
  | notADocument (path : String)
  | transport (error : TransportError)
  | document (error : DocumentError)
  deriving DecidableEq

namespace ReadError

def code : ReadError → String
  | notADocument _ => "DOCUMENT_NOT_A_DOCUMENT"
  | transport e => e.code
  | document e => e.code

def message : ReadError → String
  | notADocument path => path ++ " is not a document reference"
  | transport e => e.message
  | document e => e.message

end ReadError

end DocStore
