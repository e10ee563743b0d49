import DocStore.File
import DocStore.Json.Complaint

/-!
# Configuration errors

What can go wrong with the settings of a database: the file cannot be read, its
text does not describe settings, or the settings cannot address a database.
-/

set_option autoImplicit false

namespace DocStore

inductive Setting where
  | projectId
  | databaseId
  | host
  | ssl
  | authToken
  | timeoutSecs
  deriving DecidableEq

namespace Setting

def key : Setting → String
  | projectId => "project_id"
  | databaseId => "database_id"
  | host => "host"
  | ssl => "ssl"
  | authToken => "auth_token"
  | timeoutSecs => "timeout_secs"

def all : List Setting := [projectId, databaseId, host, ssl, authToken, timeoutSecs]

def ofKey? (key : String) : Option Setting := all.find? fun s => s.key = key

def expected : Setting → String
  | projectId => "a string"
  | databaseId => "a string"
  | host => "a string"
  | ssl => "a boolean"
  | authToken => "a string"
  | timeoutSecs => "u64"

theorem ofKey?_key (s : Setting) : ofKey? s.key = some s := by cases s <;> rfl

end Setting

def settingsName : String := "struct DatabaseConfig"

inductive ConfigFault where
  | syntaxError
  | missing (setting : Setting)
  | duplicate (setting : Setting)
  | wrongType (found expected : String)
  | negativeCount (n : Int)
  | noElements
  | tooManyElements (count : Nat)
  deriving DecidableEq

/-- What is wrong, without the place. Faults of syntax are told in the words of the complaint. -/
def ConfigFault.message (complaint : Complaint) : ConfigFault → String
  | syntaxError => complaint.reason
  | missing s => "missing field `" ++ s.key ++ "`"
  | duplicate s => "duplicate field `" ++ s.key ++ "`"
  | wrongType found expected => "invalid type: " ++ found ++ ", expected " ++ expected
  | negativeCount n =>
    "invalid value: integer `" ++ intString n ++ "`, expected " ++ Setting.timeoutSecs.expected
  | noElements => "invalid length 0, expected " ++ settingsName ++ " with 6 elements"
  | tooManyElements count =>
    "invalid length " ++ natString count ++ ", expected fewer elements in array"

inductive ConfigDefect where
  | emptySetting (setting : Setting)
  | zeroTimeout
  deriving DecidableEq

def ConfigDefect.message : ConfigDefect → String
  | emptySetting s => s.key ++ " must not be empty"
  | zeroTimeout => "timeout_secs must be > 0"

inductive ConfigError where
  | read (error : FileError)
  | parse (fault : ConfigFault) (text : String)
  | invalid (defect : ConfigDefect)
  deriving DecidableEq

namespace ConfigError

def code : ConfigError → String
  | read _ => "CONFIG_READ_FAILED"
  | parse _ _ => "CONFIG_PARSE_FAILED"
  | invalid _ => "CONFIG_INVALID"

def message (wording : Wording) : ConfigError → String
  | read e => "Failed to read config: " ++ e.message
  | parse f text =>
    "Invalid config JSON: " ++ f.message (wording.settings text) ++ (wording.settings text).place
  | invalid d => "Invalid config: " ++ d.message

end ConfigError

end DocStore
