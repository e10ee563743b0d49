import DocStore.Config.Error
import DocStore.Query.Error

/-!
# Command errors

All that can end a command: faulty arguments or input of its own, or an error of
the configuration, the query or the reading that it carries on unchanged.
-/

set_option autoImplicit false

namespace DocStore

inductive CommandError where
  | usage (message : String)
  | input (message : String)
  | notJson (text : String)
  | config (error : ConfigError)
  | query (error : QueryError)
  | read (error : ReadError)
  deriving DecidableEq

namespace CommandError

def code : CommandError → String
  | usage _ => "CLI_USAGE"
  | input _ => "CLI_IO_ERROR"
  | notJson _ => "CLI_IO_ERROR"
  | config e => e.code
  | query e => e.code
  | read e => e.code

def message (wording : Wording) : CommandError → String
  | usage message => message
  | input message => message
  | notJson text => "JSON error: " ++ (wording.value text).message
  | config e => e.message wording
  | query e => e.message
  | read e => e.message

def describe (wording : Wording) (e : CommandError) : String :=
  e.code ++ ": " ++ e.message wording

def unknownLevel (name : String) : CommandError := usage ("Invalid log level: " ++ name)

def emptyInput : CommandError := input "Empty input"

end CommandError

end DocStore
