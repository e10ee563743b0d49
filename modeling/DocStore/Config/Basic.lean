import DocStore.Config.Error
import DocStore.Text.Blank

/-!
# Configuration

The settings by which one remote database is reached. Every setting but the
project has a default.
-/

set_option autoImplicit false

namespace DocStore

structure Config where
  projectId : String
  databaseId : String := "(default)"
  host : String := "firestore.googleapis.com"
  ssl : Bool := true
  authToken : Option String := none
  timeoutSecs : UInt64 := 30
  deriving DecidableEq

namespace Config

def defect? (c : Config) : Option ConfigDefect :=
  if isBlankText c.projectId then some (.emptySetting .projectId)
  else if isBlankText c.databaseId then some (.emptySetting .databaseId)
  else if isBlankText c.host then some (.emptySetting .host)
  else if c.timeoutSecs = 0 then some .zeroTimeout
  else none

def Valid (c : Config) : Prop := c.defect? = none

instance (c : Config) : Decidable c.Valid := inferInstanceAs (Decidable (_ = _))

def validate (c : Config) : Except ConfigError Unit :=
  match c.defect? with
  | some d => .error (.invalid d)
  | none => .ok ()

def withHost (c : Config) (host : String) (ssl : Bool) : Config := { c with host, ssl }

def withAuthToken (c : Config) (token : String) : Config := { c with authToken := some token }

def rootPath (c : Config) : String :=
  "projects/" ++ c.projectId ++ "/databases/" ++ c.databaseId ++ "/documents"

def endpoint (c : Config) : String :=
  (if c.ssl then "https" else "http") ++ "://" ++ c.host ++ "/v1/" ++ c.rootPath

end Config

end DocStore
