import DocStore.Config.Basic
import DocStore.Json.Printer
import DocStore.Json.Token
import DocStore.Text.Quoted

/-!
# Reading a configuration

Settings are read from tokens, one after the other, and the first fault ends the
reading: what stands behind it is never looked at. They come as an object in any
order, where other keys and their values are skipped, or as an array in the
order of the settings, which may stop early.
-/

set_option autoImplicit false

namespace DocStore

/-- What a token begins, in the words of messages. Tokens that begin no value, numbers without a
value and texts without content are faults of the text itself. -/
def Token.describe : Token → Except ConfigFault String
  | null => .ok "null"
  | bool b => .ok ("boolean `" ++ (if b then "true" else "false") ++ "`")
  | number (some (.integer n)) => .ok ("integer `" ++ intString n ++ "`")
  | number (some (.double x)) =>
    .ok ("floating point `" ++ String.ofList (Json.numberLayout.render x) ++ "`")
  | text (some s) => .ok ("string " ++ quoted s)
  | openArray => .ok "sequence"
  | openObject => .ok "map"
  | _ => .error .syntaxError

def Token.mismatch {α : Type} (token : Token) (expected : String) : Except ConfigFault α :=
  match token.describe with
  | .ok found => .error (.wrongType found expected)
  | .error fault => .error fault

namespace Config

structure Draft where
  projectId : Option String := none
  databaseId : Option String := none
  host : Option String := none
  ssl : Option Bool := none
  authToken : Option (Option String) := none
  timeoutSecs : Option UInt64 := none

namespace Draft

def has (d : Draft) : Setting → Bool
  | .projectId => d.projectId.isSome
  | .databaseId => d.databaseId.isSome
  | .host => d.host.isSome
  | .ssl => d.ssl.isSome
  | .authToken => d.authToken.isSome
  | .timeoutSecs => d.timeoutSecs.isSome

def read (d : Draft) : Setting → Token → Except ConfigFault Draft
  | .projectId, .text (some s) => .ok { d with projectId := some s }
  | .databaseId, .text (some s) => .ok { d with databaseId := some s }
  | .host, .text (some s) => .ok { d with host := some s }
  | .ssl, .bool b => .ok { d with ssl := some b }
  | .authToken, .null => .ok { d with authToken := some none }
  | .authToken, .text (some s) => .ok { d with authToken := some (some s) }
  | .timeoutSecs, .number (some (.integer n)) =>
    if n < 0 then .error (.negativeCount n)
    else .ok { d with timeoutSecs := some (.ofNat n.toNat) }
  | setting, token => token.mismatch setting.expected

def finish (d : Draft) : Except ConfigFault Config :=
  match d.projectId with
  | none => .error (.missing .projectId)
  | some projectId =>
    let c : Config := { projectId }
    .ok {
      projectId
      databaseId := d.databaseId.getD c.databaseId
      host := d.host.getD c.host
      ssl := d.ssl.getD c.ssl
      authToken := d.authToken.getD c.authToken
      timeoutSecs := d.timeoutSecs.getD c.timeoutSecs }

def close (d : Draft) (rest : List Token) : Except ConfigFault Config :=
  match d.finish with
  | .error fault => .error fault
  | .ok c => if rest = [] then .ok c else .error .syntaxError

end Draft

inductive Bracket where
  | array
  | object
  deriving DecidableEq

mutual

def readMember (d : Draft) : List Token → Except ConfigFault Config
  | .text (some key) :: rest =>
    match Setting.ofKey? key with
    | some setting =>
      if d.has setting then .error (.duplicate setting)
      else match rest with
        | .colon :: token :: rest =>
          match d.read setting token with
          | .ok d => readNext d rest
          | .error fault => .error fault
        | _ => .error .syntaxError
    | none =>
      match rest with
      | .colon :: rest => skipValue d [] rest
      | _ => .error .syntaxError
  | _ => .error .syntaxError

def readNext (d : Draft) : List Token → Except ConfigFault Config
  | .comma :: rest => readMember d rest
  | .closeObject :: rest => d.close rest
  | _ => .error .syntaxError

def skipValue (d : Draft) (opened : List Bracket) : List Token → Except ConfigFault Config
  | .null :: rest => skipNext d opened rest
  | .bool _ :: rest => skipNext d opened rest
  | .number _ :: rest => skipNext d opened rest
  | .text _ :: rest => skipNext d opened rest
  | .openArray :: .closeArray :: rest => skipNext d opened rest
  | .openArray :: rest => skipValue d (.array :: opened) rest
  | .openObject :: .closeObject :: rest => skipNext d opened rest
  | .openObject :: .text _ :: .colon :: rest => skipValue d (.object :: opened) rest
  | _ => .error .syntaxError

def skipNext (d : Draft) (opened : List Bracket) : List Token → Except ConfigFault Config
  | .comma :: rest =>
    match opened, rest with
    | [], rest => readMember d rest
    | .array :: opened, rest => skipValue d (.array :: opened) rest
    | .object :: opened, .text _ :: .colon :: rest => skipValue d (.object :: opened) rest
    | _, _ => .error .syntaxError
  | .closeArray :: rest =>
    match opened with
    | .array :: opened => skipNext d opened rest
    | _ => .error .syntaxError
  | .closeObject :: rest =>
    match opened with
    | [] => d.close rest
    | .object :: opened => skipNext d opened rest
    | .array :: _ => .error .syntaxError
  | _ => .error .syntaxError

end

def readElements (d : Draft) : List Setting → List Token → Except ConfigFault Config
  | _, .closeArray :: rest => d.close rest
  | setting :: settings, .comma :: token :: rest =>
    match d.read setting token with
    | .ok d => readElements d settings rest
    | .error fault => .error fault
  | _, _ => .error .syntaxError

def readArray : List Token → Except ConfigFault Config
  -- Unlike a text that breaks off here, an array without elements has a fault of its own.
  | .closeArray :: _ => .error .noElements
  | token :: rest =>
    match Draft.read {} .projectId token with
    | .ok d => readElements d (Setting.all.drop 1) rest
    | .error fault => .error fault
  | [] => .error .syntaxError

def ofTokens : List Token → Except ConfigFault Config
  | .openObject :: .closeObject :: rest => Draft.close {} rest
  | .openObject :: rest => readMember {} rest
  | .openArray :: rest => readArray rest
  | token :: _ => token.mismatch settingsName
  | [] => .error .syntaxError

def ofJson : Json → Except ConfigFault Config
  | .arr items =>
    match ofTokens (Json.arr (items.take Setting.all.length)).tokens with
    | .error fault => .error fault
    | .ok c =>
      -- The elements are counted only once all the settings have been read.
      if Setting.all.length < items.length then .error (.tooManyElements items.length) else .ok c
  | j => ofTokens j.tokens

def load (content : FileContent) : Except ConfigError Config :=
  match content.text with
  | .error e => .error (.read e)
  | .ok text =>
    match ofTokens (Token.scan text.toList) with
    | .error fault => .error (.parse fault text)
    | .ok c =>
      match c.validate with
      | .error e => .error e
      | .ok () => .ok c

end Config

end DocStore
