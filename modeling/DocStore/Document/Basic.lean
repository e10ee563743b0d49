import DocStore.Document.Decode
import DocStore.Value.Plain

/-!
# Documents

A document of a database: its reference, its fields, and the times of its
creation and last update where the remote side gives them.
-/

set_option autoImplicit false

namespace DocStore

structure Document where
  reference : Reference
  fields : List (String × Value)
  createTime : Option Timestamp
  updateTime : Option Timestamp

namespace Document

def decodeName (db : Database) (raw : Json) : Except DocumentError Reference :=
  match (raw.get? "name").bind Json.str? with
  | none => .error .missingName
  | some name =>
    match decodeReference db name with
    | .error e => .error e
    | .ok r => if r.isDocument then .ok r else .error (.invalidName name)

def decodeAllFields (db : Database) (raw : Json) : Except DocumentError (List (String × Value)) :=
  match raw.get? fieldsKey with
  | none => .ok []
  | some (.obj entries) => decodeEntries db none entries
  | some _ => .error (.unsupported fieldsKey .fieldsNotObject)

def decodeTime (key : String) (raw : Json) : Except DocumentError (Option Timestamp) :=
  match (raw.get? key).bind Json.str? with
  | none => .ok none
  | some text => (decodeTimestamp text).map some

def decode (db : Database) (raw : Json) : Except DocumentError Document := do
  let reference ← decodeName db raw
  let fields ← decodeAllFields db raw
  let createTime ← decodeTime "createTime" raw
  let updateTime ← decodeTime "updateTime" raw
  return ⟨reference, fields, createTime, updateTime⟩

def id (d : Document) : String := d.reference.id

def get? (d : Document) (field : String) : Option Value := d.fields.lookup field

def timeToJson : Option Timestamp → Json
  | none => .null
  | some t => .str t.render

def toJson (d : Document) : Json :=
  .obj [("createTime", timeToJson d.createTime),
    ("fields", .obj (Value.toMembers d.fields)),
    ("name", .str d.reference.name),
    ("updateTime", timeToJson d.updateTime)]

end Document

end DocStore
