import DocStore.Document.Error
import DocStore.Value.Basic

/-!
# Decoding wire values

A typed value is an object whose only key names the type. Arrays are decoded in
order and maps in the order of their keys; the first fault ends the decoding and
is reported with the path that leads to it. A missing list of elements or
entries counts as an empty one.
-/

set_option autoImplicit false

namespace DocStore

def entryPath (start : Option String) (key : String) : String :=
  match start with
  | none => key
  | some start => start ++ "." ++ key

def itemPath (field : String) (index : Nat) : String := field ++ "[" ++ natString index ++ "]"

def decodeInteger : Json → Except DocumentError Int64
  | .str s =>
    match (readInt? s.toList).bind int64? with
    | some i => .ok i
    | none => .error (.invalidInteger s)
  | .number n =>
    match n.toInt64? with
    | some i => .ok i
    | none => .error (.invalidInteger (Json.number n).render)
  | payload => .error (.invalidInteger payload.render)

def decodeDouble (field : String) : Json → Except DocumentError Double
  | .number n => .ok n.toDouble
  | .str s =>
    if s = "NaN" then .ok .nan
    else if s = "Infinity" then .ok (.infinity false)
    else if s = "-Infinity" then .ok (.infinity true)
    else .error (.unsupported field .notNumber)
  | _ => .error (.unsupported field .notNumber)

def decodeTimestamp (text : String) : Except DocumentError Timestamp :=
  match Timestamp.read? text with
  | some t => .ok t
  | none => .error (.invalidTimestamp text)

def decodeReference (db : Database) (name : String) : Except DocumentError Reference :=
  match db.referenceFromName? name with
  | some r => .ok r
  | none => .error (.invalidName name)

mutual

def decodeValue (db : Database) (field : String) : Json → Except DocumentError Value
  | .obj [(key, payload)] =>
    match Tag.ofName? key with
    | some .null => .ok .null
    | some .boolean =>
      match payload with
      | .bool b => .ok (.boolean b)
      | _ => .error (.unsupported field .notBoolean)
    | some .integer => (decodeInteger payload).map .integer
    | some .double => (decodeDouble field payload).map .double
    | some .string =>
      match payload with
      | .str s => .ok (.string s)
      | _ => .error (.unsupported field (.notString .string))
    | some .timestamp =>
      match payload with
      | .str s => (decodeTimestamp s).map .timestamp
      | _ => .error (.unsupported field (.notString .timestamp))
    | some .reference =>
      match payload with
      | .str s => (decodeReference db s).map .reference
      | _ => .error (.unsupported field (.notString .reference))
    | some .array =>
      match payload with
      | .obj members => (decodeValues db field members).map .array
      | _ => .ok (.array [])
    | some .map =>
      match payload with
      | .obj members => (decodeFields db field members).map .map
      | _ => .ok (.map [])
    | none => .error (.unsupported field (.unknownKind key))
  | _ => .error (.unsupported field .notSingleKey)

def decodeValues (db : Database) (field : String) :
    List (String × Json) → Except DocumentError (List Value)
  | [] => .ok []
  | (key, payload) :: members =>
    if key = valuesKey then
      match payload with
      | .arr items => decodeItems db field 0 items
      | _ => .error (.unsupported field .valuesNotArray)
    else decodeValues db field members

def decodeItems (db : Database) (field : String) (index : Nat) :
    List Json → Except DocumentError (List Value)
  | [] => .ok []
  | item :: items =>
    match decodeValue db (itemPath field index) item with
    | .error e => .error e
    | .ok v =>
      match decodeItems db field (index + 1) items with
      | .error e => .error e
      | .ok vs => .ok (v :: vs)

def decodeFields (db : Database) (field : String) :
    List (String × Json) → Except DocumentError (List (String × Value))
  | [] => .ok []
  | (key, payload) :: members =>
    if key = fieldsKey then
      match payload with
      | .obj entries => decodeEntries db (some field) entries
      | _ => .error (.unsupported field .fieldsNotObject)
    else decodeFields db field members

def decodeEntries (db : Database) (start : Option String) :
    List (String × Json) → Except DocumentError (List (String × Value))
  | [] => .ok []
  | (key, payload) :: entries =>
    match decodeValue db (entryPath start key) payload with
    | .error e => .error e
    | .ok v =>
      match decodeEntries db start entries with
      | .error e => .error e
      | .ok vs => .ok ((key, v) :: vs)

end

end DocStore
