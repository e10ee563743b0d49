import DocStore.Json.Basic
import DocStore.Value.Basic

/-!
# Plain JSON

Values as callers write them in JSON and as they are displayed. An object whose
only key is `$ref` stands for a reference when it holds a path; every other
object is a map.
-/

set_option autoImplicit false

namespace DocStore

def referenceKey : String := "$ref"

def JsonNumber.toValue (n : JsonNumber) : Value :=
  match n.toInt64? with
  | some i => .integer i
  | none => .double n.toDouble

def Double.toPlainJson : Double → Json
  | finite x => .number (.double x)
  | nan => .str "NaN"
  | infinity false => .str "inf"
  | infinity true => .str "-inf"

namespace Value

mutual

def ofJson (db : Database) : Json → Value
  | .null => null
  | .bool b => boolean b
  | .number n => n.toValue
  | .str s => string s
  | .arr items => array (ofItems db items)
  | .obj [(key, .str path)] =>
    if key = referenceKey then reference (db.reference path) else map [(key, string path)]
  | .obj members => map (ofMembers db members)

def ofItems (db : Database) : List Json → List Value
  | [] => []
  | item :: items => ofJson db item :: ofItems db items

def ofMembers (db : Database) : List (String × Json) → List (String × Value)
  | [] => []
  | (key, value) :: members => (key, ofJson db value) :: ofMembers db members

end

mutual

def toJson : Value → Json
  | null => .null
  | boolean b => .bool b
  | integer n => .ofInt n.toInt
  | double x => x.toPlainJson
  | string s => .str s
  | timestamp t => .str t.render
  | reference r => .str r.name
  | array items => .arr (toItems items)
  | map entries => .obj (toMembers entries)

def toItems : List Value → List Json
  | [] => []
  | item :: items => item.toJson :: toItems items

def toMembers : List (String × Value) → List (String × Json)
  | [] => []
  | (key, value) :: entries => (key, value.toJson) :: toMembers entries

end

end Value

end DocStore
