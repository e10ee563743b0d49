import DocStore.Collect
import DocStore.Json.Basic
import DocStore.Value.Basic
import DocStore.Value.Tag

/-!
# Wire scalars

The typed values that the wire carries one by one. Whole doubles that fit 64
bits become integers, references become resource names, and arrays and maps have
no scalar form. On the wire a scalar is an object whose only key names its type.
-/

set_option autoImplicit false

namespace DocStore

inductive Scalar where
  | null
  | boolean (b : Bool)
  | integer (n : Int64)
  | double (x : Double)
  | timestamp (t : Timestamp)
  | string (s : String)
  | reference (name : String)
  deriving DecidableEq

inductive ValueError where
  | unsupported (kind : String)
  deriving DecidableEq

namespace ValueError

def code : ValueError → String
  | unsupported _ => "VALUE_UNSUPPORTED_TYPE"

def message : ValueError → String
  | unsupported kind => "Unsupported value type: " ++ kind

end ValueError

def Double.toInt64? (x : Double) : Option Int64 :=
  match x.toInt? with
  | some n => int64? n
  | none => none

def Double.clampToInt64 : Double → Int64
  | finite x => clampInt64 x.wholePart
  | infinity negative => if negative then Int64.minValue else Int64.maxValue
  | nan => 0

def Double.toWireJson : Double → Json
  | finite x => .number (.double x)
  | nan => .str "NaN"
  | infinity false => .str "Infinity"
  | infinity true => .str "-Infinity"

def Tag.toJson (tag : Tag) (payload : Json) : Json := .obj [(tag.name, payload)]

namespace Scalar

def toJson : Scalar → Json
  | null => Tag.null.toJson .null
  | boolean b => Tag.boolean.toJson (.bool b)
  | integer n => Tag.integer.toJson (.str (intString n.toInt))
  | double x => Tag.double.toJson x.toWireJson
  | timestamp t => Tag.timestamp.toJson (.str t.render)
  | string s => Tag.string.toJson (.str s)
  | reference name => Tag.reference.toJson (.str name)

/-- Equality of scalars: doubles compare as numbers, where NaN counts as one. -/
def equals : Scalar → Scalar → Bool
  | double x, double y => x.equals y || (x.isNaN && y.isNaN)
  | s, t => s = t

def listToJson (items : List Scalar) : Json :=
  Tag.array.toJson (.obj [(valuesKey, .arr (items.map toJson))])

end Scalar

namespace Value

def encode : Value → Except ValueError Scalar
  | null => .ok .null
  | boolean b => .ok (.boolean b)
  | integer n => .ok (.integer n)
  | double x =>
    match x.toInt64? with
    | some n => .ok (.integer n)
    | none => .ok (.double x)
  | string s => .ok (.string s)
  | timestamp t => .ok (.timestamp t)
  | reference r => .ok (.reference r.name)
  | array items => .error (.unsupported (array items).kind)
  | map entries => .error (.unsupported (map entries).kind)

def encodeArray (items : List Value) : Except ValueError (List Scalar) := collect encode items

end Value

end DocStore
