import DocStore.Database.Basic
import DocStore.Number.Double
import DocStore.Time.Timestamp

/-!
# Values

What callers put into queries and what documents hold. The entries of a map
stand in the order of their keys, each key once.
-/

set_option autoImplicit false

namespace DocStore

inductive Value where
  | null
  | boolean (b : Bool)
  | integer (n : Int64)
  | double (x : Double)
  | string (s : String)
  | timestamp (t : Timestamp)
  | reference (r : Reference)
  | array (items : List Value)
  | map (entries : List (String × Value))
  deriving Inhabited

namespace Value

def kind : Value → String
  | null => "null"
  | boolean _ => "boolean"
  | integer _ => "integer"
  | double _ => "double"
  | string _ => "string"
  | timestamp _ => "timestamp"
  | reference _ => "reference"
  | array _ => "array"
  | map _ => "map"

def isNull : Value → Bool
  | null => true
  | _ => false

def isNaN : Value → Bool
  | double x => x.isNaN
  | _ => false

def string? : Value → Option String
  | string s => some s
  | _ => none

def integer? : Value → Option Int64
  | integer n => some n
  | _ => none

def reference? : Value → Option Reference
  | reference r => some r
  | _ => none

def array? : Value → Option (List Value)
  | array items => some items
  | _ => none

def map? : Value → Option (List (String × Value))
  | map entries => some entries
  | _ => none

mutual

/-- Equality of values: doubles compare as numbers, so NaN differs from itself, and references by
what they denote. -/
def equals : Value → Value → Bool
  | null, null => true
  | boolean a, boolean b => a = b
  | integer a, integer b => a = b
  | double a, double b => a.equals b
  | string a, string b => a = b
  | timestamp a, timestamp b => a = b
  | reference a, reference b => a == b
  | array as, array bs => equalItems as bs
  | map as, map bs => equalEntries as bs
  | _, _ => false

def equalItems : List Value → List Value → Bool
  | [], [] => true
  | a :: as, b :: bs => a.equals b && equalItems as bs
  | _, _ => false

def equalEntries : List (String × Value) → List (String × Value) → Bool
  | [], [] => true
  | (k, a) :: as, (l, b) :: bs => k = l && a.equals b && equalEntries as bs
  | _, _ => false

end

instance : BEq Value := ⟨equals⟩

end Value

end DocStore
