/-!
# Wire tags

The keys by which the wire names the type of a value.
-/

set_option autoImplicit false

namespace DocStore

inductive Tag where
  | null
  | boolean
  | integer
  | double
  | string
  | timestamp
  | reference
  | array
  | map
  deriving DecidableEq

namespace Tag

def name : Tag → String
  | null => "nullValue"
  | boolean => "booleanValue"
  | integer => "integerValue"
  | double => "doubleValue"
  | string => "stringValue"
  | timestamp => "timestampValue"
  | reference => "referenceValue"
  | array => "arrayValue"
  | map => "mapValue"

def all : List Tag :=
  [null, boolean, integer, double, string, timestamp, reference, array, map]

def ofName? (name : String) : Option Tag := all.find? fun t => t.name = name

theorem ofName?_name (t : Tag) : ofName? t.name = some t := by cases t <;> rfl

theorem name_of_ofName? {name : String} {t : Tag} (h : ofName? name = some t) : t.name = name := by
  simpa using List.find?_some h

end Tag

def valuesKey : String := "values"

def fieldsKey : String := "fields"

end DocStore
