import DocStore.Query.Error

/-!
# Filters

A condition names a field, an operator and an operand. Null and NaN are tested
by unary filters, the list operators take a list of scalars, all others one
scalar. Several conditions together form one conjunction in their order.
-/

set_option autoImplicit false

namespace DocStore

inductive Operator where
  | less
  | lessOrEqual
  | greater
  | greaterOrEqual
  | equal
  | notEqual
  | arrayContains
  | isIn
  | arrayContainsAny
  | notIn
  deriving DecidableEq

namespace Operator

def all : List Operator :=
  [less, lessOrEqual, greater, greaterOrEqual, equal, notEqual, arrayContains, isIn,
    arrayContainsAny, notIn]

def symbol : Operator → String
  | less => "<"
  | lessOrEqual => "<="
  | greater => ">"
  | greaterOrEqual => ">="
  | equal => "=="
  | notEqual => "!="
  | arrayContains => "array-contains"
  | isIn => "in"
  | arrayContainsAny => "array-contains-any"
  | notIn => "not-in"

def wireName : Operator → String
  | less => "LESS_THAN"
  | lessOrEqual => "LESS_THAN_OR_EQUAL"
  | greater => "GREATER_THAN"
  | greaterOrEqual => "GREATER_THAN_OR_EQUAL"
  | equal => "EQUAL"
  | notEqual => "NOT_EQUAL"
  | arrayContains => "ARRAY_CONTAINS"
  | isIn => "IN"
  | arrayContainsAny => "ARRAY_CONTAINS_ANY"
  | notIn => "NOT_IN"

def ofSymbol? (symbol : String) : Option Operator := all.find? fun op => op.symbol = symbol

def takesList : Operator → Bool
  | isIn => true
  | notIn => true
  | arrayContainsAny => true
  | _ => false

theorem ofSymbol?_symbol (op : Operator) : ofSymbol? op.symbol = some op := by cases op <;> rfl

end Operator

inductive UnaryOperator where
  | isNull
  | isNaN
  deriving DecidableEq

def UnaryOperator.wireName : UnaryOperator → String
  | isNull => "IS_NULL"
  | isNaN => "IS_NAN"

inductive Operand where
  | scalar (value : Scalar)
  | list (values : List Scalar)
  deriving DecidableEq

def Operand.toJson : Operand → Json
  | scalar value => value.toJson
  | list values => Scalar.listToJson values

inductive Filter where
  | field (path : String) (op : Operator) (operand : Operand)
  | unary (path : String) (op : UnaryOperator)
  | conjunction (filters : List Filter)

def fieldPathToJson (path : String) : Json := .obj [("fieldPath", .str path)]

namespace Filter

def unaryOf? : Value → Option UnaryOperator
  | .null => some .isNull
  | .double x => if x.isNaN then some .isNaN else none
  | _ => none

def operand (op : Operator) (value : Value) : Except Refusal Operand :=
  if op.takesList then
    match value with
    | .array (item :: items) =>
      match Value.encodeArray (item :: items) with
      | .ok values => .ok (.list values)
      | .error e => .error (.unencodable e)
    | _ => .error (.noList op.symbol)
  else
    match value.encode with
    | .ok s => .ok (.scalar s)
    | .error e => .error (.unencodable e)

def condition (path op value : Value) : Except QueryError Filter :=
  match path.string? with
  | none => .error (.invalidArgument .filter .badField)
  | some path =>
    match op.string?.bind Operator.ofSymbol? with
    | none => .error (.invalidArgument .filter .badOperator)
    | some op =>
      match unaryOf? value with
      | some test =>
        if op = .equal then .ok (.unary path test)
        else .error (.invalidArgument .filter .nullWithOperator)
      | none =>
        match operand op value with
        | .ok operand => .ok (.field path op operand)
        | .error refusal => .error (.invalidArgument .filter refusal)

def all : List Filter → Option Filter
  | [] => none
  | [filter] => some filter
  | filters => some (.conjunction filters)

def notFilter {α : Type} : Except QueryError α := .error (.invalidArgument .filter .notFilter)

def ofTriple : List Value → Except QueryError Filter
  | [path, op, value] => condition path op value
  | _ => notFilter

def arrayOf : Value → Except QueryError (List Value)
  | .array items => .ok items
  | _ => notFilter

def parse : Value → Except QueryError (Option Filter)
  | .array [] => .ok none
  | .array (.array first :: rest) =>
    match collect arrayOf (.array first :: rest) with
    | .error e => .error e
    | .ok triples => (collect ofTriple triples).map all
  | .array items => (ofTriple items).map some
  | _ => notFilter

mutual

def size : Filter → Nat
  | field _ _ _ => 1
  | unary _ _ => 1
  | conjunction filters => totalSize filters

def totalSize : List Filter → Nat
  | [] => 0
  | filter :: filters => filter.size + totalSize filters

end

mutual

def toJson : Filter → Json
  | field path op operand =>
    .obj [("fieldFilter", .obj [("field", fieldPathToJson path), ("op", .str op.wireName),
      ("value", operand.toJson)])]
  | unary path op =>
    .obj [("unaryFilter", .obj [("field", fieldPathToJson path), ("op", .str op.wireName)])]
  | conjunction filters =>
    .obj [("compositeFilter", .obj [("filters", .arr (listToJson filters)), ("op", .str "AND")])]

def listToJson : List Filter → List Json
  | [] => []
  | filter :: filters => filter.toJson :: listToJson filters

end

mutual

def equals : Filter → Filter → Bool
  | field p o x, field q o' y => p = q && o = o' && x = y
  | unary p o, unary q o' => p = q && o = o'
  | conjunction fs, conjunction gs => equalLists fs gs
  | _, _ => false

def equalLists : List Filter → List Filter → Bool
  | [], [] => true
  | f :: fs, g :: gs => f.equals g && equalLists fs gs
  | _, _ => false

end

instance : BEq Filter := ⟨equals⟩

end Filter

end DocStore
