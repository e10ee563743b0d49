import DocStore.Query.Filter

/-!
# Orders

Results are ordered by fields, each ascending or descending. A path alone means
ascending; an object may name the direction; an array lists several.
-/

set_option autoImplicit false

namespace DocStore

inductive Direction where
  | ascending
  | descending
  deriving DecidableEq

namespace Direction

def wireName : Direction → String
  | ascending => "ASCENDING"
  | descending => "DESCENDING"

def ofSymbol? (symbol : String) : Option Direction :=
  if symbol = "asc" then some ascending
  else if symbol = "desc" then some descending
  else none

end Direction

structure Order where
  path : String
  direction : Direction
  deriving DecidableEq

namespace Order

def directionOf (entries : List (String × Value)) : Except QueryError Direction :=
  match entries.lookup "direction" with
  | none => .ok .ascending
  | some d =>
    match d.string?.bind Direction.ofSymbol? with
    | some direction => .ok direction
    | none => .error (.invalidArgument .order .badDirection)

def parseOne : Value → Except QueryError Order
  | .string path => .ok ⟨path, .ascending⟩
  | .map entries =>
    match (entries.lookup "field").bind Value.string? with
    | none => .error (.invalidArgument .order .notOrder)
    | some path => (directionOf entries).map fun direction => ⟨path, direction⟩
  | _ => .error (.invalidArgument .order .notOrder)

def parse : Value → Except QueryError (List Order)
  | .array items => collect parseOne items
  | value => (parseOne value).map fun order => [order]

def toJson (o : Order) : Json :=
  .obj [("direction", .str o.direction.wireName), ("field", fieldPathToJson o.path)]

end Order

end DocStore
