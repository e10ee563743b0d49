import DocStore.Query.Error

/-!
# Cursors

A cursor is a position in the results. Only a document marks one: the results
begin or end before it.
-/

set_option autoImplicit false

namespace DocStore

structure Cursor where
  values : List Scalar
  before : Bool
  deriving DecidableEq

namespace Cursor

def parse (argument : Argument) : Value → Except QueryError Cursor
  | .reference r =>
    if r.isDocument then .ok ⟨[.reference r.name], true⟩
    else .error (.invalidArgument argument .notDocument)
  | _ => .error (.invalidArgument argument .notDocument)

def toJson (c : Cursor) : Json :=
  .obj [("before", .bool c.before), ("values", .arr (c.values.map Scalar.toJson))]

end Cursor

end DocStore
