import DocStore.Query.Error
import DocStore.Value.Plain

/-!
# Query options

The options of a query as the caller gives them, with nothing checked but the
flag for descendants.
-/

set_option autoImplicit false

namespace DocStore

structure Options where
  select : Option Value := none
  source : Option Value := none
  allDescendants : Option Bool := none
  filter : Option Value := none
  order : Option Value := none
  startAt : Option Value := none
  endAt : Option Value := none
  offset : Option Value := none
  limit : Option Value := none

namespace Options

def flagOf (members : List (String × Json)) : Except QueryError (Option Bool) :=
  match members.lookup Argument.allDescendants.name with
  | none => .ok none
  | some (.bool b) => .ok (some b)
  | some _ => .error (.invalidArgument .allDescendants .notBoolean)

def ofJson (db : Database) : Json → Except QueryError Options
  | .obj members =>
    let value (argument : Argument) := (members.lookup argument.name).map (Value.ofJson db)
    match flagOf members with
    | .error e => .error e
    | .ok allDescendants => .ok {
        select := value .select
        source := value .source
        allDescendants
        filter := value .filter
        order := value .order
        startAt := value .startAt
        endAt := value .endAt
        offset := value .offset
        limit := value .limit }
  | _ => .error (.invalidArgument .options .notObject)

end Options

end DocStore
