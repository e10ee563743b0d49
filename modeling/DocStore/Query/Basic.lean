import DocStore.Query.Cursor
import DocStore.Query.Filter
import DocStore.Query.Options
import DocStore.Query.Order

/-!
# Queries

A query is made from options, every one of which is checked in a fixed order. It
reads from collections, and those can be replaced in a copy of it.
-/

set_option autoImplicit false

namespace DocStore

structure Source where
  reference : Reference
  allDescendants : Option Bool
  deriving DecidableEq

instance : BEq Source where
  beq a b := a.reference == b.reference && a.allDescendants == b.allDescendants

structure Query where
  select : List String
  sources : List Source
  filter : Option Filter
  orders : List Order
  startAt : Option Cursor
  endAt : Option Cursor
  offset : Option Nat
  limit : Option Nat

namespace Query

instance : BEq Query where
  beq a b := a.select == b.select && a.sources == b.sources && a.filter == b.filter &&
    a.orders == b.orders && a.startAt == b.startAt && a.endAt == b.endAt &&
    a.offset == b.offset && a.limit == b.limit

def parsePaths (index : Nat) : List Value → Except QueryError (List String)
  | [] => .ok []
  | item :: items =>
    match item with
    | .string path => (parsePaths (index + 1) items).map (path :: ·)
    | _ => .error (.invalidArgument .select (.notPathAt index))

def parseSelect : Value → Except QueryError (List String)
  | .array items => parsePaths 0 items
  | _ => .error (.invalidArgument .select .notPathArray)

def parseSource (allDescendants : Option Bool) : Value → Except QueryError Source
  | .reference r =>
    if r.isCollection then .ok ⟨r, allDescendants⟩
    else .error (.invalidArgument .source .notCollection)
  | _ => .error (.invalidArgument .source .notCollection)

def parseSources (allDescendants : Option Bool) : Option Value → Except QueryError (List Source)
  | some (.array (item :: items)) => collect (parseSource allDescendants) (item :: items)
  | some (.reference r) => collect (parseSource allDescendants) [.reference r]
  | _ => .error (.invalidArgument .source .notCollection)

def maxCount : Nat := 2147483647

def countOf? : Value → Option Int64
  | .integer n => some n
  | .double x => if x.isWhole then some x.clampToInt64 else none
  | _ => none

def parseCount (argument : Argument) (value : Value) : Except QueryError Nat :=
  match countOf? value with
  | some n =>
    if 0 ≤ n.toInt ∧ n.toInt ≤ maxCount then .ok (low32 n)
    else .error (.invalidArgument argument .notCount)
  | none => .error (.invalidArgument argument .notCount)

def optional {α : Type} (parse : Value → Except QueryError α) :
    Option Value → Except QueryError (Option α)
  | none => .ok none
  | some value => (parse value).map some

def ofOptions (o : Options) : Except QueryError Query := do
  let select ← optional parseSelect o.select
  let sources ← parseSources o.allDescendants o.source
  let filter ← optional Filter.parse o.filter
  let orders ← optional Order.parse o.order
  let startAt ← optional (Cursor.parse .startAt) o.startAt
  let endAt ← optional (Cursor.parse .endAt) o.endAt
  let offset ← optional (parseCount .offset) o.offset
  let limit ← optional (parseCount .limit) o.limit
  return ⟨select.getD [], sources, filter.join, orders.getD [], startAt, endAt, offset, limit⟩

def withSources (q : Query) (source : Value) (allDescendants : Option Bool) :
    Except QueryError Query :=
  (parseSources allDescendants (some source)).map fun sources => { q with sources }

def conditionCount (q : Query) : Nat :=
  match q.filter with
  | none => 0
  | some filter => filter.size

end Query

mutual

def Value.resolvePaths (db : Database) : Value → Value
  | .string path => .reference (db.reference path)
  | .array items => .array (Value.resolveItems db items)
  | .null => .null
  | .boolean b => .boolean b
  | .integer n => .integer n
  | .double x => .double x
  | .timestamp t => .timestamp t
  | .reference r => .reference r
  | .map entries => .map entries

def Value.resolveItems (db : Database) : List Value → List Value
  | [] => []
  | item :: items => item.resolvePaths db :: Value.resolveItems db items

end

def Database.resolveOptions (db : Database) (o : Options) : Options :=
  { o with source := o.source.map (Value.resolvePaths db) }

def Reference.fillOptions (r : Reference) (o : Options) : Options :=
  { o with source := some (o.source.getD (.reference r)) }

end DocStore
