import DocStore.Query.Basic

/-!
# Request bodies

A query on the wire. Parts that are absent or empty are left out.
-/

set_option autoImplicit false

namespace DocStore

def Source.toJson (s : Source) : Json :=
  .obj (Json.optional "allDescendants" (s.allDescendants.map .bool) ++
    [("collectionId", .str s.reference.id)])

namespace Query

def unlessEmpty : List Json → Option (List Json)
  | [] => none
  | items => some items

def selectToJson (q : Query) : Option Json :=
  (unlessEmpty (q.select.map fieldPathToJson)).map fun fields => .obj [("fields", .arr fields)]

def structured (q : Query) : Json :=
  .obj (Json.optional "endAt" (q.endAt.map Cursor.toJson) ++
    [("from", .arr (q.sources.map Source.toJson))] ++
    Json.optional "limit" (q.limit.map Json.ofNat) ++
    Json.optional "offset" (q.offset.map Json.ofNat) ++
    Json.optional "orderBy" ((unlessEmpty (q.orders.map Order.toJson)).map .arr) ++
    Json.optional "select" q.selectToJson ++
    Json.optional "startAt" (q.startAt.map Cursor.toJson) ++
    Json.optional "where" (q.filter.map Filter.toJson))

def toJson (q : Query) : Json := .obj [("structuredQuery", q.structured)]

def endpoint (q : Query) : Except QueryError String :=
  match q.sources with
  | [] => .error (.invalidArgument .source .notCollection)
  | source :: _ =>
    match source.reference.parent with
    | .error e => .error (.path e)
    | .ok parent => .ok (parent.endpoint ++ ":runQuery")

end Query

end DocStore
