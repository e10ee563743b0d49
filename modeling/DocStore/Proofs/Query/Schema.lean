import DocStore.Proofs.Query.Invariant

/-!
# The schema of request bodies

The grammar of structured queries is written down key by key, apart from the
functions that print them. Main statement: the body of every query that can be
reached is a sentence of this grammar, and there is a URL to send it to. How
JSON values become text is no part of it.
-/

set_option autoImplicit false

namespace DocStore

namespace Wire

inductive IsScalar : Json → Prop
  | null : IsScalar (.obj [("nullValue", .null)])
  | boolean (b : Bool) : IsScalar (.obj [("booleanValue", .bool b)])
  | integer (n : Int64) : IsScalar (.obj [("integerValue", .str (intString n.toInt))])
  | double (x : FiniteDouble) : IsScalar (.obj [("doubleValue", .number (.double x))])
  | word {s : String} (h : s ∈ ["NaN", "Infinity", "-Infinity"]) :
      IsScalar (.obj [("doubleValue", .str s)])
  | timestamp (t : Timestamp) : IsScalar (.obj [("timestampValue", .str t.render)])
  | string (s : String) : IsScalar (.obj [("stringValue", .str s)])
  | reference (name : String) : IsScalar (.obj [("referenceValue", .str name)])

def arrayOf (items : List Json) : Json := .obj [("arrayValue", .obj [("values", .arr items)])]

def operators : List String :=
  ["LESS_THAN", "LESS_THAN_OR_EQUAL", "GREATER_THAN", "GREATER_THAN_OR_EQUAL", "EQUAL",
    "NOT_EQUAL", "ARRAY_CONTAINS", "IN", "ARRAY_CONTAINS_ANY", "NOT_IN"]

def listOperators : List String := ["IN", "NOT_IN", "ARRAY_CONTAINS_ANY"]

structure IsOperand (op : String) (value : Json) : Prop where
  list : (∃ item items, value = arrayOf (item :: items)) ↔ op ∈ listOperators
  items : ∀ items, value = arrayOf items → ∀ item ∈ items, IsScalar item
  scalar : op ∉ listOperators → IsScalar value ∧ value ≠ .obj [("nullValue", .null)] ∧
    value ≠ .obj [("doubleValue", .str "NaN")]

def fieldOf (path : String) : Json := .obj [("fieldPath", .str path)]

inductive IsLeaf : Json → Prop
  | unary (path : String) {op : String} (hop : op ∈ ["IS_NULL", "IS_NAN"]) :
      IsLeaf (.obj [("unaryFilter", .obj [("field", fieldOf path), ("op", .str op)])])
  | field (path : String) {op : String} {value : Json} (hop : op ∈ operators)
      (hvalue : IsOperand op value) :
      IsLeaf (.obj [("fieldFilter",
        .obj [("field", fieldOf path), ("op", .str op), ("value", value)])])

inductive IsFilter : Json → Prop
  | leaf {j : Json} (h : IsLeaf j) : IsFilter j
  | composite {leaves : List Json} (hlen : 2 ≤ leaves.length) (h : ∀ j ∈ leaves, IsLeaf j) :
      IsFilter (.obj [("compositeFilter", .obj [("filters", .arr leaves), ("op", .str "AND")])])

inductive IsSource : Json → Prop
  | plain {id : String} (hne : id ≠ "") (hid : '/' ∉ id.toList) :
      IsSource (.obj [("collectionId", .str id)])
  | flagged {id : String} (all : Bool) (hne : id ≠ "") (hid : '/' ∉ id.toList) :
      IsSource (.obj [("allDescendants", .bool all), ("collectionId", .str id)])

inductive IsOrder : Json → Prop
  | intro (path : String) {direction : String} (h : direction ∈ ["ASCENDING", "DESCENDING"]) :
      IsOrder (.obj [("direction", .str direction), ("field", fieldOf path)])

inductive IsCursor : Json → Prop
  | intro (r : Reference) (h : r.isDocument = true) :
      IsCursor (.obj [("before", .bool true),
        ("values", .arr [.obj [("referenceValue", .str r.name)]])])

inductive IsMember : String → Json → Prop
  | source {sources : List Json} (hne : sources ≠ []) (h : ∀ j ∈ sources, IsSource j) :
      IsMember "from" (.arr sources)
  | select {fields : List Json} (hne : fields ≠ []) (h : ∀ j ∈ fields, ∃ path, j = fieldOf path) :
      IsMember "select" (.obj [("fields", .arr fields)])
  | order {orders : List Json} (hne : orders ≠ []) (h : ∀ j ∈ orders, IsOrder j) :
      IsMember "orderBy" (.arr orders)
  | filter {j : Json} (h : IsFilter j) : IsMember "where" j
  | startAt {j : Json} (h : IsCursor j) : IsMember "startAt" j
  | endAt {j : Json} (h : IsCursor j) : IsMember "endAt" j
  | offset {n : Nat} (h : n ≤ 2147483647) : IsMember "offset" (.number (.integer n))
  | limit {n : Nat} (h : n ≤ 2147483647) : IsMember "limit" (.number (.integer n))

structure IsStructured (members : List (String × Json)) : Prop where
  keys : (members.map Prod.fst).Sublist
    ["endAt", "from", "limit", "offset", "orderBy", "select", "startAt", "where"]
  source : "from" ∈ members.map Prod.fst
  member : ∀ m ∈ members, IsMember m.1 m.2

theorem arrayOf_not_isScalar (items : List Json) : ¬ IsScalar (arrayOf items) := by
  intro h
  generalize hj : arrayOf items = j at h
  cases h <;> simp [arrayOf] at hj

end Wire

open Wire

theorem Scalar.isScalar_toJson (s : Scalar) : IsScalar s.toJson := by
  cases s with
  | null => exact .null
  | boolean b => exact .boolean b
  | integer n => exact .integer n
  | double x =>
    match x with
    | .finite x => exact .double x
    | .nan => exact .word (by simp)
    | .infinity false => exact .word (by simp)
    | .infinity true => exact .word (by simp)
  | timestamp t => exact .timestamp t
  | string s => exact .string s
  | reference name => exact .reference name

theorem Scalar.eq_null_of_toJson {s : Scalar} (h : s.toJson = .obj [("nullValue", .null)]) :
    s = .null := by
  cases s <;> simp [Scalar.toJson, Tag.toJson, Tag.name] at h ⊢

theorem Scalar.eq_nan_of_toJson {s : Scalar} (h : s.toJson = .obj [("doubleValue", .str "NaN")]) :
    s = .double .nan := by
  cases s with
  | double x =>
    match x with
    | .nan => rfl
    | .finite x => simp [Scalar.toJson, Tag.toJson, Double.toWireJson] at h
    | .infinity false => simp [Scalar.toJson, Tag.toJson, Double.toWireJson] at h
    | .infinity true => simp [Scalar.toJson, Tag.toJson, Double.toWireJson] at h
  | _ => simp [Scalar.toJson, Tag.toJson, Tag.name] at h

theorem Operator.wireName_mem (op : Operator) : op.wireName ∈ operators := by
  cases op <;> decide

theorem Operator.wireName_mem_lists (op : Operator) :
    op.wireName ∈ listOperators ↔ op.takesList = true := by
  cases op <;> decide

theorem isOperand_list {op : Operator} {values : List Scalar} (hop : op.takesList = true)
    (hne : values ≠ []) : IsOperand op.wireName (Scalar.listToJson values) := by
  have hlist : Scalar.listToJson values = arrayOf (values.map Scalar.toJson) := rfl
  have hmem : op.wireName ∈ listOperators := op.wireName_mem_lists.mpr hop
  constructor
  case list =>
    constructor
    · intro _
      exact hmem
    · intro _
      obtain ⟨value, rest, rfl⟩ := List.exists_cons_of_ne_nil hne
      exact ⟨_, _, rfl⟩
  case items =>
    intro items h item hitem
    rw [hlist] at h
    simp only [arrayOf, Json.obj.injEq, List.cons.injEq, Prod.mk.injEq, Json.arr.injEq, true_and,
      and_true] at h
    rw [← h] at hitem
    obtain ⟨s, -, rfl⟩ := List.mem_map.mp hitem
    exact s.isScalar_toJson
  case scalar =>
    intro h
    exact absurd hmem h

theorem isOperand_scalar {op : Operator} {value : Scalar} (hop : op.takesList = false)
    (hnull : value ≠ .null) (hnan : value ≠ .double .nan) :
    IsOperand op.wireName value.toJson := by
  have hs := value.isScalar_toJson
  have hlists : op.wireName ∉ listOperators := by
    rw [op.wireName_mem_lists, hop]
    decide
  constructor
  case list =>
    constructor
    · rintro ⟨item, items, h⟩
      exact absurd (h ▸ hs) (arrayOf_not_isScalar _)
    · intro h
      exact absurd h hlists
  case items =>
    intro items h
    exact absurd (h ▸ hs) (arrayOf_not_isScalar _)
  case scalar =>
    intro _
    exact ⟨hs, fun h => hnull (Scalar.eq_null_of_toJson h),
      fun h => hnan (Scalar.eq_nan_of_toJson h)⟩

namespace Filter

theorem isLeaf_toJson {f : Filter} (h : f.IsCondition) : IsLeaf f.toJson := by
  cases h with
  | unary path op => exact .unary path (by cases op <;> decide)
  | @scalar path op value hop hnull hnan =>
    exact .field path op.wireName_mem (isOperand_scalar hop hnull hnan)
  | @list path op values hop hne =>
    exact .field path op.wireName_mem (isOperand_list hop hne)

theorem listToJson_eq_map (fs : List Filter) : listToJson fs = fs.map toJson := by
  induction fs with
  | nil => rfl
  | cons f fs ih => simp [listToJson, ih]

theorem isFilter_toJson {f : Filter} (h : f.IsFlat) : IsFilter f.toJson := by
  cases h with
  | condition h => exact .leaf (isLeaf_toJson h)
  | @conjunction fs hlen h =>
    rw [toJson, listToJson_eq_map]
    apply IsFilter.composite
    · rw [List.length_map]
      exact hlen
    · intro j hj
      obtain ⟨g, hg, rfl⟩ := List.mem_map.mp hj
      exact isLeaf_toJson (h g hg)

end Filter

theorem isCursor_toJson {c : Cursor} (h : c.IsBeforeDocument) : IsCursor c.toJson := by
  obtain ⟨r, hr, rfl⟩ := h
  exact .intro r hr

theorem isOrder_toJson (o : Order) : IsOrder o.toJson :=
  .intro o.path (by cases o.direction <;> decide)

theorem isSource_toJson {s : Source} (h : s.reference.isCollection = true) :
    IsSource s.toJson := by
  obtain ⟨_, hp⟩ := Reference.exists_parent_of_isCollection h
  obtain ⟨segment, hid⟩ := Reference.exists_id_of_parent hp
  rw [Source.toJson, hid]
  cases s.allDescendants with
  | none => exact .plain segment.nonempty segment.unsplit
  | some all => exact .flagged all segment.nonempty segment.unsplit

namespace Json

theorem mem_optional {key : String} {value : Option Json} {m : String × Json} :
    m ∈ optional key value ↔ m.1 = key ∧ value = some m.2 := by
  obtain ⟨k, j⟩ := m
  cases value <;> simp [optional, eq_comm]

theorem optional_keys (key : String) (value : Option Json) :
    ((optional key value).map Prod.fst).Sublist [key] := by
  cases value <;> simp [optional]

end Json

namespace Query

theorem unlessEmpty_eq_some_iff {items js : List Json} :
    unlessEmpty items = some js ↔ items ≠ [] ∧ js = items := by
  cases items <;> simp [unlessEmpty, eq_comm]

def structuredMembers (q : Query) : List (String × Json) :=
  Json.optional "endAt" (q.endAt.map Cursor.toJson) ++
    [("from", .arr (q.sources.map Source.toJson))] ++
    Json.optional "limit" (q.limit.map Json.ofNat) ++
    Json.optional "offset" (q.offset.map Json.ofNat) ++
    Json.optional "orderBy" ((unlessEmpty (q.orders.map Order.toJson)).map .arr) ++
    Json.optional "select" q.selectToJson ++
    Json.optional "startAt" (q.startAt.map Cursor.toJson) ++
    Json.optional "where" (q.filter.map Filter.toJson)

theorem structured_eq (q : Query) : q.structured = .obj q.structuredMembers := rfl

theorem structured_keys (q : Query) :
    (q.structuredMembers.map Prod.fst).Sublist
      ["endAt", "from", "limit", "offset", "orderBy", "select", "startAt", "where"] := by
  simp only [structuredMembers, List.map_append]
  have happend : ∀ {ks ls : List String} {k : String}, ks.Sublist ls → ∀ value : Option Json,
      (ks ++ (Json.optional k value).map Prod.fst).Sublist (ls ++ [k]) :=
    fun h value => h.append (Json.optional_keys _ value)
  exact happend (happend (happend (happend (happend (happend
    ((Json.optional_keys _ _).append (List.Sublist.refl ["from"])) _) _) _) _) _) _

theorem WellFormed.isMember {q : Query} (hq : q.WellFormed) :
    ∀ m ∈ q.structuredMembers, IsMember m.1 m.2 := by
  rintro ⟨key, j⟩ hm
  simp only [structuredMembers, List.mem_append, Json.mem_optional, List.mem_singleton,
    Prod.mk.injEq, Option.map_eq_some_iff] at hm
  rcases hm with ((((((⟨rfl, c, hc, rfl⟩ | ⟨rfl, rfl⟩) | ⟨rfl, n, hn, rfl⟩) | ⟨rfl, n, hn, rfl⟩) |
    ⟨rfl, js, hjs, rfl⟩) | ⟨rfl, hsel⟩) | ⟨rfl, c, hc, rfl⟩) | ⟨rfl, f, hf, rfl⟩
  · exact .endAt (isCursor_toJson (hq.endAt c hc))
  · apply IsMember.source
    · simpa using hq.sources
    · intro j hj
      obtain ⟨s, hs, rfl⟩ := List.mem_map.mp hj
      exact isSource_toJson (hq.collections s hs)
  · exact .limit (hq.limit n hn)
  · exact .offset (hq.offset n hn)
  · obtain ⟨hne, rfl⟩ := unlessEmpty_eq_some_iff.mp hjs
    apply IsMember.order hne
    intro j hj
    obtain ⟨o, -, rfl⟩ := List.mem_map.mp hj
    exact isOrder_toJson o
  · obtain ⟨js, hjs, rfl⟩ := Option.map_eq_some_iff.mp hsel
    obtain ⟨hne, rfl⟩ := unlessEmpty_eq_some_iff.mp hjs
    apply IsMember.select hne
    intro j hj
    obtain ⟨path, -, rfl⟩ := List.mem_map.mp hj
    exact ⟨path, rfl⟩
  · exact .startAt (isCursor_toJson (hq.startAt c hc))
  · exact .filter (Filter.isFilter_toJson (hq.filter f hf))

theorem WellFormed.isStructured {q : Query} (hq : q.WellFormed) :
    IsStructured q.structuredMembers :=
  ⟨q.structured_keys, by simp [structuredMembers], hq.isMember⟩

/-- Whatever the options and however often the sources were replaced, a query has a URL to go to
and a body that keeps to the grammar. -/
theorem reachable_body_isStructured {q : Query} (h : q.Reachable) :
    (∃ url, q.endpoint = .ok url) ∧
      ∃ members, q.toJson = .obj [("structuredQuery", .obj members)] ∧
        IsStructured members := by
  have hq := h.wellFormed
  obtain ⟨_, _, parent, _, _, hurl⟩ := hq.endpoint
  exact ⟨⟨_, hurl⟩, q.structuredMembers, rfl, hq.isStructured⟩

/-- A query with most of its parts, reading from another collection than it was made for. -/
theorem reachable_body_isStructured_replaced :
    ∃ q : Query, q.Reachable ∧ q.sources = [⟨Database.sample.reference "users/u1/posts", true⟩] ∧
      q.conditionCount = 2 ∧ q.startAt ≠ none ∧ q.limit = some 0 ∧
      (∃ url, q.endpoint = .ok url) ∧
        ∃ members, q.toJson = .obj [("structuredQuery", .obj members)] ∧
          IsStructured members := by
  have hnew : (Query.new
      { select := some (.array [.string "a"])
        source := some (.reference (Database.sample.reference "users"))
        filter := some (.array
          [.array [.string "tags", .string "in", .array [.integer 1, .double .nan]],
            .array [.string "n", .string "==", .null]])
        order := some (.string "a")
        startAt := some (.reference (Database.sample.reference "users/u1"))
        limit := some (.integer 0) } ⟨.warn, fun _ => .ok .null⟩).1 =
      .ok ⟨["a"], [⟨Database.sample.reference "users", none⟩],
        some (.conjunction
          [.field "tags" .isIn (.list [.integer 1, .double .nan]), .unary "n" .isNull]),
        [⟨"a", .ascending⟩],
        some ⟨[.reference (Database.sample.reference "users/u1").name], true⟩, none, none,
        some 0⟩ := rfl
  have h := (Reachable.new hnew).withSources (show withSources _
    (.array [.reference (Database.sample.reference "users/u1/posts")]) (some true) = .ok _ from rfl)
  exact ⟨_, h, rfl, rfl, by simp, rfl, reachable_body_isStructured h⟩

end Query

end DocStore
