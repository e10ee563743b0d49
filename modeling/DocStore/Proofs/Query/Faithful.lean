import DocStore.Proofs.Query.Addressing
import DocStore.Proofs.Query.Conditions
import DocStore.Proofs.Query.Schema
import DocStore.Proofs.Value.Sameness

/-!
# What a request body tells

A body leaves out what is absent, names operators and types by words and cuts
sources down to their ids. Each part can be told from it all the same. Main
statement: two queries have equal bodies exactly if they ask for the same, where
the two zeros may count as equal because no operand is a zero double.
-/

set_option autoImplicit false

namespace DocStore

theorem Operand.toJson_injective {o p : Operand} (h : o.toJson = p.toJson) : o = p := by
  -- A list stands under a tag that no scalar has.
  have hapart : ∀ (s : Scalar) (xs : List Scalar), s.toJson ≠ Scalar.listToJson xs := by
    intro s xs heq
    have hscalar := s.isScalar_toJson
    rw [heq] at hscalar
    exact Wire.arrayOf_not_isScalar (xs.map Scalar.toJson) hscalar
  cases o with
  | scalar s =>
    cases p with
    | scalar t => rw [Scalar.toJson_injective h]
    | list ys => exact absurd h (hapart s ys)
  | list xs =>
    cases p with
    | scalar t => exact absurd h.symm (hapart t xs)
    | list ys =>
      have hitems := (Tag.toJson_inj.mp h).2
      simp only [Json.obj.injEq, List.cons.injEq, Prod.mk.injEq, Json.arr.injEq, true_and,
        and_true] at hitems
      rw [List.map_injective_iff.mpr (fun _ _ => Scalar.toJson_injective) hitems]

theorem Operator.wireName_injective {o p : Operator} (h : o.wireName = p.wireName) : o = p := by
  have hall : ∀ o : Operator, o ∈ all := by
    intro o
    cases o <;> decide
  have hapart : ∀ o ∈ all, ∀ p ∈ all, o.wireName = p.wireName → o = p := by decide
  exact hapart o (hall o) p (hall p) h

theorem UnaryOperator.wireName_injective {o p : UnaryOperator} (h : o.wireName = p.wireName) :
    o = p := by
  cases o <;> cases p <;> first | rfl | exact absurd h (by decide)

theorem Direction.wireName_injective {d e : Direction} (h : d.wireName = e.wireName) : d = e := by
  cases d <;> cases e <;> first | rfl | exact absurd h (by decide)

theorem fieldPathToJson_injective {p q : String} (h : fieldPathToJson p = fieldPathToJson q) :
    p = q := by
  simpa [fieldPathToJson] using h

namespace Filter

mutual

theorem toJson_injective : ∀ {f g : Filter}, f.toJson = g.toJson → f = g
  | field p o x, field q o' y, h => by
    simp only [toJson, Json.obj.injEq, List.cons.injEq, Prod.mk.injEq, Json.str.injEq, true_and,
      and_true] at h
    obtain ⟨hpath, hop, hoperand⟩ := h
    rw [fieldPathToJson_injective hpath, Operator.wireName_injective hop,
      Operand.toJson_injective hoperand]
  | unary p o, unary q o', h => by
    simp only [toJson, Json.obj.injEq, List.cons.injEq, Prod.mk.injEq, Json.str.injEq, true_and,
      and_true] at h
    obtain ⟨hpath, hop⟩ := h
    rw [fieldPathToJson_injective hpath, UnaryOperator.wireName_injective hop]
  | conjunction fs, conjunction gs, h => by
    simp only [toJson, Json.obj.injEq, List.cons.injEq, Prod.mk.injEq, Json.arr.injEq, true_and,
      and_true] at h
    rw [listToJson_injective h]
  | field .., unary .., h | field .., conjunction _, h | unary .., field .., h
  | unary .., conjunction _, h | conjunction _, field .., h | conjunction _, unary .., h => by
    simp [toJson] at h

theorem listToJson_injective : ∀ {fs gs : List Filter}, listToJson fs = listToJson gs → fs = gs
  | [], [], _ => rfl
  | f :: fs, g :: gs, h => by
    rw [listToJson, listToJson, List.cons.injEq] at h
    rw [toJson_injective h.1, listToJson_injective h.2]
  | [], _ :: _, h | _ :: _, [], h => by simp [listToJson] at h

end

end Filter

theorem Order.toJson_injective {o p : Order} (h : o.toJson = p.toJson) : o = p := by
  obtain ⟨path, direction⟩ := o
  obtain ⟨path', direction'⟩ := p
  simp only [toJson, Json.obj.injEq, List.cons.injEq, Prod.mk.injEq, Json.str.injEq, true_and,
    and_true] at h
  obtain ⟨hdirection, hpath⟩ := h
  rw [fieldPathToJson_injective hpath, Direction.wireName_injective hdirection]

theorem Cursor.toJson_injective {c d : Cursor} (h : c.toJson = d.toJson) : c = d := by
  obtain ⟨values, before⟩ := c
  obtain ⟨values', before'⟩ := d
  simp only [toJson, Json.obj.injEq, List.cons.injEq, Prod.mk.injEq, Json.bool.injEq,
    Json.arr.injEq, true_and, and_true] at h
  obtain ⟨hbefore, hvalues⟩ := h
  rw [List.map_injective_iff.mpr (fun _ _ => Scalar.toJson_injective) hvalues, hbefore]

def Source.entry (s : Source) : String × Option Bool := (s.reference.id, s.allDescendants)

theorem Source.toJson_eq_iff {s t : Source} : s.toJson = t.toJson ↔ s.entry = t.entry := by
  constructor
  · intro h
    obtain ⟨hall, hid⟩ := parts_of_toJson h
    rw [entry, entry, hid, hall]
  · intro h
    obtain ⟨hid, hall⟩ := Prod.mk.inj h
    rw [toJson, toJson, hid, hall]

theorem Source.map_toJson_eq_iff {ss ts : List Source} :
    ss.map toJson = ts.map toJson ↔ ss.map entry = ts.map entry := by
  induction ss generalizing ts with
  | nil => cases ts <;> simp
  | cons s ss ih =>
    cases ts with
    | nil => simp
    | cons t ts => simp only [List.map_cons, List.cons.injEq, toJson_eq_iff, ih]

theorem Json.NoZero.single {key : String} {j : Json} (h : j.NoZero) :
    (Json.obj [(key, j)]).NoZero :=
  .obj (List.forall_mem_singleton.mpr h)

theorem Json.NoZero.pair {key key' : String} {j k : Json} (hj : j.NoZero) (hk : k.NoZero) :
    (Json.obj [(key, j), (key', k)]).NoZero :=
  .obj (List.forall_mem_cons.mpr ⟨hj, List.forall_mem_singleton.mpr hk⟩)

theorem Scalar.noZero_toJson {s : Scalar} (h : s.IsNormal) : s.toJson.NoZero := by
  cases s with
  | null => exact .single .null
  | boolean b => exact .single (.bool b)
  | double x =>
    match x with
    | .finite x => exact .single (.double (FiniteDouble.units_ne_zero (h _ rfl)))
    | .nan | .infinity false | .infinity true => exact .single (.str _)
  | _ => exact .single (.str _)

theorem Wire.IsMember.noZero {key : String} {j : Json} (h : IsMember key j) (hkey : key ≠ "where") :
    j.NoZero := by
  have hfield : ∀ path : String, (fieldOf path).NoZero := fun path => .single (.str path)
  have hcursor : ∀ {j : Json}, IsCursor j → j.NoZero := by
    rintro _ ⟨r, -⟩
    exact .pair (.bool true) (.arr (List.forall_mem_singleton.mpr (.single (.str _))))
  cases h with
  | source _ h =>
    refine .arr fun j hj => ?_
    cases h j hj with
    | plain _ _ => exact .single (.str _)
    | flagged all _ _ => exact .pair (.bool all) (.str _)
  | select _ h =>
    refine .single (.arr fun j hj => ?_)
    obtain ⟨path, rfl⟩ := h j hj
    exact hfield path
  | order _ h =>
    refine .arr fun j hj => ?_
    obtain ⟨path, -⟩ := h j hj
    exact .pair (.str _) (hfield path)
  | filter _ => exact absurd rfl hkey
  | startAt h => exact hcursor h
  | endAt h => exact hcursor h
  | offset _ => exact .integer _
  | limit _ => exact .integer _

namespace Filter

theorem noZero_of_makes {path op v : Value} {f : Filter} (h : Makes path op v f) :
    f.toJson.NoZero := by
  have hpath : ∀ path : String, (fieldPathToJson path).NoZero := fun path => .single (.str path)
  have hfield : ∀ (path : String) (op : Operator) (operand : Operand), operand.toJson.NoZero →
      (field path op operand).toJson.NoZero := by
    intro path op operand h
    refine .single (.obj ?_)
    simp only [List.forall_mem_cons]
    exact ⟨hpath path, .str _, h, nofun⟩
  have hunary : ∀ (path : String) (op : UnaryOperator), (unary path op).toJson.NoZero :=
    fun path _ => .single (.pair (hpath path) (.str _))
  cases h with
  | null s => exact hunary s .isNull
  | nan s => exact hunary s .isNaN
  | scalar _ _ hx => exact hfield _ _ _ (Scalar.noZero_toJson (Value.encode_isNormal hx))
  | @list s o items xs _ _ hxs =>
    refine hfield _ _ _ (.single (.single (.arr fun item hitem => ?_)))
    obtain ⟨x, hx, rfl⟩ := List.mem_map.mp hitem
    have hmade : (Except.ok x : Except ValueError Scalar) ∈ items.map Value.encode := by
      rw [hxs]
      exact List.mem_map_of_mem hx
    obtain ⟨w, -, hw⟩ := List.mem_map.mp hmade
    exact Scalar.noZero_toJson (Value.encode_isNormal hw)

mutual

theorem noZero_toJson : ∀ f : Filter, (∀ leaf ∈ f.leaves, leaf.toJson.NoZero) → f.toJson.NoZero
  | field _ _ _, h => h _ (List.mem_singleton.mpr rfl)
  | unary _ _, h => h _ (List.mem_singleton.mpr rfl)
  | conjunction filters, h => .single (.pair (.arr (noZero_listToJson filters h)) (.str _))

theorem noZero_listToJson : ∀ fs : List Filter, (∀ leaf ∈ leavesOf fs, leaf.toJson.NoZero) →
    ∀ j ∈ listToJson fs, j.NoZero
  | [], _ => nofun
  | f :: fs, h => by
    rw [leavesOf, List.forall_mem_append] at h
    rw [listToJson, List.forall_mem_cons]
    exact ⟨noZero_toJson f h.1, noZero_listToJson fs h.2⟩

end

end Filter

namespace Query

/-- Whatever its sources, a query is otherwise what some options say. -/
theorem Reachable.exists_options {q : Query} (h : q.Reachable) :
    ∃ o q', ofOptions o = .ok q' ∧ q = { q' with sources := q.sources } := by
  induction h with
  | @new o env q h => exact ⟨o, q, by simpa using h, rfl⟩
  | @database db o env q h => exact ⟨_, q, by simpa [Database.query] using h, rfl⟩
  | @reference r o env q h => exact ⟨_, q, by simpa [Reference.query] using h, rfl⟩
  | withSources _ h ih =>
    obtain ⟨o, q', ho, hq⟩ := ih
    obtain ⟨sources, -, rfl⟩ := withSources_eq_ok_iff.mp h
    exact ⟨o, q', ho, by rw [hq]⟩

theorem Reachable.makes {q : Query} (h : q.Reachable) {f : Filter} (hf : q.filter = some f)
    {leaf : Filter} (hleaf : leaf ∈ f.leaves) : ∃ path op v, Filter.Makes path op v leaf := by
  obtain ⟨o, q', ho, hq⟩ := h.exists_options
  obtain ⟨-, -, ⟨filter, hfilter, hjoin⟩, -⟩ := ofOptions_eq_ok_iff.mp ho
  rw [hq, hjoin, Option.join_eq_some_iff] at hf
  exact of_optional (P := fun g => ∀ f, g = some f → ∀ leaf ∈ f.leaves,
      ∃ path op v, Filter.Makes path op v leaf)
    (fun _ _ hg _ hf _ => Filter.makes_of_parse (hf ▸ hg)) hfilter _ hf f rfl leaf hleaf

theorem Reachable.noZero_toJson {q : Query} (h : q.Reachable) : q.toJson.NoZero := by
  refine .single (.obj fun m hm => ?_)
  obtain ⟨key, j⟩ := m
  have hmember : Wire.IsMember key j := h.wellFormed.isMember (key, j) hm
  by_cases hkey : key = "where"
  swap
  · exact hmember.noZero hkey
  have hfilter : ∃ f, q.filter = some f ∧ f.toJson = j := by
    simpa [hkey, Json.mem_optional, Json.optional_keys] using hm
  obtain ⟨f, hf, rfl⟩ := hfilter
  refine Filter.noZero_toJson f fun leaf hleaf => ?_
  obtain ⟨_, _, _, hmakes⟩ := h.makes hf hleaf
  exact Filter.noZero_of_makes hmakes

structure SameRequest (q r : Query) : Prop where
  select : q.select = r.select
  sources : q.sources.map Source.entry = r.sources.map Source.entry
  filter : q.filter = r.filter
  orders : q.orders = r.orders
  startAt : q.startAt = r.startAt
  endAt : q.endAt = r.endAt
  offset : q.offset = r.offset
  limit : q.limit = r.limit

theorem lookup_optional (key key' : String) (value : Option Json) :
    (Json.optional key value).lookup key' = if key' = key then value else none := by
  cases value with
  | none => simp [Json.optional]
  | some j =>
    rw [Json.optional, List.lookup_cons, List.lookup_nil]
    by_cases h : key' = key
    · rw [h, beq_self_eq_true, if_pos rfl]
    · rw [beq_false_of_ne h, if_neg h]

theorem parts_of_structured {q r : Query} (h : q.structured = r.structured) :
    q.selectToJson = r.selectToJson ∧
    q.sources.map Source.toJson = r.sources.map Source.toJson ∧
    q.filter.map Filter.toJson = r.filter.map Filter.toJson ∧
    (unlessEmpty (q.orders.map Order.toJson)).map Json.arr =
      (unlessEmpty (r.orders.map Order.toJson)).map Json.arr ∧
    q.startAt.map Cursor.toJson = r.startAt.map Cursor.toJson ∧
    q.endAt.map Cursor.toJson = r.endAt.map Cursor.toJson ∧
    q.offset.map Json.ofNat = r.offset.map Json.ofNat ∧
    q.limit.map Json.ofNat = r.limit.map Json.ofNat := by
  have hkey : ∀ key, q.structuredMembers.lookup key = r.structuredMembers.lookup key :=
    fun key => congrArg (Json.get? key) h
  simp only [structuredMembers, List.lookup_append, lookup_optional, List.lookup_cons,
    List.lookup_nil] at hkey
  exact ⟨by simpa using hkey "select", by simpa using hkey "from", by simpa using hkey "where",
    by simpa using hkey "orderBy", by simpa using hkey "startAt", by simpa using hkey "endAt",
    by simpa using hkey "offset", by simpa using hkey "limit"⟩

theorem unlessEmpty_injective {items items' : List Json}
    (h : unlessEmpty items = unlessEmpty items') : items = items' := by
  cases items <;> cases items' <;> simp [unlessEmpty] at h ⊢
  exact h

theorem selectToJson_injective {q r : Query} (h : q.selectToJson = r.selectToJson) :
    q.select = r.select := by
  have hfields :
      Function.Injective fun fields : List Json => Json.obj [("fields", .arr fields)] := by
    intro fields fields' h
    simpa using h
  exact List.map_injective_iff.mpr (fun _ _ => fieldPathToJson_injective)
    (unlessEmpty_injective (Option.map_injective hfields h))

theorem ofNat_injective : Function.Injective Json.ofNat := by
  intro m n h
  simp only [Json.ofNat, Json.ofInt, Json.number.injEq, JsonNumber.integer.injEq] at h
  omega

/-- Bodies are equal exactly if the queries ask for the same. -/
theorem toJson_eq_iff {q r : Query} : q.toJson = r.toJson ↔ q.SameRequest r := by
  constructor
  · intro h
    have hstructured : q.structured = r.structured := by simpa [toJson] using h
    obtain ⟨hselect, hsources, hfilter, horders, hstart, hend, hoffset, hlimit⟩ :=
      parts_of_structured hstructured
    constructor
    case select => exact selectToJson_injective hselect
    case sources => exact Source.map_toJson_eq_iff.mp hsources
    case filter => exact Option.map_injective (fun _ _ => Filter.toJson_injective) hfilter
    case orders =>
      have hitems := unlessEmpty_injective (Option.map_injective (fun _ _ => Json.arr.inj) horders)
      exact List.map_injective_iff.mpr (fun _ _ => Order.toJson_injective) hitems
    case startAt => exact Option.map_injective (fun _ _ => Cursor.toJson_injective) hstart
    case endAt => exact Option.map_injective (fun _ _ => Cursor.toJson_injective) hend
    case offset => exact Option.map_injective ofNat_injective hoffset
    case limit => exact Option.map_injective ofNat_injective hlimit
  · rintro ⟨hselect, hsources, hfilter, horders, hstart, hend, hoffset, hlimit⟩
    rw [toJson, toJson, structured, structured, selectToJson, selectToJson, hselect,
      Source.map_toJson_eq_iff.mpr hsources, hfilter, horders, hstart, hend, hoffset, hlimit]

/-- The body of a query tells all that it asks for: bodies are equal, as data and by value, exactly
if the queries agree in all their parts, where of a source the id and the flag count. -/
theorem body_tells_request {q r : Query} (hq : q.Reachable) :
    (q.toJson = r.toJson ↔ q.SameRequest r) ∧
      (q.toJson.equals r.toJson = true ↔ q.SameRequest r) :=
  ⟨toJson_eq_iff, hq.noZero_toJson.equals_iff.trans toJson_eq_iff⟩

/-- The same id below another parent in another database asks for the same; the other order of two
ids does not, and neither does a text in place of a number. -/
theorem body_tells_request_near_misses :
    let db := Database.sample
    let other : Database := ⟨{ projectId := "o" }, 1, by decide⟩
    let q := ofCollections [db.reference "users", db.reference "posts"]
    let q' := ofCollections [other.reference "users/u1/users", other.reference "posts"]
    let swapped := ofCollections [db.reference "posts", db.reference "users"]
    let equalTo (x : Scalar) : Query := ⟨[], [⟨db.reference "users", none⟩],
      some (.field "n" .equal (.scalar x)), [], none, none, none, none⟩
    q.Reachable ∧ q.toJson = q'.toJson ∧ q.toJson.equals swapped.toJson = false ∧
      (equalTo (.integer 1)).Reachable ∧
      (equalTo (.integer 1)).toJson.equals (equalTo (.string "1")).toJson = false := by
  intro db other q q' swapped equalTo
  have hq : q.Reachable := reachable_ofCollections (by decide) (by decide)
  have hsame : q.SameRequest q' := ⟨rfl, by decide, rfl, rfl, rfl, rfl, rfl, rfl⟩
  have hswapped : ¬ q.SameRequest swapped := fun h => absurd h.sources (by decide)
  have hmade : (Query.new
      { source := some (.reference (db.reference "users"))
        filter := some (.array [.string "n", .string "==", .integer 1]) }
      ⟨.warn, fun _ => .ok .null⟩).1 = .ok (equalTo (.integer 1)) := rfl
  have hone : (equalTo (.integer 1)).Reachable := .new hmade
  have htext : ¬ (equalTo (.integer 1)).SameRequest (equalTo (.string "1")) := by
    intro h
    simpa [equalTo] using h.filter
  refine ⟨hq, (body_tells_request hq).1.mpr hsame, ?_, hone, ?_⟩
  · rw [← Bool.not_eq_true, (body_tells_request hq).2]
    exact hswapped
  · rw [← Bool.not_eq_true, (body_tells_request hone).2]
    exact htext

end Query

end DocStore
