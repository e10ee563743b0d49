import DocStore.Collect
import DocStore.Proofs.Document.RoundTrip

/-!
# What the decoder lets through

The grammar of typed values and raw documents, with room for payloads that pass
although they are not of the form that their place demands. Main statement: the
decoder accepts the sentences of this grammar and nothing else, at any depth,
where the payload of a null is not looked at, arrays and maps whose payload is no
object pass for empty ones, and times that are no texts pass for missing ones.
-/

set_option autoImplicit false

namespace DocStore

namespace Wire

/-- What passes beyond the grammar: for the payload of a tag, and for a time. -/
structure Tolerance where
  payload : Tag → Json → Prop
  time : Json → Prop

namespace Tolerance

def strict : Tolerance := ⟨fun _ _ => False, fun _ => False⟩

def unchecked : Tolerance where
  payload
    | .null, payload => payload ≠ .null
    | .array, payload => ∀ members, payload ≠ .obj members
    | .map, payload => ∀ members, payload ≠ .obj members
    | _, _ => False
  time payload := payload ≠ .null ∧ ∀ text, payload ≠ .str text

end Tolerance

inductive IsTyped (db : Database) (t : Tolerance) : Json → Prop
  | null : IsTyped db t (.obj [("nullValue", .null)])
  | boolean (b : Bool) : IsTyped db t (.obj [("booleanValue", .bool b)])
  | numeral {s : String} {i : Int64} (h : readInt? s.toList = some i.toInt) :
      IsTyped db t (.obj [("integerValue", .str s)])
  | integer (i : Int64) : IsTyped db t (.obj [("integerValue", .number (.integer i.toInt))])
  | double (n : JsonNumber) : IsTyped db t (.obj [("doubleValue", .number n)])
  | word {s : String} (h : s ∈ ["NaN", "Infinity", "-Infinity"]) :
      IsTyped db t (.obj [("doubleValue", .str s)])
  | string (s : String) : IsTyped db t (.obj [("stringValue", .str s)])
  | timestamp {s : String} {time : Timestamp} (h : Timestamp.read? s = some time) :
      IsTyped db t (.obj [("timestampValue", .str s)])
  | reference {s : String} {r : Reference} (h : db.referenceFromName? s = some r) :
      IsTyped db t (.obj [("referenceValue", .str s)])
  | noElements {members : List (String × Json)} (h : members.lookup "values" = none) :
      IsTyped db t (.obj [("arrayValue", .obj members)])
  | elements {members : List (String × Json)} {items : List Json}
      (h : members.lookup "values" = some (.arr items))
      (hitems : ∀ item ∈ items, IsTyped db t item) :
      IsTyped db t (.obj [("arrayValue", .obj members)])
  | noEntries {members : List (String × Json)} (h : members.lookup "fields" = none) :
      IsTyped db t (.obj [("mapValue", .obj members)])
  | entries {members entries : List (String × Json)}
      (h : members.lookup "fields" = some (.obj entries))
      (hentries : ∀ e ∈ entries, IsTyped db t e.2) :
      IsTyped db t (.obj [("mapValue", .obj members)])
  | tolerated (tag : Tag) {payload : Json} (h : t.payload tag payload) :
      IsTyped db t (.obj [(tag.name, payload)])

inductive IsTime (t : Tolerance) : Option Json → Prop
  | missing : IsTime t none
  | null : IsTime t (some .null)
  | text {s : String} {time : Timestamp} (h : Timestamp.read? s = some time) :
      IsTime t (some (.str s))
  | tolerated {payload : Json} (h : t.time payload) : IsTime t (some payload)

structure IsDocument (db : Database) (t : Tolerance) (raw : Json) : Prop where
  name : ∃ s r, raw.get? "name" = some (.str s) ∧ db.referenceFromName? s = some r ∧
    r.isDocument = true
  fields : raw.get? "fields" = none ∨ ∃ entries, raw.get? "fields" = some (.obj entries) ∧
    ∀ e ∈ entries, IsTyped db t e.2
  createTime : IsTime t (raw.get? "createTime")
  updateTime : IsTime t (raw.get? "updateTime")

theorem IsTyped.exists_tag {db : Database} {t : Tolerance} {raw : Json} (h : IsTyped db t raw) :
    ∃ (tag : Tag) (payload : Json), raw = .obj [(tag.name, payload)] ∧
      (t.payload tag payload ∨ ¬ Tolerance.unchecked.payload tag payload) := by
  cases h with
  | null => exact ⟨.null, .null, rfl, Or.inr fun h => h rfl⟩
  | boolean b => exact ⟨.boolean, _, rfl, Or.inr id⟩
  | numeral _ => exact ⟨.integer, _, rfl, Or.inr id⟩
  | integer i => exact ⟨.integer, _, rfl, Or.inr id⟩
  | double n => exact ⟨.double, _, rfl, Or.inr id⟩
  | word _ => exact ⟨.double, _, rfl, Or.inr id⟩
  | string s => exact ⟨.string, _, rfl, Or.inr id⟩
  | timestamp _ => exact ⟨.timestamp, _, rfl, Or.inr id⟩
  | reference _ => exact ⟨.reference, _, rfl, Or.inr id⟩
  | @noElements members _ => exact ⟨.array, _, rfl, Or.inr fun h => h members rfl⟩
  | @elements members _ _ _ => exact ⟨.array, _, rfl, Or.inr fun h => h members rfl⟩
  | @noEntries members _ => exact ⟨.map, _, rfl, Or.inr fun h => h members rfl⟩
  | @entries members _ _ _ => exact ⟨.map, _, rfl, Or.inr fun h => h members rfl⟩
  | tolerated tag h => exact ⟨tag, _, rfl, Or.inl h⟩

theorem not_isTyped_of_unchecked {tag : Tag} {payload : Json}
    (h : Tolerance.unchecked.payload tag payload) (db : Database) :
    ¬ IsTyped db .strict (.obj [(tag.name, payload)]) := by
  intro htyped
  obtain ⟨tag', payload', hraw, htolerated⟩ := htyped.exists_tag
  simp only [Json.obj.injEq, List.cons.injEq, Prod.mk.injEq, and_true] at hraw
  obtain ⟨hname, rfl⟩ := hraw
  have htag : some tag = some tag' := by
    rw [← Tag.ofName?_name tag, hname, Tag.ofName?_name]
  cases htag
  rcases htolerated with htolerated | hchecked
  · exact htolerated
  · exact hchecked h

theorem not_isTime_of_unchecked {payload : Json} (h : Tolerance.unchecked.time payload) :
    ¬ IsTime .strict (some payload) := by
  intro htime
  cases htime with
  | null => exact h.1 rfl
  | text _ => exact h.2 _ rfl
  | tolerated h => exact h

end Wire

open Wire

theorem Json.str?_eq_some_iff {j : Json} {s : String} : j.str? = some s ↔ j = .str s := by
  cases j <;> simp [Json.str?]

theorem decodeInteger_eq_ok_iff {payload : Json} {i : Int64} :
    decodeInteger payload = .ok i ↔
      (∃ s, payload = .str s ∧ readInt? s.toList = some i.toInt) ∨
        payload = .number (.integer i.toInt) := by
  have hfits : ∀ x : Option Int, x.bind int64? = some i ↔ x = some i.toInt := by
    intro x
    cases x with
    | none => simp
    | some n => simp [int64?_eq_some_iff, eq_comm]
  cases payload with
  | str s =>
    have h : decodeInteger (.str s) = .ok i ↔ readInt? s.toList = some i.toInt := by
      rw [← hfits, decodeInteger]
      cases (readInt? s.toList).bind int64? <;> simp
    simp [h]
  | number n =>
    cases n with
    | integer n =>
      have h : decodeInteger (.number (.integer n)) = .ok i ↔ int64? n = some i := by
        rw [decodeInteger, JsonNumber.toInt64?]
        cases int64? n <;> simp
      simp [h, int64?_eq_some_iff, eq_comm]
    | double x => simp [decodeInteger, JsonNumber.toInt64?]
  | _ => simp [decodeInteger]

theorem exists_decodeDouble_iff {field : String} {payload : Json} :
    (∃ x, decodeDouble field payload = .ok x) ↔
      (∃ n, payload = .number n) ∨ ∃ s ∈ ["NaN", "Infinity", "-Infinity"], payload = .str s := by
  cases payload with
  | number n => simp [decodeDouble]
  | str s =>
    unfold decodeDouble
    by_cases hnan : s = "NaN"
    · simp [hnan]
    · by_cases hpos : s = "Infinity"
      · simp [hpos]
      · by_cases hneg : s = "-Infinity" <;> simp [hnan, hpos, hneg]
  | _ => simp [decodeDouble]

theorem decodeTimestamp_eq_ok_iff {s : String} {time : Timestamp} :
    decodeTimestamp s = .ok time ↔ Timestamp.read? s = some time := by
  unfold decodeTimestamp
  cases Timestamp.read? s <;> simp

theorem decodeReference_eq_ok_iff {db : Database} {s : String} {r : Reference} :
    decodeReference db s = .ok r ↔ db.referenceFromName? s = some r := by
  unfold decodeReference
  cases db.referenceFromName? s <;> simp

theorem decodeItems_eq_collect (db : Database) (field : String) (index : Nat)
    (items : List Json) :
    decodeItems db field index items =
      collect (fun item => decodeValue db (itemPath field item.2) item.1) (items.zipIdx index) := by
  induction items generalizing index with
  | nil => rfl
  | cons item items ih =>
    rw [decodeItems, ih (index + 1), List.zipIdx_cons, collect]
    cases decodeValue db (itemPath field index) item with
    | error e => rfl
    | ok v =>
      dsimp only
      split <;> simp only [*]

theorem decodeEntries_eq_collect (db : Database) (start : Option String)
    (entries : List (String × Json)) :
    decodeEntries db start entries =
      (collect (fun e => decodeValue db (entryPath start e.1) e.2) entries).map
        fun vs => (entries.map Prod.fst).zip vs := by
  induction entries with
  | nil => rfl
  | cons e entries ih =>
    obtain ⟨key, payload⟩ := e
    rw [decodeEntries, collect, ih]
    cases decodeValue db (entryPath start key) payload with
    | error e => rfl
    | ok v =>
      cases collect (fun e => decodeValue db (entryPath start e.1) e.2) entries with
      | error e => rfl
      | ok vs => rfl

/-- The path is free in the conclusion: it names errors and nothing else. -/
theorem decodeItems_ok_mem {db : Database} {field : String} {index : Nat} {items : List Json}
    {vs : List Value} (h : decodeItems db field index items = .ok vs) :
    ∀ item ∈ items, ∃ field' v, decodeValue db field' item = .ok v := by
  intro item hitem
  rw [decodeItems_eq_collect] at h
  rw [← List.zipIdx_map_fst index items] at hitem
  obtain ⟨numbered, hmem, rfl⟩ := List.mem_map.mp hitem
  exact ⟨_, exists_collect_eq_ok_iff.mp ⟨vs, h⟩ numbered hmem⟩

theorem exists_decodeItems {db : Database} {items : List Json}
    (h : ∀ item ∈ items, ∀ field, ∃ v, decodeValue db field item = .ok v) (field : String)
    (index : Nat) : ∃ vs, decodeItems db field index items = .ok vs := by
  rw [decodeItems_eq_collect, exists_collect_eq_ok_iff]
  intro numbered hmem
  exact h numbered.1 (List.fst_mem_of_mem_zipIdx hmem) _

theorem decodeEntries_ok_mem {db : Database} {start : Option String}
    {entries : List (String × Json)} {vs : List (String × Value)}
    (h : decodeEntries db start entries = .ok vs) :
    ∀ e ∈ entries, ∃ field v, decodeValue db field e.2 = .ok v := by
  intro e he
  rw [decodeEntries_eq_collect] at h
  obtain ⟨values, hvalues, -⟩ := map_eq_ok_iff.mp h
  exact ⟨_, exists_collect_eq_ok_iff.mp ⟨values, hvalues⟩ e he⟩

theorem exists_decodeEntries {db : Database} {entries : List (String × Json)}
    (h : ∀ e ∈ entries, ∀ field, ∃ v, decodeValue db field e.2 = .ok v) (start : Option String) :
    ∃ vs, decodeEntries db start entries = .ok vs := by
  obtain ⟨values, hvalues⟩ := exists_collect_eq_ok_iff.mpr fun e he => h e he (entryPath start e.1)
  rw [decodeEntries_eq_collect, hvalues]
  exact ⟨_, rfl⟩

theorem exists_tag_of_decodeValue {db : Database} {field : String} {raw : Json} {v : Value}
    (h : decodeValue db field raw = .ok v) :
    ∃ (tag : Tag) (payload : Json), raw = .obj [(tag.name, payload)] := by
  match raw with
  | .obj [(key, payload)] =>
    cases hkey : Tag.ofName? key with
    | none =>
      unfold decodeValue at h
      rw [hkey] at h
      cases h
    | some tag => exact ⟨tag, payload, by rw [Tag.name_of_ofName? hkey]⟩
  | .obj [] | .obj (_ :: _ :: _) | .null | .bool _ | .number _ | .str _ | .arr _ =>
    simp [decodeValue] at h

def Value.tag : Value → Tag
  | null => .null
  | boolean _ => .boolean
  | integer _ => .integer
  | double _ => .double
  | string _ => .string
  | timestamp _ => .timestamp
  | reference _ => .reference
  | array _ => .array
  | map _ => .map

theorem tag_of_map {α : Type} {x : Except DocumentError α} {f : α → Value} {tag : Tag} {v : Value}
    (hf : ∀ a, (f a).tag = tag) (h : x.map f = .ok v) : v.tag = tag := by
  obtain ⟨a, -, rfl⟩ := map_eq_ok_iff.mp h
  exact hf a

theorem tag_of_decodeValue {db : Database} {field : String} {tag : Tag} {payload : Json}
    {v : Value} (h : decodeValue db field (.obj [(tag.name, payload)]) = .ok v) : v.tag = tag := by
  cases tag with
  | null =>
    cases h
    rfl
  | boolean =>
    cases payload with
    | bool b =>
      cases h
      rfl
    | _ => cases h
  | integer => exact tag_of_map (x := decodeInteger payload) (fun _ => rfl) h
  | double => exact tag_of_map (x := decodeDouble field payload) (fun _ => rfl) h
  | string =>
    cases payload with
    | str s =>
      cases h
      rfl
    | _ => cases h
  | timestamp =>
    cases payload with
    | str s => exact tag_of_map (x := decodeTimestamp s) (fun _ => rfl) h
    | _ => cases h
  | reference =>
    cases payload with
    | str s => exact tag_of_map (x := decodeReference db s) (fun _ => rfl) h
    | _ => cases h
  | array =>
    cases payload with
    | obj members => exact tag_of_map (x := decodeValues db field members) (fun _ => rfl) h
    | _ =>
      cases h
      rfl
  | map =>
    cases payload with
    | obj members => exact tag_of_map (x := decodeFields db field members) (fun _ => rfl) h
    | _ =>
      cases h
      rfl

theorem decodeValue_eq_timestamp_iff {db : Database} {field : String} {raw : Json}
    {t : Timestamp} : decodeValue db field raw = .ok (.timestamp t) ↔
      ∃ text, raw = .obj [("timestampValue", .str text)] ∧ Timestamp.read? text = some t := by
  constructor
  · intro h
    obtain ⟨tag, payload, rfl⟩ := exists_tag_of_decodeValue h
    obtain rfl : Tag.timestamp = tag := tag_of_decodeValue h
    cases payload with
    | str text =>
      obtain ⟨t', ht', heq⟩ := map_eq_ok_iff.mp (show (decodeTimestamp text).map _ = _ from h)
      cases heq
      exact ⟨text, rfl, decodeTimestamp_eq_ok_iff.mp ht'⟩
    | _ => cases h
  · rintro ⟨text, rfl, ht⟩
    exact map_eq_ok_iff.mpr ⟨t, decodeTimestamp_eq_ok_iff.mpr ht, rfl⟩

theorem decodeValue_eq_reference_iff {db : Database} {field : String} {raw : Json}
    {r : Reference} : decodeValue db field raw = .ok (.reference r) ↔
      ∃ name, raw = .obj [("referenceValue", .str name)] ∧
        db.referenceFromName? name = some r := by
  constructor
  · intro h
    obtain ⟨tag, payload, rfl⟩ := exists_tag_of_decodeValue h
    obtain rfl : Tag.reference = tag := tag_of_decodeValue h
    cases payload with
    | str name =>
      obtain ⟨r', hr', heq⟩ := map_eq_ok_iff.mp (show (decodeReference db name).map _ = _ from h)
      cases heq
      exact ⟨name, rfl, decodeReference_eq_ok_iff.mp hr'⟩
    | _ => cases h
  · rintro ⟨name, rfl, hr⟩
    exact map_eq_ok_iff.mpr ⟨r, decodeReference_eq_ok_iff.mpr hr, rfl⟩

theorem sizeOf_lookup_lt {members : List (String × Json)} {key : String} {j : Json}
    (h : members.lookup key = some j) : sizeOf j < sizeOf members := by
  obtain ⟨before, after, rfl, -⟩ := List.lookup_eq_some_iff.mp h
  have hmem : (key, j) ∈ before ++ (key, j) :: after := by simp
  have hlt := List.sizeOf_lt_of_mem hmem
  simp only [Prod.mk.sizeOf_spec] at hlt
  omega

/-- Induction on typed values, over the elements of arrays and the entries of maps. -/
theorem typedInduction {motive : Json → Prop}
    (h : ∀ raw,
      (∀ members items, raw = .obj [("arrayValue", .obj members)] →
        members.lookup "values" = some (.arr items) → ∀ item ∈ items, motive item) →
      (∀ members entries, raw = .obj [("mapValue", .obj members)] →
        members.lookup "fields" = some (.obj entries) → ∀ e ∈ entries, motive e.2) →
      motive raw) (raw : Json) : motive raw := by
  apply h
  · intro members items hraw hlookup item hitem
    have hmembers := sizeOf_lookup_lt hlookup
    have hitems := List.sizeOf_lt_of_mem hitem
    have hlt : sizeOf item < sizeOf raw := by
      rw [hraw]
      simp only [Json.obj.sizeOf_spec, Json.arr.sizeOf_spec, List.cons.sizeOf_spec,
        Prod.mk.sizeOf_spec] at hmembers ⊢
      omega
    exact typedInduction h item
  · intro members entries hraw hlookup e he
    have hmembers := sizeOf_lookup_lt hlookup
    have hentries := List.sizeOf_lt_of_mem he
    have hlt : sizeOf e.2 < sizeOf raw := by
      obtain ⟨key, payload⟩ := e
      rw [hraw]
      simp only [Json.obj.sizeOf_spec, List.cons.sizeOf_spec, Prod.mk.sizeOf_spec]
        at hmembers hentries ⊢
      omega
    exact typedInduction h e.2
termination_by sizeOf raw

theorem isTyped_of_decodeValue {db : Database} {field : String} {raw : Json} {v : Value}
    (h : decodeValue db field raw = .ok v) : IsTyped db .unchecked raw := by
  -- The elements stand three levels below the value, too deep for the induction on `Json` itself.
  induction raw using typedInduction generalizing field v with
  | h raw hitems hentries =>
    obtain ⟨tag, payload, rfl⟩ := exists_tag_of_decodeValue h
    cases tag with
    | null =>
      by_cases hpayload : payload = .null
      · rw [hpayload]
        exact .null
      · exact .tolerated .null hpayload
    | boolean =>
      cases payload with
      | bool b => exact .boolean b
      | _ => cases h
    | integer =>
      obtain ⟨i, hi, -⟩ := map_eq_ok_iff.mp (show (decodeInteger payload).map _ = _ from h)
      rcases decodeInteger_eq_ok_iff.mp hi with ⟨s, rfl, hs⟩ | rfl
      · exact .numeral hs
      · exact .integer i
    | double =>
      obtain ⟨x, hx, -⟩ := map_eq_ok_iff.mp (show (decodeDouble field payload).map _ = _ from h)
      rcases exists_decodeDouble_iff.mp ⟨x, hx⟩ with ⟨n, rfl⟩ | ⟨s, hs, rfl⟩
      · exact .double n
      · exact .word hs
    | string =>
      cases payload with
      | str s => exact .string s
      | _ => cases h
    | timestamp =>
      cases payload with
      | str s =>
        obtain ⟨time, ht, -⟩ := map_eq_ok_iff.mp (show (decodeTimestamp s).map _ = _ from h)
        exact .timestamp (decodeTimestamp_eq_ok_iff.mp ht)
      | _ => cases h
    | reference =>
      cases payload with
      | str s =>
        obtain ⟨r, hr, -⟩ := map_eq_ok_iff.mp (show (decodeReference db s).map _ = _ from h)
        exact .reference (decodeReference_eq_ok_iff.mp hr)
      | _ => cases h
    | array =>
      cases payload with
      | obj members =>
        obtain ⟨vs, hvs, -⟩ :=
          map_eq_ok_iff.mp (show (decodeValues db field members).map _ = _ from h)
        rw [decodeValues_eq_lookup] at hvs
        cases hlookup : members.lookup "values" with
        | none => exact .noElements hlookup
        | some payload =>
          rw [show members.lookup valuesKey = _ from hlookup] at hvs
          cases payload with
          | arr items =>
            apply IsTyped.elements hlookup
            intro item hitem
            obtain ⟨field', w, hw⟩ := decodeItems_ok_mem hvs item hitem
            exact hitems members items rfl hlookup item hitem hw
          | _ => cases hvs
      | _ => exact .tolerated .array nofun
    | map =>
      cases payload with
      | obj members =>
        obtain ⟨vs, hvs, -⟩ :=
          map_eq_ok_iff.mp (show (decodeFields db field members).map _ = _ from h)
        rw [decodeFields_eq_lookup] at hvs
        cases hlookup : members.lookup "fields" with
        | none => exact .noEntries hlookup
        | some payload =>
          rw [show members.lookup fieldsKey = _ from hlookup] at hvs
          cases payload with
          | obj entries =>
            apply IsTyped.entries hlookup
            intro e he
            obtain ⟨field', w, hw⟩ := decodeEntries_ok_mem hvs e he
            exact hentries members entries rfl hlookup e he hw
          | _ => cases hvs
      | _ => exact .tolerated .map nofun

theorem decodeValue_null (db : Database) (field : String) (payload : Json) :
    decodeValue db field (.obj [("nullValue", payload)]) = .ok .null := rfl

/-- Arrays and maps whose payload is no object pass for empty ones. -/
theorem decodeValue_of_not_obj {payload : Json} (h : ∀ members, payload ≠ .obj members)
    (db : Database) (field : String) :
    decodeValue db field (.obj [("arrayValue", payload)]) = .ok (.array []) ∧
      decodeValue db field (.obj [("mapValue", payload)]) = .ok (.map []) := by
  cases payload with
  | obj members => exact absurd rfl (h members)
  | _ => exact ⟨rfl, rfl⟩

theorem exists_decodeValue {db : Database} {raw : Json} (h : IsTyped db .unchecked raw)
    (field : String) : ∃ v, decodeValue db field raw = .ok v := by
  induction h generalizing field with
  | null => exact ⟨_, rfl⟩
  | boolean b => exact ⟨_, rfl⟩
  | @numeral s i hs =>
    have hi : decodeInteger (.str s) = .ok i := decodeInteger_eq_ok_iff.mpr (Or.inl ⟨s, rfl, hs⟩)
    exact ⟨.integer i, map_eq_ok_iff.mpr ⟨i, hi, rfl⟩⟩
  | integer i =>
    have hi := decodeInteger_eq_ok_iff.mpr (Or.inr (Eq.refl (Json.number (.integer i.toInt))))
    exact ⟨.integer i, map_eq_ok_iff.mpr ⟨i, hi, rfl⟩⟩
  | double n => exact ⟨.double n.toDouble, rfl⟩
  | @word s hs =>
    obtain ⟨x, hx⟩ := exists_decodeDouble_iff.mpr (Or.inr ⟨s, hs, rfl⟩)
    exact ⟨.double x, map_eq_ok_iff.mpr ⟨x, hx, rfl⟩⟩
  | string s => exact ⟨_, rfl⟩
  | @timestamp s time hs =>
    exact ⟨.timestamp time, map_eq_ok_iff.mpr ⟨time, decodeTimestamp_eq_ok_iff.mpr hs, rfl⟩⟩
  | @reference s r hs =>
    exact ⟨.reference r, map_eq_ok_iff.mpr ⟨r, decodeReference_eq_ok_iff.mpr hs, rfl⟩⟩
  | @noElements members h =>
    have hget : (Json.obj members).get? "values" = none := h
    exact ⟨_, decodeValue_array_of_get? hget db field⟩
  | @elements members items h _ ih =>
    obtain ⟨vs, hvs⟩ := exists_decodeItems ih field 0
    have hmembers : decodeValues db field members = .ok vs := by
      rw [decodeValues_eq_lookup, show members.lookup valuesKey = _ from h]
      exact hvs
    exact ⟨.array vs, map_eq_ok_iff.mpr ⟨vs, hmembers, rfl⟩⟩
  | @noEntries members h =>
    have hget : (Json.obj members).get? "fields" = none := h
    exact ⟨_, decodeValue_map_of_get? hget db field⟩
  | @entries members entries h _ ih =>
    obtain ⟨vs, hvs⟩ := exists_decodeEntries ih (some field)
    have hmembers : decodeFields db field members = .ok vs := by
      rw [decodeFields_eq_lookup, show members.lookup fieldsKey = _ from h]
      exact hvs
    exact ⟨.map vs, map_eq_ok_iff.mpr ⟨vs, hmembers, rfl⟩⟩
  | @tolerated tag payload h =>
    cases tag with
    | null => exact ⟨_, decodeValue_null db field payload⟩
    | array => exact ⟨_, (decodeValue_of_not_obj h db field).1⟩
    | map => exact ⟨_, (decodeValue_of_not_obj h db field).2⟩
    | _ => exact h.elim

namespace Document

theorem decodeName_eq_ok_iff {db : Database} {raw : Json} {r : Reference} :
    decodeName db raw = .ok r ↔ ∃ s, raw.get? "name" = some (.str s) ∧
      db.referenceFromName? s = some r ∧ r.isDocument = true := by
  unfold decodeName
  constructor
  · intro h
    cases hname : (raw.get? "name").bind Json.str? with
    | none => simp [hname] at h
    | some s =>
      obtain ⟨payload, hget, hs⟩ := Option.bind_eq_some_iff.mp hname
      rw [Json.str?_eq_some_iff.mp hs] at hget
      cases hr : decodeReference db s with
      | error e => simp [hname, hr] at h
      | ok r' =>
        cases hdocument : r'.isDocument with
        | false => simp [hname, hr, hdocument] at h
        | true =>
          simp only [hname, hr, hdocument, if_true, Except.ok.injEq] at h
          subst h
          exact ⟨s, hget, decodeReference_eq_ok_iff.mp hr, hdocument⟩
  · rintro ⟨s, hget, hr, hdocument⟩
    simp [hget, Json.str?, decodeReference_eq_ok_iff.mpr hr, hdocument]

theorem exists_decodeName_iff {db : Database} {raw : Json} :
    (∃ r, decodeName db raw = .ok r) ↔
      ∃ s r, raw.get? "name" = some (.str s) ∧ db.referenceFromName? s = some r ∧
        r.isDocument = true := by
  simp only [decodeName_eq_ok_iff]
  exact exists_comm

theorem exists_decodeAllFields_iff {db : Database} {raw : Json} :
    (∃ fields, decodeAllFields db raw = .ok fields) ↔
      (raw.get? "fields" = none ∨ ∃ entries, raw.get? "fields" = some (.obj entries) ∧
        ∀ e ∈ entries, IsTyped db .unchecked e.2) := by
  have hkey : raw.get? "fields" = raw.get? fieldsKey := rfl
  rw [hkey]
  unfold decodeAllFields
  cases hget : raw.get? fieldsKey with
  | none => simp
  | some payload =>
    cases payload with
    | obj entries =>
      constructor
      · rintro ⟨fields, h⟩
        refine Or.inr ⟨entries, rfl, fun e he => ?_⟩
        obtain ⟨field, v, hv⟩ := decodeEntries_ok_mem h e he
        exact isTyped_of_decodeValue hv
      · rintro (h | ⟨entries', hentries', htyped⟩)
        · cases h
        · cases hentries'
          exact exists_decodeEntries (fun e he => exists_decodeValue (htyped e he)) none
    | _ => simp

theorem decodeTime_eq_ok_iff {key : String} {raw : Json} {time : Option Timestamp} :
    decodeTime key raw = .ok time ↔
      (∃ s t, raw.get? key = some (.str s) ∧ Timestamp.read? s = some t ∧ time = some t) ∨
        (∀ s, raw.get? key ≠ some (.str s)) ∧ time = none := by
  unfold decodeTime
  cases hget : raw.get? key with
  | none => simp [eq_comm]
  | some payload =>
    cases payload with
    | str s =>
      cases ht : Timestamp.read? s <;>
        simp [Json.str?, decodeTimestamp, ht, Except.map, eq_comm]
    | _ => simp [Json.str?, eq_comm]

theorem exists_decodeTime_iff {key : String} {raw : Json} :
    (∃ time, decodeTime key raw = .ok time) ↔ IsTime .unchecked (raw.get? key) := by
  constructor
  · rintro ⟨time, h⟩
    rcases decodeTime_eq_ok_iff.mp h with ⟨s, t, hget, ht, -⟩ | ⟨hget, -⟩
    · rw [hget]
      exact .text ht
    · cases hpayload : raw.get? key with
      | none => exact .missing
      | some payload =>
        by_cases hnull : payload = .null
        · rw [hnull]
          exact .null
        · refine .tolerated ⟨hnull, fun s hs => hget s ?_⟩
          rw [hpayload, hs]
  · intro h
    generalize hget : raw.get? key = payload at h
    cases h with
    | text ht => exact ⟨_, decodeTime_eq_ok_iff.mpr (Or.inl ⟨_, _, hget, ht, rfl⟩)⟩
    | missing => exact ⟨none, decodeTime_eq_ok_iff.mpr (Or.inr ⟨by simp [hget], rfl⟩)⟩
    | null => exact ⟨none, decodeTime_eq_ok_iff.mpr (Or.inr ⟨by simp [hget], rfl⟩)⟩
    | tolerated h =>
      refine ⟨none, decodeTime_eq_ok_iff.mpr (Or.inr ⟨fun s hs => ?_, rfl⟩)⟩
      rw [hget, Option.some.injEq] at hs
      exact h.2 s hs

theorem decode_eq_ok_iff {db : Database} {raw : Json} {d : Document} :
    decode db raw = .ok d ↔ decodeName db raw = .ok d.reference ∧
      decodeAllFields db raw = .ok d.fields ∧ decodeTime "createTime" raw = .ok d.createTime ∧
        decodeTime "updateTime" raw = .ok d.updateTime := by
  constructor
  · intro h
    obtain ⟨r, hr, h⟩ := bind_eq_ok_iff.mp h
    obtain ⟨fields, hfields, h⟩ := bind_eq_ok_iff.mp h
    obtain ⟨createTime, hcreate, h⟩ := bind_eq_ok_iff.mp h
    obtain ⟨updateTime, hupdate, h⟩ := bind_eq_ok_iff.mp h
    cases h
    exact ⟨hr, hfields, hcreate, hupdate⟩
  · rintro ⟨hname, hfields, hcreate, hupdate⟩
    exact decode_of_parts hname hfields hcreate hupdate

theorem exists_decode_iff {db : Database} {raw : Json} :
    (∃ d, decode db raw = .ok d) ↔ IsDocument db .unchecked raw := by
  constructor
  · rintro ⟨d, h⟩
    obtain ⟨hname, hfields, hcreate, hupdate⟩ := decode_eq_ok_iff.mp h
    exact ⟨exists_decodeName_iff.mp ⟨_, hname⟩, exists_decodeAllFields_iff.mp ⟨_, hfields⟩,
      exists_decodeTime_iff.mp ⟨_, hcreate⟩, exists_decodeTime_iff.mp ⟨_, hupdate⟩⟩
  · intro h
    obtain ⟨r, hname⟩ := exists_decodeName_iff.mpr h.name
    obtain ⟨fields, hfields⟩ := exists_decodeAllFields_iff.mpr h.fields
    obtain ⟨createTime, hcreate⟩ := exists_decodeTime_iff.mpr h.createTime
    obtain ⟨updateTime, hupdate⟩ := exists_decodeTime_iff.mpr h.updateTime
    exact ⟨⟨r, fields, createTime, updateTime⟩, decode_of_parts hname hfields hcreate hupdate⟩

end Document

/-- The decoder accepts exactly the typed values and documents of the grammar, but for the places
where it does not look: there, a null, an empty array or map, or no time comes out. -/
theorem decodes_iff_unchecked (db : Database) :
    (∀ field raw, (∃ v, decodeValue db field raw = .ok v) ↔ IsTyped db .unchecked raw) ∧
    (∀ raw, (∃ d, Document.decode db raw = .ok d) ↔ IsDocument db .unchecked raw) ∧
    (∀ field payload, Tolerance.unchecked.payload .null payload →
      decodeValue db field (.obj [("nullValue", payload)]) = .ok .null) ∧
    (∀ field payload, Tolerance.unchecked.payload .array payload →
      decodeValue db field (.obj [("arrayValue", payload)]) = .ok (.array [])) ∧
    (∀ field payload, Tolerance.unchecked.payload .map payload →
      decodeValue db field (.obj [("mapValue", payload)]) = .ok (.map [])) ∧
    ∀ key raw payload, raw.get? key = some payload → Tolerance.unchecked.time payload →
      Document.decodeTime key raw = .ok none := by
  refine ⟨?values, ?documents, ?null, ?array, ?map, ?time⟩
  case values =>
    intro field raw
    exact ⟨fun ⟨v, h⟩ => isTyped_of_decodeValue h, fun h => exists_decodeValue h field⟩
  case documents =>
    intro raw
    exact Document.exists_decode_iff
  case null =>
    intro field payload _
    exact decodeValue_null db field payload
  case array =>
    intro field payload h
    exact (decodeValue_of_not_obj h db field).1
  case map =>
    intro field payload h
    exact (decodeValue_of_not_obj h db field).2
  case time =>
    intro key raw payload hget h
    refine Document.decodeTime_eq_ok_iff.mpr (Or.inr ⟨fun s hs => ?_, rfl⟩)
    rw [hget, Option.some.injEq] at hs
    exact h.2 s hs

def carelessDocument : Json :=
  .obj [("createTime", .ofInt 5),
    ("fields", .obj [("f", .obj [("mapValue", .obj [("fields", .obj [("k", .obj [("arrayValue",
      .obj [("values", .arr [.obj [("nullValue", .ofInt 1)], .obj [("arrayValue", .str "x")],
        .obj [("integerValue", .str "+5")]])])])])])])]),
    ("name", .str (Database.sample.reference "users/u1").name)]

theorem isDocument_careless : IsDocument Database.sample .unchecked carelessDocument where
  name := ⟨_, Database.sample.reference "users/u1", rfl,
    Database.referenceFromName?_name (Database.sample.reference "users/u1"), by decide⟩
  fields := by
    refine Or.inr ⟨_, rfl, ?_⟩
    simp only [List.forall_mem_singleton]
    refine .entries rfl ?_
    simp only [List.forall_mem_singleton]
    refine .elements rfl ?_
    simp only [List.forall_mem_cons]
    have hnumeral : readInt? "+5".toList = some (5 : Int64).toInt := by decide
    exact ⟨.tolerated .null (nofun : Json.ofInt 1 ≠ .null), .tolerated .array nofun,
      .numeral hnumeral, by simp⟩
  createTime := .tolerated ⟨nofun, nofun⟩
  updateTime := .missing

theorem decodes_iff_unchecked_careless :
    (∃ d, Document.decode Database.sample carelessDocument = .ok d) ∧
      (∃ v, decodeValue Database.sample "f" (.obj [("mapValue", .str "x")]) = .ok v) ∧
      ¬ (∃ v, decodeValue Database.sample "f" (.obj [("arrayValue", .obj [("values", .null)])]) =
        .ok v) ∧
      decodeValue Database.sample "f" (.obj [("nullValue", .ofInt 1)]) = .ok .null ∧
      decodeValue Database.sample "f" (.obj [("arrayValue", .str "x")]) = .ok (.array []) ∧
      decodeValue Database.sample "f" (.obj [("mapValue", .str "x")]) = .ok (.map []) ∧
      Document.decodeTime "createTime" carelessDocument = .ok none := by
  obtain ⟨hvalues, hdocuments, hnull, harray, hmap, htime⟩ := decodes_iff_unchecked Database.sample
  have hstr : ∀ members, Json.str "x" ≠ .obj members := nofun
  refine ⟨(hdocuments _).mpr isDocument_careless, (hvalues "f" _).mpr (.tolerated .map hstr), ?_,
    hnull "f" _ nofun, harray "f" _ hstr, hmap "f" _ hstr,
    htime "createTime" _ (.ofInt 5) rfl ⟨nofun, nofun⟩⟩
  rintro ⟨v, h⟩
  cases h

/-- Accepted, though no typed value or document: a null with a payload, an array and a map without
an object, and a document with a number for a time. -/
theorem unchecked_payloads_decode :
    let typed (tag : Tag) (payload : Json) : Json := .obj [(tag.name, payload)]
    let timed : Json := .obj [("createTime", .ofInt 5),
      ("name", .str (Database.sample.reference "users/u1").name)]
    (decodeValue Database.sample "f" (typed .null (.ofInt 1)) = .ok .null ∧
      ¬ IsTyped Database.sample .strict (typed .null (.ofInt 1))) ∧
    (decodeValue Database.sample "f" (typed .array (.ofInt 5)) = .ok (.array []) ∧
      ¬ IsTyped Database.sample .strict (typed .array (.ofInt 5))) ∧
    (decodeValue Database.sample "f" (typed .map (.str "x")) = .ok (.map []) ∧
      ¬ IsTyped Database.sample .strict (typed .map (.str "x"))) ∧
    (∃ d, Document.decode Database.sample timed = .ok d) ∧
      ¬ IsDocument Database.sample .strict timed := by
  intro typed timed
  have hnull : Tolerance.unchecked.payload .null (.ofInt 1) := nofun
  have harray : Tolerance.unchecked.payload .array (.ofInt 5) := nofun
  have hmap : Tolerance.unchecked.payload .map (.str "x") := nofun
  have htime : Tolerance.unchecked.time (.ofInt 5) := ⟨nofun, nofun⟩
  refine ⟨⟨rfl, not_isTyped_of_unchecked hnull _⟩, ⟨rfl, not_isTyped_of_unchecked harray _⟩,
    ⟨rfl, not_isTyped_of_unchecked hmap _⟩, ?_, ?_⟩
  · have hname : (Database.sample.reference "users/u1").isDocument = true := by decide
    exact ⟨⟨_, [], none, none⟩,
      Document.decode_of_parts (Document.decodeName_of_get? rfl hname) rfl rfl rfl⟩
  · intro h
    exact not_isTime_of_unchecked htime h.createTime

end DocStore
