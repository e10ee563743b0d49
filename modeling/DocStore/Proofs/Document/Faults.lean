import DocStore.Proofs.Document.Strictness

/-!
# Faults of typed values

What stands directly below a typed value, the elements of an array by their
index and the entries of a map by their keys, and what is wrong with a value where
it stands, written down apart from the decoder. Main statement: the decoder
either refuses a value for its own fault or decodes what stands below it, in
order.
-/

set_option autoImplicit false

namespace DocStore

namespace Wire

inductive Step where
  | item (index : Nat)
  | entry (key : String)

def Step.text : Step → String
  | item index => "[" ++ natString index ++ "]"
  | entry key => "." ++ key

def elements : Option Json → List (Step × Json)
  | some (.arr items) => items.zipIdx.map fun item => (.item item.2, item.1)
  | _ => []

def entries : Option Json → List (Step × Json)
  | some (.obj members) => members.map fun m => (.entry m.1, m.2)
  | _ => []

def children : Json → List (Step × Json)
  | .obj [("arrayValue", .obj members)] => elements (members.lookup "values")
  | .obj [("mapValue", .obj members)] => entries (members.lookup "fields")
  | _ => []

inductive Fault (db : Database) : Json → (String → DocumentError) → Prop
  | shape {raw : Json} (h : ∀ key payload, raw ≠ .obj [(key, payload)]) :
      Fault db raw fun name => .unsupported name .notSingleKey
  | kind {key : String} {payload : Json} (h : ∀ tag : Tag, key ≠ tag.name) :
      Fault db (.obj [(key, payload)]) fun name => .unsupported name (.unknownKind key)
  | boolean {payload : Json} (h : ∀ b, payload ≠ .bool b) :
      Fault db (.obj [("booleanValue", payload)]) fun name => .unsupported name .notBoolean
  | numeral {s : String} (h : ∀ i : Int64, readInt? s.toList ≠ some i.toInt) :
      Fault db (.obj [("integerValue", .str s)]) fun _ => .invalidInteger s
  | integer {payload : Json} (h : ∀ i : Int64, payload ≠ .number (.integer i.toInt))
      (htext : ∀ s, payload ≠ .str s) :
      Fault db (.obj [("integerValue", payload)]) fun _ => .invalidInteger payload.render
  | double {payload : Json} (h : ∀ n, payload ≠ .number n)
      (hword : ∀ s ∈ ["NaN", "Infinity", "-Infinity"], payload ≠ .str s) :
      Fault db (.obj [("doubleValue", payload)]) fun name => .unsupported name .notNumber
  | string {payload : Json} (h : ∀ s, payload ≠ .str s) :
      Fault db (.obj [("stringValue", payload)]) fun name => .unsupported name (.notString .string)
  | timestamp {payload : Json} (h : ∀ s, payload ≠ .str s) :
      Fault db (.obj [("timestampValue", payload)])
        fun name => .unsupported name (.notString .timestamp)
  | instant {s : String} (h : Timestamp.read? s = none) :
      Fault db (.obj [("timestampValue", .str s)]) fun _ => .invalidTimestamp s
  | reference {payload : Json} (h : ∀ s, payload ≠ .str s) :
      Fault db (.obj [("referenceValue", payload)])
        fun name => .unsupported name (.notString .reference)
  | foreign {s : String} (h : db.referenceFromName? s = none) :
      Fault db (.obj [("referenceValue", .str s)]) fun _ => .invalidName s
  | values {members : List (String × Json)} {payload : Json}
      (h : members.lookup "values" = some payload) (hitems : ∀ items, payload ≠ .arr items) :
      Fault db (.obj [("arrayValue", .obj members)]) fun name => .unsupported name .valuesNotArray
  | fields {members : List (String × Json)} {payload : Json}
      (h : members.lookup "fields" = some payload) (hentries : ∀ entries, payload ≠ .obj entries) :
      Fault db (.obj [("mapValue", .obj members)]) fun name => .unsupported name .fieldsNotObject

theorem Fault.name_eq {db : Database} {raw : Json} {report : String → DocumentError}
    (h : Fault db raw report) {name field : String} {fault : WireFault}
    (hreport : report name = .unsupported field fault) : field = name := by
  cases h <;> cases hreport <;> rfl

theorem mem_children {raw : Json} {c : Step × Json} (h : c ∈ children raw) :
    (∃ members items, raw = .obj [("arrayValue", .obj members)] ∧
      members.lookup "values" = some (.arr items) ∧ c.2 ∈ items) ∨
    ∃ members entries, raw = .obj [("mapValue", .obj members)] ∧
      members.lookup "fields" = some (.obj entries) ∧ ∃ e ∈ entries, e.2 = c.2 := by
  unfold children at h
  split at h
  · next members =>
    generalize hvalues : members.lookup "values" = payload at h
    unfold elements at h
    split at h
    · next items =>
      obtain ⟨item, hitem, rfl⟩ := List.mem_map.mp h
      exact Or.inl ⟨members, items, rfl, hvalues, List.fst_mem_of_mem_zipIdx hitem⟩
    · cases h
  · next members =>
    generalize hfields : members.lookup "fields" = payload at h
    unfold entries at h
    split at h
    · next entries =>
      obtain ⟨e, he, rfl⟩ := List.mem_map.mp h
      exact Or.inr ⟨members, entries, rfl, hfields, e, he, rfl⟩
    · cases h
  · cases h

theorem childInduction {motive : Json → Prop}
    (h : ∀ raw, (∀ c ∈ children raw, motive c.2) → motive raw) (raw : Json) : motive raw := by
  induction raw using typedInduction with
  | h raw hitems hentries =>
    apply h
    intro c hc
    rcases mem_children hc with ⟨members, items, hraw, hlookup, hmem⟩ |
      ⟨members, entries, hraw, hlookup, e, he, heq⟩
    · exact hitems members items hraw hlookup c.2 hmem
    · rw [← heq]
      exact hentries members entries hraw hlookup e he

end Wire

open Wire

def decodeChild (db : Database) (field : String) (c : Step × Json) : Except DocumentError Value :=
  decodeValue db (field ++ c.1.text) c.2

theorem decodeItems_eq_collect_children (db : Database) (field : String) (items : List Json) :
    decodeItems db field 0 items =
      collect (decodeChild db field) (items.zipIdx.map fun item => (.item item.2, item.1)) := by
  have hpath : ∀ index, itemPath field index = field ++ (Step.item index).text := by
    intro index
    simp only [itemPath, Step.text, String.append_assoc]
  simp only [decodeItems_eq_collect, collect_map, decodeChild, hpath]

theorem decodeEntries_eq_collect_children (db : Database) (field : String)
    (entries : List (String × Json)) :
    decodeEntries db (some field) entries =
      (collect (decodeChild db field) (entries.map fun e => (.entry e.1, e.2))).map
        fun vs => (entries.map Prod.fst).zip vs := by
  have hpath : ∀ key, entryPath (some field) key = field ++ (Step.entry key).text := by
    intro key
    rw [entryPath, Step.text, String.append_assoc]
  simp only [decodeEntries_eq_collect, collect_map, decodeChild, hpath]

theorem decodeValue_of_fault {db : Database} {raw : Json} {report : String → DocumentError}
    (h : Fault db raw report) (field : String) :
    decodeValue db field raw = .error (report field) := by
  cases h with
  | shape h =>
    match raw with
    | .obj [(key, payload)] => exact absurd rfl (h key payload)
    | .obj [] | .obj (_ :: _ :: _) | .null | .bool _ | .number _ | .str _ | .arr _ => rfl
  | @kind key payload h =>
    have hkey : Tag.ofName? key = none := by
      rw [Option.eq_none_iff_forall_ne_some]
      intro tag htag
      exact h tag (Tag.name_of_ofName? htag).symm
    unfold decodeValue
    rw [hkey]
  | @boolean payload h =>
    cases payload with
    | bool b => exact absurd rfl (h b)
    | _ => rfl
  | @numeral s h =>
    have hnone : (readInt? s.toList).bind int64? = none := by
      rw [Option.eq_none_iff_forall_ne_some]
      intro i hi
      obtain ⟨n, hn, hfits⟩ := Option.bind_eq_some_iff.mp hi
      rw [← int64?_eq_some_iff.mp hfits] at hn
      exact h i hn
    show (decodeInteger (.str s)).map Value.integer = _
    rw [decodeInteger, hnone]
    rfl
  | @integer payload h htext =>
    have hrefused : decodeInteger payload = .error (.invalidInteger payload.render) := by
      cases payload with
      | str s => exact absurd rfl (htext s)
      | number n =>
        have hnone : n.toInt64? = none := by
          cases n with
          | double x => rfl
          | integer n =>
            rw [JsonNumber.toInt64?, Option.eq_none_iff_forall_ne_some]
            intro i hi
            exact h i (by rw [int64?_eq_some_iff.mp hi])
        rw [decodeInteger, hnone]
      | _ => rfl
    show (decodeInteger payload).map Value.integer = _
    rw [hrefused]
    rfl
  | @double payload h hword =>
    have hrefused : decodeDouble field payload = .error (.unsupported field .notNumber) := by
      cases payload with
      | number n => exact absurd rfl (h n)
      | str s =>
        have hne : ∀ word ∈ ["NaN", "Infinity", "-Infinity"], s ≠ word := by
          rintro word hmem rfl
          exact hword s hmem rfl
        simp only [List.forall_mem_cons] at hne
        rw [decodeDouble, if_neg hne.1, if_neg hne.2.1, if_neg hne.2.2.1]
      | _ => rfl
    show (decodeDouble field payload).map Value.double = _
    rw [hrefused]
    rfl
  | @string payload h =>
    cases payload with
    | str s => exact absurd rfl (h s)
    | _ => rfl
  | @timestamp payload h =>
    cases payload with
    | str s => exact absurd rfl (h s)
    | _ => rfl
  | @instant s h =>
    show (decodeTimestamp s).map Value.timestamp = _
    rw [decodeTimestamp, h]
    rfl
  | @reference payload h =>
    cases payload with
    | str s => exact absurd rfl (h s)
    | _ => rfl
  | @foreign s h =>
    show (decodeReference db s).map Value.reference = _
    rw [decodeReference, h]
    rfl
  | @values members payload h hitems =>
    show (decodeValues db field members).map Value.array = _
    rw [decodeValues_eq_lookup, show members.lookup valuesKey = _ from h]
    cases payload with
    | arr items => exact absurd rfl (hitems items)
    | _ => rfl
  | @fields members payload h hentries =>
    show (decodeFields db field members).map Value.map = _
    rw [decodeFields_eq_lookup, show members.lookup fieldsKey = _ from h]
    cases payload with
    | obj entries => exact absurd rfl (hentries entries)
    | _ => rfl

def DecodesChildren (db : Database) (raw : Json) : Prop :=
  ∃ wrap : List Value → Value, ∀ field, decodeValue db field raw =
    (collect (decodeChild db field) (children raw)).map wrap

theorem DecodesChildren.of_leaf {db : Database} {raw : Json} (v : Value)
    (hchildren : children raw = []) (h : ∀ field, decodeValue db field raw = .ok v) :
    DecodesChildren db raw := by
  refine ⟨fun _ => v, fun field => ?_⟩
  rw [h field, hchildren]
  rfl

theorem children_of_tag (tag : Tag) (h : tag ≠ .array ∧ tag ≠ .map) (payload : Json) :
    children (.obj [(tag.name, payload)]) = [] := by
  have hname : tag.name ≠ "arrayValue" ∧ tag.name ≠ "mapValue" := by
    revert h
    cases tag <;> decide
  unfold children
  split
  · next heq => simp [hname] at heq
  · next heq => simp [hname] at heq
  · rfl

theorem fault_or_decodes_integer (db : Database) (payload : Json) :
    (∃ report, Fault db (.obj [("integerValue", payload)]) report) ∨
      DecodesChildren db (.obj [("integerValue", payload)]) := by
  cases hi : decodeInteger payload with
  | ok i =>
    have hdecode : ∀ field, decodeValue db field (.obj [("integerValue", payload)]) =
        .ok (.integer i) := fun _ => map_eq_ok_iff.mpr ⟨i, hi, rfl⟩
    exact Or.inr (.of_leaf (.integer i) (children_of_tag .integer (by decide) payload) hdecode)
  | error e =>
    have hne : ∀ i, decodeInteger payload ≠ .ok i := by simp [hi]
    by_cases htext : ∃ s, payload = .str s
    · obtain ⟨s, rfl⟩ := htext
      refine Or.inl ⟨_, .numeral fun i h => ?_⟩
      exact hne i (decodeInteger_eq_ok_iff.mpr (Or.inl ⟨s, rfl, h⟩))
    · refine Or.inl ⟨_, .integer (fun i h => ?_) (not_exists.mp htext)⟩
      exact hne i (decodeInteger_eq_ok_iff.mpr (Or.inr h))

theorem fault_or_decodes_double (db : Database) (payload : Json) :
    (∃ report, Fault db (.obj [("doubleValue", payload)]) report) ∨
      DecodesChildren db (.obj [("doubleValue", payload)]) := by
  by_cases hnumber : ∃ n, payload = .number n
  · obtain ⟨n, rfl⟩ := hnumber
    exact Or.inr (.of_leaf (.double n.toDouble) rfl fun _ => rfl)
  by_cases hword : ∃ s ∈ ["NaN", "Infinity", "-Infinity"], payload = .str s
  · obtain ⟨s, hs, rfl⟩ := hword
    simp only [List.mem_cons, List.not_mem_nil, or_false] at hs
    rcases hs with rfl | rfl | rfl
    · exact Or.inr (.of_leaf (.double .nan) rfl fun _ => rfl)
    · exact Or.inr (.of_leaf (.double (.infinity false)) rfl fun _ => rfl)
    · exact Or.inr (.of_leaf (.double (.infinity true)) rfl fun _ => rfl)
  · exact Or.inl ⟨_, .double (not_exists.mp hnumber) fun s hs h => hword ⟨s, hs, h⟩⟩

theorem fault_or_decodes_array (db : Database) (members : List (String × Json)) :
    (∃ report, Fault db (.obj [("arrayValue", .obj members)]) report) ∨
      DecodesChildren db (.obj [("arrayValue", .obj members)]) := by
  have hchildren : children (.obj [("arrayValue", .obj members)]) =
      elements (members.lookup "values") := rfl
  cases hlookup : members.lookup "values" with
  | none =>
    have hget : (Json.obj members).get? "values" = none := hlookup
    rw [hlookup] at hchildren
    exact Or.inr (.of_leaf (.array []) hchildren (decodeValue_array_of_get? hget db))
  | some payload =>
    cases payload with
    | arr items =>
      refine Or.inr ⟨.array, fun field => ?_⟩
      show (decodeValues db field members).map Value.array = _
      rw [decodeValues_eq_lookup, show members.lookup valuesKey = _ from hlookup, hchildren,
        hlookup, elements, ← decodeItems_eq_collect_children]
    | _ => exact Or.inl ⟨_, .values hlookup nofun⟩

theorem fault_or_decodes_map (db : Database) (members : List (String × Json)) :
    (∃ report, Fault db (.obj [("mapValue", .obj members)]) report) ∨
      DecodesChildren db (.obj [("mapValue", .obj members)]) := by
  have hchildren : children (.obj [("mapValue", .obj members)]) =
      entries (members.lookup "fields") := rfl
  cases hlookup : members.lookup "fields" with
  | none =>
    have hget : (Json.obj members).get? "fields" = none := hlookup
    rw [hlookup] at hchildren
    exact Or.inr (.of_leaf (.map []) hchildren (decodeValue_map_of_get? hget db))
  | some payload =>
    cases payload with
    | obj es =>
      refine Or.inr ⟨fun vs => .map ((es.map Prod.fst).zip vs), fun field => ?_⟩
      show (decodeFields db field members).map Value.map = _
      rw [decodeFields_eq_lookup, show members.lookup fieldsKey = _ from hlookup, hchildren,
        hlookup, entries]
      dsimp only
      rw [decodeEntries_eq_collect_children]
      cases collect (decodeChild db field) (es.map fun e => (.entry e.1, e.2)) <;> rfl
    | _ => exact Or.inl ⟨_, .fields hlookup nofun⟩

/-- The step lemma: a node is at fault where it stands, or is decoded through its children. -/
theorem fault_or_decodes_children (db : Database) (raw : Json) :
    (∃ report, Fault db raw report) ∨ DecodesChildren db raw := by
  match raw with
  | .obj [] | .obj (_ :: _ :: _) | .null | .bool _ | .number _ | .str _ | .arr _ =>
    exact Or.inl ⟨_, .shape (by simp)⟩
  | .obj [(key, payload)] =>
    cases hkey : Tag.ofName? key with
    | none =>
      refine Or.inl ⟨_, .kind fun tag htag => ?_⟩
      rw [htag, Tag.ofName?_name] at hkey
      cases hkey
    | some tag =>
      obtain rfl := Tag.name_of_ofName? hkey
      cases tag with
      | null =>
        have hchildren := children_of_tag .null (by decide) payload
        exact Or.inr (.of_leaf .null hchildren fun _ => rfl)
      | integer => exact fault_or_decodes_integer db payload
      | double => exact fault_or_decodes_double db payload
      | boolean =>
        cases payload with
        | bool b => exact Or.inr (.of_leaf (.boolean b) rfl fun _ => rfl)
        | _ => exact Or.inl ⟨_, .boolean nofun⟩
      | string =>
        cases payload with
        | str s => exact Or.inr (.of_leaf (.string s) rfl fun _ => rfl)
        | _ => exact Or.inl ⟨_, .string nofun⟩
      | timestamp =>
        cases payload with
        | str s =>
          cases ht : Timestamp.read? s with
          | none => exact Or.inl ⟨_, .instant ht⟩
          | some t =>
            exact Or.inr (.of_leaf (.timestamp t) rfl fun _ =>
              map_eq_ok_iff.mpr ⟨t, decodeTimestamp_eq_ok_iff.mpr ht, rfl⟩)
        | _ => exact Or.inl ⟨_, .timestamp nofun⟩
      | reference =>
        cases payload with
        | str s =>
          cases hr : db.referenceFromName? s with
          | none => exact Or.inl ⟨_, .foreign hr⟩
          | some r =>
            exact Or.inr (.of_leaf (.reference r) rfl fun _ =>
              map_eq_ok_iff.mpr ⟨r, decodeReference_eq_ok_iff.mpr hr, rfl⟩)
        | _ => exact Or.inl ⟨_, .reference nofun⟩
      | array =>
        cases payload with
        | obj members => exact fault_or_decodes_array db members
        | _ => exact Or.inr (.of_leaf (.array []) rfl fun _ => rfl)
      | map =>
        cases payload with
        | obj members => exact fault_or_decodes_map db members
        | _ => exact Or.inr (.of_leaf (.map []) rfl fun _ => rfl)

theorem children_of_fault {db : Database} {raw : Json} {report : String → DocumentError}
    (h : Fault db raw report) : children raw = [] := by
  cases h with
  | shape h =>
    unfold children
    split
    · exact absurd rfl (h _ _)
    · exact absurd rfl (h _ _)
    · rfl
  | kind h =>
    unfold children
    split
    · next heq =>
      simp only [Json.obj.injEq, List.cons.injEq, Prod.mk.injEq] at heq
      exact absurd heq.1.1 (h .array)
    · next heq =>
      simp only [Json.obj.injEq, List.cons.injEq, Prod.mk.injEq] at heq
      exact absurd heq.1.1 (h .map)
    · rfl
  | boolean _ => exact children_of_tag .boolean (by decide) _
  | numeral _ => rfl
  | integer _ _ => exact children_of_tag .integer (by decide) _
  | double _ _ => exact children_of_tag .double (by decide) _
  | string _ => exact children_of_tag .string (by decide) _
  | timestamp _ => exact children_of_tag .timestamp (by decide) _
  | instant _ => rfl
  | reference _ => exact children_of_tag .reference (by decide) _
  | foreign _ => rfl
  | @values members payload h hitems =>
    show elements (members.lookup "values") = []
    rw [h]
    cases payload with
    | arr items => exact absurd rfl (hitems items)
    | _ => rfl
  | @fields members payload h hentries =>
    show entries (members.lookup "fields") = []
    rw [h]
    cases payload with
    | obj entries => exact absurd rfl (hentries entries)
    | _ => rfl

theorem decodesChildren_of_children (db : Database) {raw : Json} (h : children raw ≠ []) :
    DecodesChildren db raw := by
  rcases fault_or_decodes_children db raw with ⟨report, hreport⟩ | hdecodes
  · exact absurd (children_of_fault hreport) h
  · exact hdecodes

end DocStore
