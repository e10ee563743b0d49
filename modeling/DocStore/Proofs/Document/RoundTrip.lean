import DocStore.Document.Basic
import DocStore.Proofs.Value.Wire

/-!
# Documents read back

A document has a wire form, too: its name, its fields and the times it has. Main
statement: values of any depth, the fields of a document and whole documents are
read back from their wire forms, and a form with its elements or entries left out
is the empty one.
-/

set_option autoImplicit false

namespace DocStore

theorem decodeValues_eq_lookup (db : Database) (field : String) (members : List (String × Json)) :
    decodeValues db field members =
      match members.lookup valuesKey with
      | none => .ok []
      | some (.arr items) => decodeItems db field 0 items
      | some _ => .error (.unsupported field .valuesNotArray) := by
  induction members with
  | nil => rfl
  | cons member members ih =>
    obtain ⟨key, payload⟩ := member
    rw [decodeValues.eq_def, List.lookup_cons]
    by_cases hkey : key = valuesKey
    · rw [hkey, beq_self_eq_true]
      cases payload <;> rfl
    · rw [beq_false_of_ne (Ne.symm hkey), ← ih]
      exact if_neg hkey

theorem decodeFields_eq_lookup (db : Database) (field : String) (members : List (String × Json)) :
    decodeFields db field members =
      match members.lookup fieldsKey with
      | none => .ok []
      | some (.obj entries) => decodeEntries db (some field) entries
      | some _ => .error (.unsupported field .fieldsNotObject) := by
  induction members with
  | nil => rfl
  | cons member members ih =>
    obtain ⟨key, payload⟩ := member
    rw [decodeFields.eq_def, List.lookup_cons]
    by_cases hkey : key = fieldsKey
    · rw [hkey, beq_self_eq_true]
      cases payload <;> rfl
    · rw [beq_false_of_ne (Ne.symm hkey), ← ih]
      exact if_neg hkey

theorem decodeValue_array_of_get? {payload : Json} (h : payload.get? "values" = none)
    (db : Database) (field : String) :
    decodeValue db field (.obj [("arrayValue", payload)]) = .ok (.array []) := by
  cases payload with
  | obj members =>
    show (decodeValues db field members).map Value.array = _
    have hlookup : members.lookup valuesKey = none := h
    rw [decodeValues_eq_lookup, hlookup]
    rfl
  | _ => rfl

theorem decodeValue_map_of_get? {payload : Json} (h : payload.get? "fields" = none)
    (db : Database) (field : String) :
    decodeValue db field (.obj [("mapValue", payload)]) = .ok (.map []) := by
  cases payload with
  | obj members =>
    show (decodeFields db field members).map Value.map = _
    have hlookup : members.lookup fieldsKey = none := h
    rw [decodeFields_eq_lookup, hlookup]
    rfl
  | _ => rfl

namespace Document

def wire (d : Document) : Json :=
  .obj (Json.optional "createTime" (d.createTime.map fun t => .str t.render) ++
    [("fields", .obj (Value.wireEntries d.fields)), ("name", .str d.reference.name)] ++
    Json.optional "updateTime" (d.updateTime.map fun t => .str t.render))

structure Portable (db : Database) (d : Document) : Prop where
  database : d.reference.database = db
  isDocument : d.reference.isDocument = true
  fields : ∀ e ∈ d.fields, e.2.Portable db
  createTime : ∀ t, d.createTime = some t → 0 ≤ t.date.year ∧ t.date.year ≤ 9999
  updateTime : ∀ t, d.updateTime = some t → 0 ≤ t.date.year ∧ t.date.year ≤ 9999

theorem decodeAllFields_of_get? {db : Database} {raw : Json} {entries : List (String × Value)}
    (hraw : raw.get? "fields" = some (.obj (Value.wireEntries entries)))
    (h : ∀ e ∈ entries, e.2.Portable db) : decodeAllFields db raw = .ok entries := by
  have hget : raw.get? fieldsKey = some (.obj (Value.wireEntries entries)) := hraw
  rw [decodeAllFields, hget]
  exact decodeEntries_wireEntries (fun e he => decodeValue_wire (h e he)) none

theorem decodeTime_of_get? {key : String} {raw : Json} {time : Option Timestamp}
    (hraw : raw.get? key = time.map fun t => .str t.render)
    (h : ∀ t, time = some t → 0 ≤ t.date.year ∧ t.date.year ≤ 9999) :
    decodeTime key raw = .ok time := by
  rw [decodeTime, hraw]
  cases time with
  | none => rfl
  | some t =>
    show (decodeTimestamp t.render).map some = _
    rw [decodeTimestamp_render (h t rfl)]
    rfl

theorem decodeName_of_get? {raw : Json} {r : Reference}
    (hraw : raw.get? "name" = some (.str r.name)) (h : r.isDocument = true) :
    decodeName r.database raw = .ok r := by
  simp only [decodeName, hraw, Option.bind_some, Json.str?, decodeReference_name, h, if_true]

theorem decode_of_parts {db : Database} {raw : Json} {d : Document}
    (hname : decodeName db raw = .ok d.reference) (hfields : decodeAllFields db raw = .ok d.fields)
    (hcreate : decodeTime "createTime" raw = .ok d.createTime)
    (hupdate : decodeTime "updateTime" raw = .ok d.updateTime) : decode db raw = .ok d := by
  rw [decode, hname, hfields, hcreate, hupdate]
  rfl

theorem decode_wire {db : Database} {d : Document} (h : d.Portable db) :
    decode db d.wire = .ok d := by
  have hlookups : d.wire.get? "name" = some (.str d.reference.name) ∧
      d.wire.get? "fields" = some (.obj (Value.wireEntries d.fields)) ∧
      d.wire.get? "createTime" = d.createTime.map (fun t => .str t.render) ∧
      d.wire.get? "updateTime" = d.updateTime.map (fun t => .str t.render) := by
    rw [wire]
    cases d.createTime <;> cases d.updateTime <;> exact ⟨rfl, rfl, rfl, rfl⟩
  obtain ⟨hname, hfields, hcreate, hupdate⟩ := hlookups
  apply decode_of_parts
  · rw [← h.database]
    exact decodeName_of_get? hname h.isDocument
  · exact decodeAllFields_of_get? hfields h.fields
  · exact decodeTime_of_get? hcreate h.createTime
  · exact decodeTime_of_get? hupdate h.updateTime

end Document

/-- The decoder undoes the wire form of values of any depth, under whatever name they are decoded,
of the fields of a raw document, and of whole documents. Where the elements or the entries are left
out, there are none. -/
theorem decode_wire_forms (db : Database) :
    (∀ v : Value, v.Portable db → ∀ field, decodeValue db field v.wire = .ok v) ∧
    (∀ raw entries, raw.get? "fields" = some (.obj (Value.wireEntries entries)) →
      (∀ e ∈ entries, e.2.Portable db) → Document.decodeAllFields db raw = .ok entries) ∧
    (∀ d : Document, d.Portable db → Document.decode db d.wire = .ok d) ∧
    (∀ payload, payload.get? "values" = none →
      ∀ field, decodeValue db field (.obj [("arrayValue", payload)]) = .ok (.array [])) ∧
    (∀ payload, payload.get? "fields" = none →
      ∀ field, decodeValue db field (.obj [("mapValue", payload)]) = .ok (.map [])) ∧
    ∀ raw, raw.get? "fields" = none → Document.decodeAllFields db raw = .ok [] := by
  refine ⟨?values, ?fields, ?documents, ?elements, ?entries, ?none⟩
  case values =>
    intro v hv field
    exact decodeValue_wire hv field
  case fields =>
    intro raw entries hraw hentries
    exact Document.decodeAllFields_of_get? hraw hentries
  case documents =>
    intro d hd
    exact Document.decode_wire hd
  case elements =>
    intro payload hpayload field
    exact decodeValue_array_of_get? hpayload db field
  case entries =>
    intro payload hpayload field
    exact decodeValue_map_of_get? hpayload db field
  case none =>
    intro raw hraw
    have hget : raw.get? fieldsKey = none := hraw
    rw [Document.decodeAllFields, hget]

def nestedValue : Value :=
  .map [("", .array [.double (.finite (.zero true)), .map [("a.b[0]", .array []),
      ("a/b", .reference (Database.sample.reference "users/u1"))]]),
    ("x", .timestamp .leapSecond)]

theorem portable_nested : nestedValue.Portable Database.sample := by
  have hinner : (Value.map [("a.b[0]", .array []),
      ("a/b", .reference (Database.sample.reference "users/u1"))]).Portable Database.sample := by
    apply Value.Portable.map
    simp only [List.forall_mem_cons]
    exact ⟨.array (by simp), .reference rfl, by simp⟩
  apply Value.Portable.map
  simp only [List.forall_mem_cons]
  refine ⟨.array ?_, .timestamp (by decide), by simp⟩
  simp only [List.forall_mem_cons]
  exact ⟨.double _, hinner, by simp⟩

def nestedDocument : Document :=
  ⟨Database.sample.reference "users/u1", [("n", nestedValue)], none,
    some ⟨0, 0, by decide, by decide⟩⟩

theorem decode_wire_forms_nested :
    decodeValue Database.sample "f" nestedValue.wire = .ok nestedValue ∧
    Document.decodeAllFields Database.sample nestedDocument.wire = .ok [("n", nestedValue)] ∧
    Document.decode Database.sample nestedDocument.wire = .ok nestedDocument ∧
    decodeValue Database.sample "f" (.obj [("arrayValue", .obj [])]) = .ok (.array []) ∧
    decodeValue Database.sample "f" (.obj [("mapValue", .obj [])]) = .ok (.map []) ∧
    Document.decodeAllFields Database.sample (.obj []) = .ok [] := by
  obtain ⟨hvalues, hfields, hdocuments, helements, hentries, hnone⟩ :=
    decode_wire_forms Database.sample
  have hentry : ∀ e ∈ nestedDocument.fields, e.2.Portable Database.sample := by
    simp only [nestedDocument, List.forall_mem_cons]
    exact ⟨portable_nested, by simp⟩
  have hdocument : nestedDocument.Portable Database.sample := by
    refine ⟨rfl, rfl, hentry, ?_, ?_⟩
    · intro t ht
      cases ht
    · intro t ht
      cases ht
      decide
  exact ⟨hvalues nestedValue portable_nested "f", hfields _ _ rfl hentry, hdocuments _ hdocument,
    helements _ rfl "f", hentries _ rfl "f", hnone _ rfl⟩

end DocStore
