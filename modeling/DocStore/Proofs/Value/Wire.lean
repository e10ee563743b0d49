import DocStore.Document.Decode
import DocStore.Proofs.Path.Names
import DocStore.Proofs.Time.Timestamps

/-!
# The wire form of values

Every value, with arrays and maps at any depth, has a form on the wire, written
down here key by key and apart from the tags of the decoder. The decoder undoes
it for values that belong to its database. The path that names a value in errors
does not matter for the result, so the induction is on the value alone.
-/

set_option autoImplicit false

namespace DocStore

namespace Value

mutual

def wire : Value → Json
  | null => .obj [("nullValue", .null)]
  | boolean b => .obj [("booleanValue", .bool b)]
  | integer n => .obj [("integerValue", .str (intString n.toInt))]
  | double (.finite x) => .obj [("doubleValue", .number (.double x))]
  | double .nan => .obj [("doubleValue", .str "NaN")]
  | double (.infinity false) => .obj [("doubleValue", .str "Infinity")]
  | double (.infinity true) => .obj [("doubleValue", .str "-Infinity")]
  | string s => .obj [("stringValue", .str s)]
  | timestamp t => .obj [("timestampValue", .str t.render)]
  | reference r => .obj [("referenceValue", .str r.name)]
  | array items => .obj [("arrayValue", .obj [("values", .arr (wireItems items))])]
  | map entries => .obj [("mapValue", .obj [("fields", .obj (wireEntries entries))])]

def wireItems : List Value → List Json
  | [] => []
  | item :: items => item.wire :: wireItems items

def wireEntries : List (String × Value) → List (String × Json)
  | [] => []
  | (key, value) :: entries => (key, value.wire) :: wireEntries entries

end

inductive Portable (db : Database) : Value → Prop
  | null : Portable db null
  | boolean (b : Bool) : Portable db (boolean b)
  | integer (n : Int64) : Portable db (integer n)
  | double (x : Double) : Portable db (double x)
  | string (s : String) : Portable db (string s)
  | timestamp {t : Timestamp} (h : 0 ≤ t.date.year ∧ t.date.year ≤ 9999) :
      Portable db (timestamp t)
  | reference {r : Reference} (h : r.database = db) : Portable db (reference r)
  | array {items : List Value} (h : ∀ v ∈ items, Portable db v) : Portable db (array items)
  | map {entries : List (String × Value)} (h : ∀ e ∈ entries, Portable db e.2) :
      Portable db (map entries)

end Value

open Value

theorem decodeInteger_intString (n : Int64) : decodeInteger (.str (intString n.toInt)) = .ok n := by
  have hread : (readInt? (intString n.toInt).toList).bind int64? = some n := by
    rw [intString, String.toList_ofList, readInt?_intText, Option.bind_some, int64?_toInt]
  simp only [decodeInteger, hread]

theorem decodeTimestamp_render {t : Timestamp} (h : 0 ≤ t.date.year ∧ t.date.year ≤ 9999) :
    decodeTimestamp t.render = .ok t := by
  simp only [decodeTimestamp, Timestamp.read?_render h]

theorem decodeReference_name (r : Reference) : decodeReference r.database r.name = .ok r := by
  simp only [decodeReference, Database.referenceFromName?_name]

/-- Elements are read back in order, wherever their numbering begins. -/
theorem decodeItems_wireItems {db : Database} {items : List Value}
    (h : ∀ v ∈ items, ∀ field, decodeValue db field v.wire = .ok v) (field : String)
    (index : Nat) : decodeItems db field index (wireItems items) = .ok items := by
  induction items generalizing index with
  | nil => rfl
  | cons v vs ih =>
    have hv := h v (List.mem_cons_self ..)
    have hvs := ih (fun w hw => h w (List.mem_cons_of_mem v hw)) (index + 1)
    simp only [wireItems, decodeItems, hv, hvs]

theorem decodeEntries_wireEntries {db : Database} {entries : List (String × Value)}
    (h : ∀ e ∈ entries, ∀ field, decodeValue db field e.2.wire = .ok e.2)
    (start : Option String) : decodeEntries db start (wireEntries entries) = .ok entries := by
  induction entries with
  | nil => rfl
  | cons e es ih =>
    obtain ⟨key, v⟩ := e
    have hv : ∀ field, decodeValue db field v.wire = .ok v := h (key, v) (List.mem_cons_self ..)
    have hes := ih fun e he => h e (List.mem_cons_of_mem _ he)
    simp only [wireEntries, decodeEntries, hv, hes]

theorem decodeValue_wire {db : Database} {v : Value} (h : v.Portable db) (field : String) :
    decodeValue db field v.wire = .ok v := by
  -- By induction on `Portable`: its cases for arrays and maps give the hypothesis for every element,
  -- and at every path, which the list lemmas need.
  induction h generalizing field with
  | null => rfl
  | boolean b => rfl
  | integer n =>
    show (decodeInteger (.str (intString n.toInt))).map Value.integer = _
    rw [decodeInteger_intString]
    rfl
  | double x =>
    match x with
    | .finite x => rfl
    | .nan => rfl
    | .infinity false => rfl
    | .infinity true => rfl
  | string s => rfl
  | @timestamp t ht =>
    show (decodeTimestamp t.render).map Value.timestamp = _
    rw [decodeTimestamp_render ht]
    rfl
  | @reference r hr =>
    show (decodeReference db r.name).map Value.reference = _
    rw [← hr, decodeReference_name]
    rfl
  | @array items _ ih =>
    show (decodeItems db field 0 (wireItems items)).map Value.array = _
    rw [decodeItems_wireItems ih]
    rfl
  | @map entries _ ih =>
    show (decodeEntries db (some field) (wireEntries entries)).map Value.map = _
    rw [decodeEntries_wireEntries ih]
    rfl

end DocStore
