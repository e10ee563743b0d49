import DocStore.Proofs.Document.Containment
import DocStore.Proofs.Value.Numbers

/-!
# Plain JSON displayed again

A value that was read from plain JSON is displayed as that JSON, with two
rewrites: an integer beyond 64 bits with a sign becomes the nearest double, and an
object that marks a reference becomes the name of it. Main statement: at every
depth these are the only changes, so JSON without such integers and objects comes
back as it was, and all references in the value are those of the database.
-/

set_option autoImplicit false

namespace DocStore

open Wire

def JsonNumber.canon : JsonNumber → JsonNumber
  | integer n =>
    if n ≤ 9223372036854775807 then integer n
    else match Double.ofInt n with
      | .finite x => double x
      | _ => integer n
  | double x => double x

namespace Json

def markedPath? : List (String × Json) → Option String
  | [(key, str path)] => if key = "$ref" then some path else none
  | _ => none

mutual

def canon (db : Database) : Json → Json
  | null => null
  | bool b => bool b
  | number n => number n.canon
  | str s => str s
  | arr items => arr (canonItems db items)
  | obj members =>
    match markedPath? members with
    | some path => str (db.reference path).name
    | none => obj (canonMembers db members)

def canonItems (db : Database) : List Json → List Json
  | [] => []
  | item :: items => item.canon db :: canonItems db items

def canonMembers (db : Database) : List (String × Json) → List (String × Json)
  | [] => []
  | (key, value) :: members => (key, value.canon db) :: canonMembers db members

end

theorem markedPath?_eq_some_iff {members : List (String × Json)} {path : String} :
    markedPath? members = some path ↔ members = [("$ref", str path)] := by
  constructor
  · intro h
    unfold markedPath? at h
    split at h
    · split at h
      · next hkey =>
        cases h
        rw [hkey]
      · cases h
    · cases h
  · rintro rfl
    rfl

inductive Plain : Json → Prop
  | null : Plain null
  | bool (b : Bool) : Plain (bool b)
  | integer {n : Int} (h : n ≤ 9223372036854775807) : Plain (number (.integer n))
  | double (x : FiniteDouble) : Plain (number (.double x))
  | str (s : String) : Plain (str s)
  | arr {items : List Json} (h : ∀ item ∈ items, Plain item) : Plain (arr items)
  | obj {members : List (String × Json)} (hmark : ∀ path, members ≠ [("$ref", .str path)])
      (h : ∀ m ∈ members, Plain m.2) : Plain (obj members)

@[simp] theorem plain_integer {n : Int} :
    (number (.integer n)).Plain ↔ n ≤ 9223372036854775807 := by
  constructor
  · intro h
    cases h with
    | integer h => exact h
  · exact .integer

@[simp] theorem plain_arr {items : List Json} : (arr items).Plain ↔ ∀ item ∈ items, item.Plain := by
  constructor
  · intro h
    cases h with
    | arr h => exact h
  · exact .arr

theorem plain_obj {members : List (String × Json)} :
    (obj members).Plain ↔ markedPath? members = none ∧ ∀ m ∈ members, m.2.Plain := by
  have hmark : markedPath? members = none ↔ ∀ path, members ≠ [("$ref", str path)] := by
    simp only [Option.eq_none_iff_forall_ne_some, ne_eq, markedPath?_eq_some_iff]
  rw [hmark]
  constructor
  · intro h
    cases h with
    | obj hmark h => exact ⟨hmark, h⟩
  · exact fun h => .obj h.1 h.2

end Json

theorem JsonNumber.canon_of_large {n : Int} (hn : 9223372036854775807 < n)
    (hfits : n < 18446744073709551616) :
    ∃ x, (integer n).canon = double x ∧ x.IsNearest (n * unitsPerOne) 1 := by
  obtain ⟨x, hx, hnearest⟩ := exists_ofInt_of_fits ⟨by omega, hfits⟩
  refine ⟨x, ?_, hnearest⟩
  simp only [canon, if_neg (Int.not_le.mpr hn), hx]

namespace Json

theorem canon_number_eq_iff {n : JsonNumber} (h : n.Fits) :
    n.canon = n ↔ (number n).Plain := by
  cases n with
  | double x => exact ⟨fun _ => .double x, fun _ => rfl⟩
  | integer n =>
    rw [plain_integer]
    by_cases hn : n ≤ 9223372036854775807
    · simp [JsonNumber.canon, hn]
    · obtain ⟨x, hx, -⟩ := JsonNumber.canon_of_large (Int.not_le.mp hn) h.2
      simp [hx, hn]

mutual

/-- Exactly the plain values stay as they are. -/
theorem Fits.canon_eq_iff {db : Database} : ∀ {j : Json}, j.Fits → (j.canon db = j ↔ j.Plain)
  | null, _ => ⟨fun _ => .null, fun _ => rfl⟩
  | bool b, _ => ⟨fun _ => .bool b, fun _ => rfl⟩
  | str s, _ => ⟨fun _ => .str s, fun _ => rfl⟩
  | number n, h => by
    rw [canon, Json.number.injEq]
    exact canon_number_eq_iff (fits_number.mp h)
  | arr items, h => by
    rw [canon, Json.arr.injEq, canonItems_eq_iff (fits_arr.mp h), plain_arr]
  | obj members, h => by
    rw [canon, plain_obj]
    cases markedPath? members with
    | some path => simp
    | none => simp [canonMembers_eq_iff (fits_obj.mp h)]

theorem canonItems_eq_iff {db : Database} : ∀ {items : List Json}, (∀ item ∈ items, item.Fits) →
    (canonItems db items = items ↔ ∀ item ∈ items, item.Plain)
  | [], _ => by simp [canonItems]
  | item :: items, h => by
    obtain ⟨hitem, hitems⟩ := List.forall_mem_cons.mp h
    rw [canonItems, List.cons.injEq, hitem.canon_eq_iff, canonItems_eq_iff hitems,
      List.forall_mem_cons]

theorem canonMembers_eq_iff {db : Database} : ∀ {members : List (String × Json)},
    (∀ m ∈ members, m.2.Fits) → (canonMembers db members = members ↔ ∀ m ∈ members, m.2.Plain)
  | [], _ => by simp [canonMembers]
  | (key, value) :: members, h => by
    obtain ⟨hvalue, hmembers⟩ := List.forall_mem_cons.mp h
    rw [canonMembers, List.cons.injEq, Prod.mk.injEq, hvalue.canon_eq_iff,
      canonMembers_eq_iff hmembers, List.forall_mem_cons]
    simp

end

end Json

theorem JsonNumber.toValue_eq (n : JsonNumber) :
    (∃ i, n.toValue = .integer i) ∨ ∃ x, n.toValue = .double x := by
  rw [toValue]
  split
  · next i _ => exact Or.inl ⟨i, rfl⟩
  · exact Or.inr ⟨_, rfl⟩

theorem JsonNumber.Becomes.toJson {n : JsonNumber} {v : Value} (h : n.Becomes v) :
    v.toJson = .number n.canon := by
  cases h with
  | integer n =>
    have hmax : n.toInt ≤ 9223372036854775807 := Int64.toInt_le n
    rw [Value.toJson, canon, if_pos hmax, Json.ofInt]
  | double x => rfl
  | rounded hn _ hread =>
    rw [Value.toJson, Double.toPlainJson]
    simp only [canon, if_neg (Int.not_le.mpr hn), hread]

namespace Value

variable (db : Database)

theorem ofJson_obj (members : List (String × Json)) :
    ofJson db (.obj members) =
      match Json.markedPath? members with
      | some path => reference (db.reference path)
      | none => map (ofMembers db members) := by
  cases hmark : Json.markedPath? members with
  | some path =>
    rw [Json.markedPath?_eq_some_iff.mp hmark]
    rfl
  | none =>
    unfold Json.markedPath? at hmark
    split at hmark
    · next key path =>
      split at hmark
      · cases hmark
      · next hkey =>
        rw [ofJson, referenceKey]
        exact if_neg hkey
    · next hmembers =>
      rw [ofJson]
      exact hmembers

mutual

/-- Display undoes reading up to the rewrites. -/
theorem toJson_ofJson : ∀ {j : Json}, j.Fits → (ofJson db j).toJson = j.canon db
  | .null, _ | .bool _, _ | .str _, _ => rfl
  | .number n, h => by
    rw [ofJson, Json.canon]
    exact (JsonNumber.becomes_toValue (Json.fits_number.mp h)).toJson
  | .arr items, h => by rw [ofJson, toJson, Json.canon, toItems_ofItems (Json.fits_arr.mp h)]
  | .obj members, h => by
    rw [ofJson_obj, Json.canon]
    cases Json.markedPath? members with
    | some path => rfl
    | none => exact congrArg Json.obj (toMembers_ofMembers (Json.fits_obj.mp h))

theorem toItems_ofItems : ∀ {items : List Json}, (∀ item ∈ items, item.Fits) →
    toItems (ofItems db items) = Json.canonItems db items
  | [], _ => rfl
  | item :: items, h => by
    obtain ⟨hitem, hitems⟩ := List.forall_mem_cons.mp h
    rw [ofItems, toItems, Json.canonItems, toJson_ofJson hitem, toItems_ofItems hitems]

theorem toMembers_ofMembers : ∀ {members : List (String × Json)}, (∀ m ∈ members, m.2.Fits) →
    toMembers (ofMembers db members) = Json.canonMembers db members
  | [], _ => rfl
  | (key, value) :: members, h => by
    obtain ⟨hvalue, hmembers⟩ := List.forall_mem_cons.mp h
    rw [ofMembers, toMembers, Json.canonMembers, toJson_ofJson hvalue,
      toMembers_ofMembers hmembers]

end

theorem mem_ofItems {items : List Json} {v : Value} (h : v ∈ ofItems db items) :
    ∃ j, v = ofJson db j := by
  induction items with
  | nil => cases h
  | cons item items ih =>
    rcases List.mem_cons.mp h with rfl | h
    · exact ⟨item, rfl⟩
    · exact ih h

theorem mem_ofMembers {members : List (String × Json)} {e : String × Value}
    (h : e ∈ ofMembers db members) : ∃ j, e.2 = ofJson db j := by
  induction members with
  | nil => cases h
  | cons m members ih =>
    rcases List.mem_cons.mp h with rfl | h
    · exact ⟨m.2, rfl⟩
    · exact ih h

theorem exists_json_of_children {j : Json} {step : Step} {v : Value}
    (h : (step, v) ∈ (ofJson db j).children) : ∃ k, v = ofJson db k := by
  cases j with
  | arr items =>
    obtain ⟨⟨w, index⟩, hw, heq⟩ := List.mem_map.mp h
    cases heq
    exact mem_ofItems db (List.fst_mem_of_mem_zipIdx hw)
  | obj members =>
    rw [ofJson_obj] at h
    split at h
    · cases h
    · obtain ⟨e, he, heq⟩ := List.mem_map.mp h
      cases heq
      exact mem_ofMembers db he
  | number n =>
    rw [ofJson] at h
    rcases n.toValue_eq with ⟨_, hn⟩ | ⟨_, hn⟩ <;> rw [hn] at h <;> cases h
  | _ => cases h

theorem exists_path_of_ofJson {j : Json} {r : Reference} (h : ofJson db j = reference r) :
    ∃ path, r = db.reference path := by
  cases j with
  | obj members =>
    rw [ofJson_obj] at h
    split at h
    · next path _ =>
      cases h
      exact ⟨path, rfl⟩
    · cases h
  | number n =>
    rw [ofJson] at h
    rcases n.toValue_eq with ⟨_, hn⟩ | ⟨_, hn⟩ <;> rw [hn] at h <;> cases h
  | _ => cases h

theorem exists_path_of_visits {v w : Value} {route : List Step} (h : v.Visits route w) :
    ∀ j r, v = ofJson db j → w = reference r → ∃ path, r = db.reference path := by
  induction h with
  | start v =>
    intro j r hj hr
    exact exists_path_of_ofJson db (hj.symm.trans hr)
  | descend hstep _ ih =>
    intro j r hj hr
    rw [hj] at hstep
    obtain ⟨k, hk⟩ := exists_json_of_children db hstep
    exact ih k r hk hr

/-- A value that was read from plain JSON is displayed as that JSON with the two rewrites, at every
depth, so it comes back as it was exactly if there is nothing to rewrite. The references in it are
those of the database, the integers that are rewritten become the nearest doubles, and all that is
read from a text has numbers of these kinds. -/
theorem display_of_plain_json (db : Database) :
    (∀ j : Json, j.Fits → (ofJson db j).toJson = j.canon db) ∧
    (∀ j : Json, j.Fits → ((ofJson db j).toJson = j ↔ j.Plain)) ∧
    (∀ (j : Json) route (r : Reference), (ofJson db j).Visits route (.reference r) →
      ∃ path, r = db.reference path) ∧
    (∀ n : Int, 9223372036854775807 < n → n < 18446744073709551616 → ∃ x : FiniteDouble,
      (JsonNumber.integer n).canon = .double x ∧ x.IsNearest (n * unitsPerOne) 1) ∧
    ∀ (text : String) (j : Json), Json.read? text = some j → j.Fits := by
  refine ⟨fun j h => toJson_ofJson db h, fun j h => ?_, fun j route r h => ?_,
    fun n hn hfits => JsonNumber.canon_of_large hn hfits, fun text j h => Json.fits_of_read? h⟩
  · rw [toJson_ofJson db h]
    exact h.canon_eq_iff
  · exact exists_path_of_visits db h j r rfl rfl

/-- Only marks in their exact shape count, at any depth; beside them only what is beyond 64 bits
with a sign changes. -/
theorem display_of_plain_json_marks :
    let db := Database.sample
    let one : FiniteDouble := ⟨false, twoPow 52, 1022, by decide⟩
    let kept : Json := .arr [.number (.integer 1), .number (.double one),
      .obj [("$ref", .number (.integer 1))], .obj [("$ref", .str "a"), ("x", .null)]]
    let changed : Json := .obj [("k", .arr [.obj [("$ref", .str "/u//1")]]),
      ("n", .number (.integer 9223372036854775808))]
    (ofJson db kept).toJson = kept ∧
      (ofJson db changed).toJson =
        .obj [("k", .arr [.str "projects/p/databases/(default)/documents/u/1"]),
          ("n", .number (.double .beyondInt64))] ∧
      ∀ route r, (ofJson db changed).Visits route (.reference r) → r.database = db := by
  intro db one kept changed
  obtain ⟨hcanon, hplain, hinside, -⟩ := display_of_plain_json db
  have hlarge : (JsonNumber.integer 9223372036854775808).canon = .double .beyondInt64 := by
    decide +kernel
  have hkept : kept.Plain := by
    simp [kept, Json.plain_obj, Json.markedPath?, Json.Plain.double, Json.Plain.str, Json.Plain.null]
  have hkeptFits : kept.Fits := by simp [kept, JsonNumber.Fits]
  have hchanged : changed.Fits := by simp [changed, JsonNumber.Fits]
  refine ⟨(hplain kept hkeptFits).mpr hkept, ?_, fun route r h => ?_⟩
  · rw [hcanon changed hchanged]
    simp only [changed, Json.canon, Json.canonMembers, Json.canonItems, Json.markedPath?, hlarge]
    rfl
  · obtain ⟨path, rfl⟩ := hinside changed route r h
    rfl

end Value

end DocStore
