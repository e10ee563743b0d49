import DocStore.Proofs.Document.Strictness
import DocStore.Proofs.Path.Identity

/-!
# Names of other databases

The name of a database is put together from two ids, in which separators may
stand. Main statement: a database knows no name of another one exactly if
neither of the two names of databases lies inside the other database; it then
decodes no reference to the other and differs from it. Without separators in
the ids this is so as soon as one of them differs.
-/

set_option autoImplicit false

namespace DocStore

theorem append_separator_inj {x y r s : List Char} (hx : separator ∉ x) (hy : separator ∉ y) :
    x ++ separator :: r = y ++ separator :: s ↔ x = y ∧ r = s := by
  refine ⟨fun h => ?_, fun ⟨hxy, hrs⟩ => hxy ▸ hrs ▸ rfl⟩
  induction x generalizing y with
  | nil =>
    cases y with
    | nil => exact ⟨rfl, (List.cons.inj h).2⟩
    | cons c y =>
      rw [List.nil_append, List.cons_append, List.cons.injEq] at h
      exact absurd (h.1 ▸ List.mem_cons_self) hy
  | cons b x ih =>
    cases y with
    | nil =>
      rw [List.nil_append, List.cons_append, List.cons.injEq] at h
      exact absurd (h.1 ▸ List.mem_cons_self) hx
    | cons c y =>
      rw [List.cons_append, List.cons_append, List.cons.injEq] at h
      rw [List.mem_cons, not_or] at hx hy
      obtain ⟨hxy, hrs⟩ := ih hx.2 hy.2 h.2
      exact ⟨by rw [h.1, hxy], hrs⟩

namespace Config

structure Unsplit (c : Config) : Prop where
  project : separator ∉ c.projectId.toList
  database : separator ∉ c.databaseId.toList

theorem toList_rootPath (c : Config) :
    c.rootPath.toList = "projects/".toList ++ (c.projectId.toList ++
      separator :: ("databases/".toList ++ (c.databaseId.toList ++
        separator :: "documents".toList))) := by
  simp [rootPath, separator]

/-- Ids that are single pieces are read off any name. -/
theorem Unsplit.append_eq_iff {c d : Config} (hc : c.Unsplit) (hd : d.Unsplit)
    {r s : List Char} :
    c.rootPath.toList ++ r = d.rootPath.toList ++ s ↔
      c.projectId = d.projectId ∧ c.databaseId = d.databaseId ∧ r = s := by
  rw [toList_rootPath, toList_rootPath]
  simp only [List.append_assoc, List.cons_append, List.append_cancel_left_eq,
    append_separator_inj hc.project hd.project, append_separator_inj hc.database hd.database,
    String.toList_inj]

end Config

namespace Address

theorem exists_suffix_of_append {a : Address} {x rest : List Char} (h : a.suffix = x ++ rest)
    (hrest : rest = [] ∨ rest.head? = some separator) : ∃ b : Address, b.suffix = x := by
  have hx : x = [] ∨ x.head? = some separator := by
    cases x with
    | nil => exact Or.inl rfl
    | cons c x =>
      rcases a.suffix_starts with hnil | hhead
      · rw [hnil] at h
        cases h
      · rw [h] at hhead
        exact Or.inr hhead
  obtain ⟨hend, hdouble⟩ := (suffix_parse_eq_iff a.suffix_starts).mp (by rw [parse_suffix])
  refine ⟨_, (suffix_parse_eq_iff hx).mpr ⟨?_, ?_⟩⟩
  · rintro ⟨y, rfl⟩
    cases rest with
    | nil => exact hend ⟨y, by rw [h, List.append_nil]⟩
    | cons c rest =>
      rcases hrest with hnil | hhead
      · cases hnil
      · rw [List.head?_cons, Option.some.injEq] at hhead
        exact hdouble ⟨y, rest, by rw [h, hhead]; simp⟩
  · intro hinside
    exact hdouble (hinside.trans ⟨[], rest, by rw [h, List.nil_append]⟩)

end Address

namespace Database

def Isolated (a b : Database) : Prop :=
  ∀ r : Reference, r.database = b → a.referenceFromName? r.name = none

theorem referenceFromName?_eq_none_iff {a : Database} {n : String} :
    a.referenceFromName? n = none ↔ ∀ rest : List Char,
      rest = [] ∨ rest.head? = some separator → n.toList ≠ a.rootPath.toList ++ rest := by
  rw [Option.eq_none_iff_forall_ne_some]
  constructor
  · intro h rest hstart hn
    exact h _ (referenceFromName?_eq_some_iff.mpr ⟨rest, hn, hstart, rfl⟩)
  · intro h r hr
    obtain ⟨rest, hn, hstart, -⟩ := referenceFromName?_eq_some_iff.mp hr
    exact h rest hstart hn

theorem Isolated.name_ne {a b : Database} (h : a.Isolated b) {r : Reference}
    (hr : r.database = b) : r.name ≠ a.rootPath := by
  intro hname
  refine referenceFromName?_eq_none_iff.mp (h r hr) [] (Or.inl rfl) ?_
  rw [hname, List.append_nil]

theorem Isolated.rootPath_ne {a b : Database} (h : a.Isolated b) : b.rootPath ≠ a.rootPath :=
  h.name_ne (r := ⟨.root, b⟩) rfl

/-- The names of two databases overlap where one is the name of something in the other. -/
theorem isolated_iff {a b : Database} :
    a.Isolated b ↔ a.referenceFromName? b.rootPath = none ∧
      ∀ r : Reference, r.database = b → r.name ≠ a.rootPath := by
  constructor
  · intro h
    exact ⟨h ⟨.root, b⟩ rfl, fun r hr => h.name_ne hr⟩
  · rintro ⟨hroot, hnames⟩ r rfl
    refine referenceFromName?_eq_none_iff.mpr fun rest hstart hname => ?_
    have hsplit := (Reference.toList_below r r.database.rootPath).symm.trans hname
    -- The longer of the two names of databases is the shorter with the beginning of a path behind.
    rcases List.append_eq_append_iff.mp hsplit with ⟨x, hx, hsuffix⟩ | ⟨x, hx, hrest⟩
    · obtain ⟨b, hb⟩ := Address.exists_suffix_of_append hsuffix hstart
      refine hnames ⟨b, r.database⟩ rfl (String.toList_inj.mp ?_)
      exact (Reference.toList_below _ _).trans (by rw [hx, hb])
    · refine referenceFromName?_eq_none_iff.mp hroot x ?_ hx
      cases x with
      | nil => exact Or.inl rfl
      | cons c x =>
        rw [hrest] at hstart
        rcases hstart with hnil | hhead
        · cases hnil
        · exact Or.inr hhead

theorem isolated_iff_of_unsplit {a b : Database} (ha : a.config.Unsplit) (hb : b.config.Unsplit) :
    a.Isolated b ↔ a.config.projectId ≠ b.config.projectId ∨
      a.config.databaseId ≠ b.config.databaseId := by
  rw [← not_and_or]
  constructor
  · rintro h ⟨hproject, hdatabase⟩
    refine h.rootPath_ne ?_
    rw [Database.rootPath, Database.rootPath, Config.rootPath, Config.rootPath, hproject, hdatabase]
  · rintro h r rfl
    refine referenceFromName?_eq_none_iff.mpr fun rest _ hname => h ?_
    have hsplit := (Reference.toList_below r r.database.rootPath).symm.trans hname
    obtain ⟨hproject, hdatabase, -⟩ := (hb.append_eq_iff ha).mp hsplit
    exact ⟨hproject.symm, hdatabase.symm⟩

theorem Isolated.beq_eq_false {a b : Database} (h : a.Isolated b) : (a == b) = false := by
  rw [← Bool.not_eq_true]
  intro hab
  exact h.rootPath_ne (beq_iff.mp hab).1.symm

end Database

namespace Wire

inductive Refers (name : String) : Json → Prop
  | here : Refers name (.obj [("referenceValue", .str name)])
  | element {members : List (String × Json)} {items : List Json} {item : Json}
      (h : members.lookup "values" = some (.arr items)) (hitem : item ∈ items)
      (hrefers : Refers name item) : Refers name (.obj [("arrayValue", .obj members)])
  | entry {members entries : List (String × Json)} {e : String × Json}
      (h : members.lookup "fields" = some (.obj entries)) (he : e ∈ entries)
      (hrefers : Refers name e.2) : Refers name (.obj [("mapValue", .obj members)])

end Wire

open Wire

/-- Every name that a decoded value refers to is known. -/
theorem known_of_refers {db : Database} {name : String} {raw : Json} (hrefers : Refers name raw)
    {field : String} {v : Value} (h : decodeValue db field raw = .ok v) :
    ∃ r, db.referenceFromName? name = some r := by
  induction hrefers generalizing field v with
  | here =>
    obtain ⟨r, hr, -⟩ := map_eq_ok_iff.mp (show (decodeReference db name).map _ = _ from h)
    exact ⟨r, decodeReference_eq_ok_iff.mp hr⟩
  | @element members items item hlookup hitem _ ih =>
    obtain ⟨vs, hvs, -⟩ := map_eq_ok_iff.mp (show (decodeValues db field members).map _ = _ from h)
    rw [decodeValues_eq_lookup, show members.lookup valuesKey = _ from hlookup] at hvs
    obtain ⟨field', w, hw⟩ := decodeItems_ok_mem hvs item hitem
    exact ih hw
  | @entry members entries e hlookup he _ ih =>
    obtain ⟨vs, hvs, -⟩ := map_eq_ok_iff.mp (show (decodeFields db field members).map _ = _ from h)
    rw [decodeFields_eq_lookup, show members.lookup fieldsKey = _ from hlookup] at hvs
    obtain ⟨field', w, hw⟩ := decodeEntries_ok_mem hvs e he
    exact ih hw

theorem decodeReference_of_unknown {db : Database} {name : String}
    (h : db.referenceFromName? name = none) :
    decodeReference db name = .error (.invalidName name) := by
  rw [decodeReference, h]

theorem decodeValue_of_unknown {db : Database} {name : String}
    (h : db.referenceFromName? name = none) (field : String) :
    decodeValue db field (.obj [("referenceValue", .str name)]) = .error (.invalidName name) := by
  show (decodeReference db name).map _ = _
  rw [decodeReference_of_unknown h]
  rfl

namespace Document

theorem decode_of_unknown {db : Database} {name : String} (h : db.referenceFromName? name = none)
    {raw : Json} (hname : raw.get? "name" = some (.str name)) :
    decode db raw = .error (.invalidName name) := by
  have hdecode : decodeName db raw = .error (.invalidName name) := by
    simp only [decodeName, hname, Option.bind_some, Json.str?, decodeReference_of_unknown h]
  rw [decode, hdecode]
  rfl

theorem known_of_decode {db : Database} {raw : Json} {d : Document} (h : decode db raw = .ok d)
    {entries : List (String × Json)} (hfields : raw.get? "fields" = some (.obj entries))
    {e : String × Json} (he : e ∈ entries) {name : String} (hrefers : Refers name e.2) :
    ∃ r, db.referenceFromName? name = some r := by
  obtain ⟨-, hall, -, -⟩ := decode_eq_ok_iff.mp h
  rw [decodeAllFields, show raw.get? fieldsKey = _ from hfields] at hall
  obtain ⟨field, v, hv⟩ := decodeEntries_ok_mem hall e he
  exact known_of_refers hrefers hv

end Document

namespace Database

/-- A database knows no name of another one exactly if it does not know the own name of the other
and nothing in the other has its own name; for ids without separators that is if one of them
differs. The two are then not equal, and it decodes no document with a name of the other and no
value that refers to one, however deep. -/
theorem names_isolate_databases (a b : Database) :
    (a.Isolated b ↔ a.referenceFromName? b.rootPath = none ∧
      ∀ r : Reference, r.database = b → r.name ≠ a.rootPath) ∧
    (a.config.Unsplit → b.config.Unsplit → (a.Isolated b ↔
      a.config.projectId ≠ b.config.projectId ∨ a.config.databaseId ≠ b.config.databaseId)) ∧
    (a.Isolated b → (a == b) = false) ∧
    ∀ r : Reference, a.Isolated b → r.database = b →
      (∀ raw, raw.get? "name" = some (.str r.name) →
        Document.decode a raw = .error (.invalidName r.name)) ∧
      (∀ field, decodeValue a field (.obj [("referenceValue", .str r.name)]) =
        .error (.invalidName r.name)) ∧
      (∀ field raw v, Refers r.name raw → decodeValue a field raw ≠ .ok v) ∧
      ∀ raw entries e d, raw.get? "fields" = some (.obj entries) → e ∈ entries →
        Refers r.name e.2 → Document.decode a raw ≠ .ok d := by
  refine ⟨isolated_iff, isolated_iff_of_unsplit, Isolated.beq_eq_false, fun r hisolated hr => ?_⟩
  have hunknown : a.referenceFromName? r.name = none := hisolated r hr
  have hnone : ¬ ∃ s, a.referenceFromName? r.name = some s := by simp [hunknown]
  refine ⟨?names, decodeValue_of_unknown hunknown, ?values, ?fields⟩
  case names =>
    intro raw hname
    exact Document.decode_of_unknown hunknown hname
  case values =>
    intro field raw v hrefers h
    exact hnone (known_of_refers hrefers h)
  case fields =>
    intro raw entries e d hfields he hrefers h
    exact hnone (Document.known_of_decode h hfields he hrefers)

/-- The id of one database begins with that of the other; a value of the one refers to the other in
an entry of an element. -/
theorem names_isolate_databases_longer_id :
    let a := Database.sample
    let b : Database := ⟨{ projectId := "p", databaseId := "(default)s" }, 0, by decide⟩
    let r := b.reference "users/u1"
    let link : Json := .obj [("referenceValue", .str r.name)]
    let links : Json := .obj [("arrayValue", .obj [("values",
      .arr [.obj [("mapValue", .obj [("fields", .obj [("k", link)])])]])])]
    a.Isolated b ∧ (a == b) = false ∧
      Document.decode a (.obj [("name", .str r.name)]) = .error (.invalidName r.name) ∧
      decodeValue a "f" link = .error (.invalidName r.name) ∧
      (∀ v, decodeValue a "f" links ≠ .ok v) ∧
      ∀ d, Document.decode a (.obj [("fields", .obj [("f", links)]),
        ("name", .str (a.reference "users/u1").name)]) ≠ .ok d := by
  intro a b r link links
  obtain ⟨-, hids, hdistinct, hunknown⟩ := names_isolate_databases a b
  have hisolated : a.Isolated b :=
    (hids ⟨by decide, by decide⟩ ⟨by decide, by decide⟩).mpr (Or.inr (by decide))
  obtain ⟨hname, hlink, hvalue, hfield⟩ := hunknown r hisolated rfl
  have hrefers : Refers r.name links :=
    .element rfl (List.mem_singleton.mpr rfl) (.entry rfl (List.mem_singleton.mpr rfl) .here)
  exact ⟨hisolated, hdistinct hisolated, hname _ rfl, hlink "f", fun v => hvalue "f" _ v hrefers,
    fun d => hfield _ _ ("f", links) d rfl (List.mem_singleton.mpr rfl) hrefers⟩

/-- A separator in an id puts one database inside another, or gives two pairs of ids one name: names
of the one are known to the other, and databases with different ids are equal. -/
theorem nested_names_overlap :
    let outer := Database.sample
    let inner : Database :=
      ⟨{ projectId := "p", databaseId := "(default)/documents/a" }, 0, by decide⟩
    let left : Database := ⟨{ projectId := "a/databases/b", databaseId := "c" }, 0, by decide⟩
    let right : Database := ⟨{ projectId := "a", databaseId := "b/databases/c" }, 0, by decide⟩
    (outer.config.databaseId ≠ inner.config.databaseId ∧
      outer.referenceFromName? (inner.reference "users").name =
        some (outer.reference "a/documents/users") ∧
      (∃ v, decodeValue outer "f"
        (.obj [("referenceValue", .str (inner.reference "users").name)]) = .ok v) ∧
      ∃ d, Document.decode outer (.obj [("name", .str (inner.reference "users/u1").name)]) =
        .ok d) ∧
    left.config.projectId ≠ right.config.projectId ∧ (left == right) = true := by
  intro outer inner left right
  have hname : (inner.reference "users").name = (outer.reference "a/documents/users").name := by
    decide
  have hdocument :
      (inner.reference "users/u1").name = (outer.reference "a/documents/users/u1").name := by
    decide
  have hknown : outer.referenceFromName? (inner.reference "users").name =
      some (outer.reference "a/documents/users") := by
    rw [hname]
    exact referenceFromName?_name (outer.reference "a/documents/users")
  have hisDocument : (outer.reference "a/documents/users/u1").isDocument = true := by decide
  refine ⟨⟨by decide, hknown, exists_decodeValue (.reference hknown) "f", ?_⟩, by decide,
    by decide⟩
  rw [hdocument]
  exact ⟨⟨outer.reference "a/documents/users/u1", [], none, none⟩,
    Document.decode_of_parts (Document.decodeName_of_get? rfl hisDocument) rfl rfl rfl⟩

end Database

end DocStore
