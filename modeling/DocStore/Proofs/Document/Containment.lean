import DocStore.Proofs.Document.FirstFault
import DocStore.Proofs.Path.Separators
import Mathlib.Data.List.Forall2

/-!
# References of decoded documents

Decoding keeps every value in its place: what stands at the end of a route
through a decoded value was decoded from the node at the end of the same route
through the raw one. Main statement: a decoded document and all the references in
it, at any depth, belong to the database by which it was decoded, their names are
those of the raw document without idle separators, and no steps lead from them
out of the database.
-/

set_option autoImplicit false

namespace DocStore

open Wire

namespace Value

def children : Value → List (Step × Value)
  | array items => items.zipIdx.map fun item => (.item item.2, item.1)
  | map entries => entries.map fun e => (.entry e.1, e.2)
  | _ => []

inductive Visits : Value → List Step → Value → Prop
  | start (v : Value) : Visits v [] v
  | descend {v child w : Value} {step : Step} {route : List Step}
      (hstep : (step, child) ∈ v.children) (h : Visits child route w) :
      Visits v (step :: route) w

theorem children_of_tag {v : Value} (h : v.tag ≠ .array ∧ v.tag ≠ .map) : v.children = [] := by
  cases v with
  | array items => exact absurd rfl h.1
  | map entries => exact absurd rfl h.2
  | _ => rfl

end Value

def DecodedAt (db : Database) (c : Step × Json) (d : Step × Value) : Prop :=
  c.1 = d.1 ∧ ∃ name, decodeValue db name c.2 = .ok d.2

def Follows (db : Database) (raw : Json) (v : Value) : Prop :=
  List.Forall₂ (DecodedAt db) (Wire.children raw) v.children

theorem decodedAt_items {db : Database} {field : String} {items : List Json} {vs : List Value}
    {index : Nat} (h : decodeItems db field index items = .ok vs) :
    List.Forall₂ (DecodedAt db) ((items.zipIdx index).map fun item => (.item item.2, item.1))
      ((vs.zipIdx index).map fun v => (.item v.2, v.1)) := by
  induction items generalizing vs index with
  | nil =>
    cases h
    exact .nil
  | cons item items ih =>
    rw [decodeItems] at h
    cases hitem : decodeValue db (itemPath field index) item with
    | error e => simp only [hitem, reduceCtorEq] at h
    | ok v =>
      cases hitems : decodeItems db field (index + 1) items with
      | error e => simp only [hitem, hitems, reduceCtorEq] at h
      | ok ws =>
        simp only [hitem, hitems, Except.ok.injEq] at h
        subst h
        exact .cons ⟨rfl, _, hitem⟩ (ih hitems)

theorem decodedAt_entries {db : Database} {start : Option String} {entries : List (String × Json)}
    {vs : List (String × Value)} (h : decodeEntries db start entries = .ok vs) :
    List.Forall₂ (DecodedAt db) (entries.map fun e => (.entry e.1, e.2))
      (vs.map fun v => (.entry v.1, v.2)) := by
  induction entries generalizing vs with
  | nil =>
    cases h
    exact .nil
  | cons e entries ih =>
    obtain ⟨key, payload⟩ := e
    rw [decodeEntries] at h
    cases hentry : decodeValue db (entryPath start key) payload with
    | error e => simp only [hentry, reduceCtorEq] at h
    | ok v =>
      cases hentries : decodeEntries db start entries with
      | error e => simp only [hentry, hentries, reduceCtorEq] at h
      | ok ws =>
        simp only [hentry, hentries, Except.ok.injEq] at h
        subst h
        exact .cons ⟨rfl, _, hentry⟩ (ih hentries)

/-- The step lemma: a decoded value follows the raw one. -/
theorem follows_of_decodeValue {db : Database} {field : String} {raw : Json} {v : Value}
    (h : decodeValue db field raw = .ok v) : Follows db raw v := by
  obtain ⟨tag, payload, rfl⟩ := exists_tag_of_decodeValue h
  have htag : v.tag = tag := tag_of_decodeValue h
  cases tag with
  | array =>
    cases payload with
    | obj members =>
      obtain ⟨vs, hvs, rfl⟩ :=
        map_eq_ok_iff.mp (show (decodeValues db field members).map _ = _ from h)
      rw [decodeValues_eq_lookup] at hvs
      show List.Forall₂ _ (elements (members.lookup valuesKey)) _
      split at hvs
      · next hlookup =>
        cases hvs
        rw [hlookup]
        exact .nil
      · next items hlookup =>
        rw [hlookup]
        exact decodedAt_items hvs
      · cases hvs
    | _ =>
      cases h
      exact .nil
  | map =>
    cases payload with
    | obj members =>
      obtain ⟨vs, hvs, rfl⟩ :=
        map_eq_ok_iff.mp (show (decodeFields db field members).map _ = _ from h)
      rw [decodeFields_eq_lookup] at hvs
      show List.Forall₂ _ (entries (members.lookup fieldsKey)) _
      split at hvs
      · next hlookup =>
        cases hvs
        rw [hlookup]
        exact .nil
      · next es hlookup =>
        rw [hlookup]
        exact decodedAt_entries hvs
      · cases hvs
    | _ =>
      cases h
      exact .nil
  | _ =>
    rw [Follows, children_of_tag _ (by decide), Value.children_of_tag (by rw [htag]; decide)]
    exact .nil

theorem follows_of_decodeAllFields {db : Database} {raw : Json} {fields : List (String × Value)}
    (h : Document.decodeAllFields db raw = .ok fields) :
    Follows db (.obj [("mapValue", raw)]) (.map fields) := by
  rw [Document.decodeAllFields] at h
  cases raw with
  | obj members =>
    show List.Forall₂ _ (entries (members.lookup fieldsKey)) _
    cases hlookup : members.lookup fieldsKey with
    | none =>
      rw [show (Json.obj members).get? fieldsKey = none from hlookup] at h
      cases h
      exact .nil
    | some payload =>
      rw [show (Json.obj members).get? fieldsKey = some payload from hlookup] at h
      cases payload with
      | obj es => exact decodedAt_entries h
      | _ => cases h
  | _ =>
    cases h
    exact .nil

theorem exists_mem_of_mem_right {α β : Type} {R : α → β → Prop} {as : List α} {bs : List β}
    (h : List.Forall₂ R as bs) {b : β} (hb : b ∈ bs) : ∃ a ∈ as, R a b := by
  induction h with
  | nil => cases hb
  | @cons a b' as bs hab _ ih =>
    rcases List.mem_cons.mp hb with rfl | hb
    · exact ⟨a, List.mem_cons_self .., hab⟩
    · obtain ⟨a', ha', hab'⟩ := ih hb
      exact ⟨a', List.mem_cons_of_mem a ha', hab'⟩

namespace Follows

variable {db : Database} {raw : Json} {v : Value} {step : Step} {route : List Step}

/-- What stands below the value, at any depth, was decoded from the node in the same place. -/
theorem exists_node (h : Follows db raw v) {w : Value} (hw : v.Visits (step :: route) w) :
    ∃ node name, Wire.Visits raw (step :: route) node ∧ decodeValue db name node = .ok w := by
  -- Behind the first step everything is a decoded value, which follows its node again.
  induction route generalizing raw v step with
  | nil =>
    cases hw with
    | descend hstep hw =>
      obtain ⟨⟨step, node⟩, hnode, rfl, hdecoded⟩ := exists_mem_of_mem_right h hstep
      cases hw
      obtain ⟨name, hname⟩ := hdecoded
      exact ⟨node, name, .descend hnode (.start node), hname⟩
  | cons next route ih =>
    cases hw with
    | descend hstep hw =>
      obtain ⟨⟨step, child⟩, hchild, rfl, field, hfield⟩ := exists_mem_of_mem_right h hstep
      obtain ⟨node, name, hnode, hname⟩ := ih (follows_of_decodeValue hfield) hw
      exact ⟨node, name, .descend hchild hnode, hname⟩

/-- Nothing is lost: every node below gives what stands in its place. -/
theorem exists_value (h : Follows db raw v) {node : Json}
    (hnode : Wire.Visits raw (step :: route) node) :
    ∃ w name, v.Visits (step :: route) w ∧ decodeValue db name node = .ok w := by
  induction route generalizing raw v step with
  | nil =>
    cases hnode with
    | descend hstep hnode =>
      obtain ⟨⟨step, w⟩, hw, rfl, hdecoded⟩ := exists_mem_of_mem_right h.flip hstep
      cases hnode
      obtain ⟨name, hname⟩ := hdecoded
      exact ⟨w, name, .descend hw (.start w), hname⟩
  | cons next route ih =>
    cases hnode with
    | descend hstep hnode =>
      obtain ⟨⟨step, child⟩, hchild, rfl, field, hfield⟩ := exists_mem_of_mem_right h.flip hstep
      obtain ⟨w, name, hw, hname⟩ := ih (follows_of_decodeValue hfield) hnode
      exact ⟨w, name, .descend hchild hw, hname⟩

end Follows

theorem exists_name_of_fields {db : Database} {raw : Json} {fields : List (String × Value)}
    (hfields : Document.decodeAllFields db raw = .ok fields) {route : List Step} {r : Reference}
    (h : (Value.map fields).Visits route (.reference r)) : ∃ name,
      Wire.Visits (.obj [("mapValue", raw)]) route (.obj [("referenceValue", .str name)]) ∧
        db.referenceFromName? name = some r := by
  cases route with
  | nil => cases h
  | cons step route =>
    obtain ⟨node, field, hnode, hr⟩ := (follows_of_decodeAllFields hfields).exists_node h
    obtain ⟨name, rfl, hname⟩ := decodeValue_eq_reference_iff.mp hr
    exact ⟨name, hnode, hname⟩

theorem exists_reference_of_fields {db : Database} {raw : Json} {fields : List (String × Value)}
    (hfields : Document.decodeAllFields db raw = .ok fields) {route : List Step} {name : String}
    (h : Wire.Visits (.obj [("mapValue", raw)]) route (.obj [("referenceValue", .str name)])) :
    ∃ r, (Value.map fields).Visits route (.reference r) ∧
      db.referenceFromName? name = some r := by
  cases route with
  | nil =>
    -- The fields as a whole are under the tag of maps.
    generalize hnode : Json.obj [("referenceValue", .str name)] = node at h
    cases h
    simp at hnode
  | cons step route =>
    obtain ⟨w, field, hw, hnode⟩ := (follows_of_decodeAllFields hfields).exists_value h
    obtain ⟨r, hr, rfl⟩ :=
      map_eq_ok_iff.mp (show (decodeReference db name).map Value.reference = _ from hnode)
    exact ⟨r, hw, decodeReference_eq_ok_iff.mp hr⟩

namespace Database

def Owns (db : Database) (name : String) : Prop :=
  name = db.rootPath ∨ (db.rootPath.toList ++ [separator]) <+: name.toList

def tidyName (db : Database) (name : String) : String :=
  String.ofList
    (db.rootPath.toList ++ withoutIdle (name.toList.drop db.rootPath.toList.length))

theorem owns_name (r : Reference) : r.database.Owns r.name :=
  exists_referenceFromName?_iff.mp ⟨r, referenceFromName?_name r⟩

theorem parts_of_referenceFromName? {db : Database} {name : String} {r : Reference}
    (h : db.referenceFromName? name = some r) :
    r.database = db ∧ db.Owns name ∧ r.name = db.tidyName name := by
  have howns : db.Owns name := exists_referenceFromName?_iff.mp ⟨r, h⟩
  obtain ⟨rest, hname, hstart, rfl⟩ := referenceFromName?_eq_some_iff.mp h
  refine ⟨rfl, howns, String.toList_inj.mp ?_⟩
  rw [Reference.name_reference, Address.suffix_parse_eq_withoutIdle hstart, tidyName,
    String.toList_ofList, hname, List.drop_left]

end Database

namespace Reference

inductive Leads (r : Reference) : Reference → Prop
  | here : Leads r r
  | child {s : Reference} (h : Leads r s) (path : String) : Leads r (s.child path)
  | parent {s p : Reference} (h : Leads r s) (hp : s.parent = .ok p) : Leads r p
  | parentCollection {s p : Reference} (h : Leads r s) (hp : s.parentCollection = .ok p) :
      Leads r p

/-- Steps stay in the database, and so do the names that they lead to. -/
theorem Leads.stays {r s : Reference} (h : r.Leads s) :
    s.database = r.database ∧ r.database.Owns s.name := by
  have hreached : s.ReachedIn r.database := by
    induction h with
    | here => exact r.reachedIn_database
    | child _ path ih => exact ih.child path
    | parent _ hp ih => exact ih.parent hp
    | parentCollection _ hp ih => exact ih.parentCollection hp
  have hdatabase := hreached.database
  exact ⟨hdatabase, hdatabase ▸ Database.owns_name s⟩

end Reference

namespace Document

inductive Holds (d : Document) : Reference → Prop
  | own : Holds d d.reference
  | field {route : List Step} {r : Reference}
      (h : (Value.map d.fields).Visits route (.reference r)) : Holds d r

/-- A decoded document is a document of the database, and its name is the raw one without idle
separators behind the name of the database. Its fields hold a reference exactly where the raw fields
have the name of one, at any depth, and its name is this one without idle separators. Whatever steps
lead from any of them, they stay in the database. -/
theorem decoded_documents_stay {db : Database} {raw : Json} {d : Document}
    (h : decode db raw = .ok d) :
    (∃ name, raw.get? "name" = some (.str name) ∧ db.Owns name ∧
      d.reference.name = db.tidyName name) ∧
    (d.reference.database = db ∧ d.reference.address.length ≠ 0 ∧
      d.reference.address.length % 2 = 0) ∧
    (∀ route r, (Value.map d.fields).Visits route (.reference r) → ∃ name,
      Wire.Visits (.obj [("mapValue", raw)]) route (.obj [("referenceValue", .str name)]) ∧
        r.database = db ∧ db.Owns name ∧ r.name = db.tidyName name) ∧
    (∀ route name,
      Wire.Visits (.obj [("mapValue", raw)]) route (.obj [("referenceValue", .str name)]) →
        ∃ r, (Value.map d.fields).Visits route (.reference r) ∧ r.name = db.tidyName name) ∧
    ∀ r, d.Holds r → ∀ s, r.Leads s → s.database = db ∧ db.Owns s.name := by
  obtain ⟨hreference, hfields, -, -⟩ := decode_eq_ok_iff.mp h
  obtain ⟨name, hget, hname, hdocument⟩ := decodeName_eq_ok_iff.mp hreference
  obtain ⟨hdatabase, howns, htidy⟩ := Database.parts_of_referenceFromName? hname
  obtain ⟨hparity, hne⟩ := (Address.isDocument_iff _).mp hdocument
  have hparts : ∀ route r, (Value.map d.fields).Visits route (.reference r) → ∃ name,
      Wire.Visits (.obj [("mapValue", raw)]) route (.obj [("referenceValue", .str name)]) ∧
        r.database = db ∧ db.Owns name ∧ r.name = db.tidyName name := by
    intro route r hr
    obtain ⟨name, hnode, hname⟩ := exists_name_of_fields hfields hr
    exact ⟨name, hnode, Database.parts_of_referenceFromName? hname⟩
  refine ⟨⟨name, hget, howns, htidy⟩, ⟨hdatabase, ?length, hparity⟩, hparts, ?nodes, ?steps⟩
  case length =>
    intro hzero
    exact hne (List.length_eq_zero_iff.mp hzero)
  case nodes =>
    intro route name hnode
    obtain ⟨r, hr, hname⟩ := exists_reference_of_fields hfields hnode
    exact ⟨r, hr, (Database.parts_of_referenceFromName? hname).2.2⟩
  case steps =>
    intro r hr s hs
    have hstays : r.database = db := by
      cases hr with
      | own => exact hdatabase
      | field hvisits =>
        obtain ⟨name, -, hdatabase, -⟩ := hparts _ _ hvisits
        exact hdatabase
    rw [← hstays]
    exact hs.stays

def untidyDocument : Json :=
  .obj [("fields", .obj [("m", .obj [("mapValue", .obj [("fields", .obj [("links",
      .obj [("arrayValue", .obj [("values",
        .arr [.obj [("referenceValue", .str "projects/p/databases/(default)/documents//teams/")],
          .obj [("referenceValue", .str "projects/p/databases/(default)/documents")]])])])])])])]),
    ("name", .str "projects/p/databases/(default)/documents//users///u1/")]

theorem exists_decode_untidy : ∃ d, decode Database.sample untidyDocument = .ok d := by
  refine exists_decode_iff.mpr ⟨?name, Or.inr ⟨_, rfl, ?fields⟩, .missing, .missing⟩
  case name =>
    exact ⟨_, Database.sample.reference "//users///u1/", rfl,
      Database.referenceFromName?_eq_some_iff.mpr
        ⟨"//users///u1/".toList, by decide, by decide, by rw [String.ofList_toList]⟩, by decide⟩
  case fields =>
    simp only [List.forall_mem_singleton]
    refine .entries rfl ?_
    simp only [List.forall_mem_singleton]
    refine .elements rfl ?_
    simp only [List.forall_mem_cons]
    obtain ⟨r, hr⟩ : ∃ r, Database.sample.referenceFromName?
        "projects/p/databases/(default)/documents//teams/" = some r :=
      Database.exists_referenceFromName?_iff.mpr (Or.inr (by decide))
    obtain ⟨s, hs⟩ : ∃ r, Database.sample.referenceFromName?
        "projects/p/databases/(default)/documents" = some r :=
      Database.exists_referenceFromName?_iff.mpr (Or.inl (by decide))
    exact ⟨.reference hr, .reference hs, by simp⟩

theorem decoded_documents_stay_untidy :
    ∃ d : Document, d.reference.name = "projects/p/databases/(default)/documents/users/u1" ∧
      (∃ r, d.Holds r ∧ r.name = "projects/p/databases/(default)/documents/teams") ∧
      ∀ r, d.Holds r → ∀ s, r.Leads s → s.database = Database.sample := by
  obtain ⟨d, hd⟩ := exists_decode_untidy
  obtain ⟨⟨name, hget, -, hname⟩, -, -, hnodes, hsteps⟩ := decoded_documents_stay hd
  have hraw : name = "projects/p/databases/(default)/documents//users///u1/" := by
    cases hget
    rfl
  subst hraw
  refine ⟨d, hname.trans (by decide), ?_, fun r hr s hs => (hsteps r hr s hs).1⟩
  obtain ⟨r, hr, hlink⟩ := hnodes [.entry "m", .entry "links", .item 0] _
    (.descend (List.mem_singleton.mpr rfl) (.descend (List.mem_singleton.mpr rfl)
      (.descend (List.mem_cons_self ..) (.start _))))
  exact ⟨r, .field hr, hlink.trans (by decide)⟩

end Document

end DocStore
