import DocStore.Proofs.Query.Execution
import DocStore.Proofs.Query.Invariant

/-!
# What a request addresses

A request goes to the parent of the first source, and its body names every
source by its id alone. So an entry of the body addresses its source exactly
when the source has the same parent as the first one. Main statement: where all
sources share their parent, URL and body together determine the sources.
-/

set_option autoImplicit false

namespace DocStore

namespace Query

def bodyEntries (body : Json) : List Json :=
  match (body.get? "structuredQuery").bind (Json.get? "from") with
  | some (.arr entries) => entries
  | _ => []

def entryBelow? (parent : Reference) (entry : Json) : Option Reference :=
  ((entry.get? "collectionId").bind Json.str?).map parent.child

def SourcesBelow (q : Query) (parent : Reference) : Prop :=
  ∀ s ∈ q.sources, ∃ p, s.reference.parent = .ok p ∧ (p == parent) = true

theorem bodyEntries_toJson (q : Query) : bodyEntries q.toJson = q.sources.map Source.toJson := by
  have hf : q.structured.get? "from" = some (.arr (q.sources.map Source.toJson)) := by
    unfold structured Json.get?
    cases q.endAt <;> simp [Json.optional, List.lookup_cons]
  have hq : q.toJson.get? "structuredQuery" = some q.structured := by
    simp [toJson, Json.get?]
  simp only [bodyEntries, hq, Option.bind_some, hf]

theorem entryBelow?_toJson (parent : Reference) (s : Source) :
    entryBelow? parent s.toJson = some (parent.child s.reference.id) := by
  unfold entryBelow? Source.toJson
  cases s.allDescendants <;> simp [Json.get?, Json.optional, Json.str?, List.lookup_cons]

end Query

namespace Source

theorem parts_of_toJson {s t : Source} (h : s.toJson = t.toJson) :
    s.allDescendants = t.allDescendants ∧ s.reference.id = t.reference.id := by
  unfold toJson at h
  cases hs : s.allDescendants <;> cases ht : t.allDescendants <;>
    simp_all [Json.optional]

theorem beq_iff {s t : Source} :
    (s == t) = true ↔
      (s.reference == t.reference) = true ∧ s.allDescendants = t.allDescendants := by
  have h : (s == t) = (s.reference == t.reference && s.allDescendants == t.allDescendants) := rfl
  rw [h, Bool.and_eq_true]
  exact and_congr_right fun _ => beq_iff_eq

theorem endpoint_of_below {s : Source} {p parent : Reference} (hp : s.reference.parent = .ok p)
    (h : (p == parent) = true) :
    s.reference.endpoint.toList =
      parent.endpoint.toList ++ separator :: s.reference.id.toList := by
  obtain ⟨segment, hid⟩ := Reference.exists_id_of_parent hp
  have hchild : s.reference = p.child segment.text := by
    rw [← hid, Reference.child_id_of_parent hp]
  rw [← Reference.endpoint_of_beq h, hid, hchild]
  exact Reference.below_child_text p segment p.database.endpoint

end Source

theorem sources_of_entries {p q : Reference} (hpq : p.endpoint = q.endpoint) {ss ts : List Source}
    (hss : ∀ s ∈ ss, ∃ p', s.reference.parent = .ok p' ∧ (p' == p) = true)
    (hts : ∀ t ∈ ts, ∃ q', t.reference.parent = .ok q' ∧ (q' == q) = true)
    (h : ss.map Source.toJson = ts.map Source.toJson) :
    ss.map (fun s => s.reference.endpoint) = ts.map (fun t => t.reference.endpoint) ∧
      ((p.database == q.database) = true → (ss == ts) = true) := by
  induction ss generalizing ts with
  | nil =>
    cases ts with
    | nil => exact ⟨rfl, fun _ => rfl⟩
    | cons t ts => cases h
  | cons s ss ih =>
    cases ts with
    | nil => cases h
    | cons t ts =>
      obtain ⟨hst, hrest⟩ := List.cons.inj h
      obtain ⟨hall, hid⟩ := Source.parts_of_toJson hst
      obtain ⟨p', hp', hpp⟩ := hss s (by simp)
      obtain ⟨q', hq', hqq⟩ := hts t (by simp)
      obtain ⟨hurls, hsources⟩ := ih (fun u hu => hss u (by simp [hu]))
        (fun u hu => hts u (by simp [hu])) hrest
      constructor
      · have hurl : s.reference.endpoint = t.reference.endpoint := by
          apply String.toList_injective
          rw [Source.endpoint_of_below hp' hpp, Source.endpoint_of_below hq' hqq, hpq, hid]
        rw [List.map_cons, List.map_cons, hurl, hurls]
      · intro hd
        have hpar := Reference.beq_of_endpoint_eq hpq hd
        have hs : (s.reference == p.child s.reference.id) = true :=
          Reference.beq_symm ((Reference.child_id_beq_iff hp').mpr hpp)
        have ht : (q.child t.reference.id == t.reference) = true :=
          (Reference.child_id_beq_iff hq').mpr hqq
        have href : (s.reference == t.reference) = true := by
          refine Reference.beq_trans hs (Reference.beq_trans ?_ ht)
          rw [hid]
          exact Reference.child_beq hpar _
        rw [List.cons_beq_cons, Bool.and_eq_true]
        exact ⟨Source.beq_iff.mpr ⟨href, hall⟩, hsources hd⟩

namespace Query

/-- The reference below which all sources lie has the URL to which the request goes. -/
theorem WellFormed.endpoint_of_below {q : Query} (hq : q.WellFormed) {parent : Reference}
    (h : q.SourcesBelow parent) : q.endpoint = .ok (parent.endpoint ++ ":runQuery") := by
  obtain ⟨source, rest, p, hs, hp, hurl⟩ := hq.endpoint
  obtain ⟨p', hp', hbeq⟩ := h source (by simp [hs])
  rw [hp, Except.ok.injEq] at hp'
  rw [hurl, hp', Reference.endpoint_of_beq hbeq]

/-- What the request of a query addresses, and how far it tells queries apart. The entry of a
source addresses it exactly when the parent of the source is the one in the URL; queries whose
sources all have that parent differ in URL or body if they differ in a source. -/
theorem request_addresses_sources {q : Query} (hq : q.Reachable) :
    (∃ source rest parent, q.sources = source :: rest ∧ source.reference.parent = .ok parent ∧
      (∀ env, (q.run env).2.requests =
        [⟨parent.database, .post, parent.endpoint ++ ":runQuery", some q.toJson⟩]) ∧
      (bodyEntries q.toJson).map (entryBelow? parent) =
        q.sources.map (fun s => some (parent.child s.reference.id)) ∧
      ∀ s ∈ q.sources, (parent.child s.reference.id == s.reference) = true ↔
        ∃ p, s.reference.parent = .ok p ∧ (p == parent) = true) ∧
    ∀ (r : Query) (p p' : Reference), r.Reachable → q.SourcesBelow p → r.SourcesBelow p' →
      q.endpoint = r.endpoint → q.toJson = r.toJson →
        q.sources.map (fun s => s.reference.endpoint) =
          r.sources.map (fun s => s.reference.endpoint) ∧
        ((p.database == p'.database) = true → (q.sources == r.sources) = true) := by
  constructor
  · obtain ⟨source, rest, parent, hs, hp, hurl⟩ := hq.wellFormed.endpoint
    refine ⟨source, rest, parent, hs, hp, ?_, ?_, ?_⟩
    · intro env
      rw [run_requests hs hurl env, (Reference.parent_eq_ok_iff.mp hp).2]
    · rw [bodyEntries_toJson, List.map_map]
      exact List.map_congr_left fun s _ => entryBelow?_toJson parent s
    · intro s hmem
      obtain ⟨p, hsp⟩ :=
        Reference.exists_parent_of_isCollection (hq.wellFormed.collections s hmem)
      rw [Reference.child_id_beq_iff hsp]
      simp [hsp]
  · intro r p p' hr hqp hrp hurl hbody
    rw [hq.wellFormed.endpoint_of_below hqp, hr.wellFormed.endpoint_of_below hrp,
      Except.ok.injEq, String.append_left_inj] at hurl
    have hentries := congrArg bodyEntries hbody
    rw [bodyEntries_toJson, bodyEntries_toJson] at hentries
    exact sources_of_entries hurl hqp hrp hentries

theorem sourcesBelow_ofCollections {rs : List Reference} {parent : Reference}
    (h : ∀ r ∈ rs, r.parent = .ok parent) : (ofCollections rs).SourcesBelow parent := by
  intro s hs
  obtain ⟨r, hr, rfl⟩ := List.mem_map.mp hs
  exact ⟨parent, h r hr, Reference.beq_refl parent⟩

def bodyOver (ids : List String) : Json :=
  .obj [("structuredQuery",
    .obj [("from", .arr (ids.map fun id => .obj [("collectionId", .str id)]))])]

/-- Two handles of one database: the requests agree, and so do the sources. -/
theorem request_addresses_sources_two_handles :
    let db := Database.sample
    let other : Database := ⟨{ projectId := "p" }, 1, by decide⟩
    let q := ofCollections [db.reference "users", db.reference "posts"]
    let r := ofCollections [other.reference "/users/", other.reference "posts"]
    q.Reachable ∧ r.Reachable ∧
      q.SourcesBelow (db.reference "") ∧ r.SourcesBelow (other.reference "") ∧
      q.endpoint = r.endpoint ∧ q.toJson = r.toJson ∧ (q.sources == r.sources) = true := by
  intro db other q r
  have hq : q.Reachable := reachable_ofCollections (by decide) (by decide)
  have hr : r.Reachable := reachable_ofCollections (by decide) (by decide)
  have hqp : q.SourcesBelow (db.reference "") :=
    sourcesBelow_ofCollections (List.forall_mem_cons.mpr ⟨rfl, List.forall_mem_singleton.mpr rfl⟩)
  have hrp : r.SourcesBelow (other.reference "") :=
    sourcesBelow_ofCollections (List.forall_mem_cons.mpr ⟨rfl, List.forall_mem_singleton.mpr rfl⟩)
  have hbody : q.toJson = bodyOver ["users", "posts"] := rfl
  have hbody' : r.toJson = bodyOver ["users", "posts"] := rfl
  have hurl : q.endpoint = r.endpoint := by
    rw [hq.wellFormed.endpoint_of_below hqp, hr.wellFormed.endpoint_of_below hrp]
    rfl
  have h := (request_addresses_sources hq).2 r _ _ hr hqp hrp hurl (hbody.trans hbody'.symm)
  exact ⟨hq, hr, hqp, hrp, hurl, hbody.trans hbody'.symm, h.2 (by decide)⟩

/-- A source below another parent than the first is addressed elsewhere, and another query has the
same request. So have queries over databases one of whose names continues the other. -/
theorem deeper_source_shares_request :
    let db := Database.sample
    let nested : Database :=
      ⟨{ projectId := "p", databaseId := "(default)/documents/a" }, 0, by decide⟩
    let q := ofCollections [db.reference "users", db.reference "users/u1/posts"]
    let r := ofCollections [db.reference "users", db.reference "posts"]
    let q' := ofCollections [db.reference "a/documents/users"]
    let r' := ofCollections [nested.reference "users"]
    (q.Reachable ∧ r.Reachable ∧ (db.reference "users").parent = .ok (db.reference "") ∧
      ((db.reference "").child (db.reference "users/u1/posts").id ==
        db.reference "users/u1/posts") = false ∧
      q.endpoint = r.endpoint ∧ q.toJson = r.toJson ∧ (q.sources == r.sources) = false) ∧
    (q'.Reachable ∧ r'.Reachable ∧
      q'.endpoint = r'.endpoint ∧ q'.toJson = r'.toJson ∧ (q'.sources == r'.sources) = false) := by
  intro db nested q r q' r'
  have hurl : q.endpoint = .ok ((db.reference "").endpoint ++ ":runQuery") := rfl
  have hurl' : q'.endpoint = .ok ("https://firestore.googleapis.com/v1/projects/p/databases/" ++
      "(default)/documents/a/documents:runQuery") := rfl
  have hbody : q.toJson = bodyOver ["users", "posts"] := rfl
  have hbody' : q'.toJson = bodyOver ["users"] := rfl
  refine ⟨⟨?_, ?_, rfl, by decide, ?_, ?_, by decide⟩, ?_, ?_, ?_, ?_, by decide⟩
  · exact reachable_ofCollections (by decide) (by decide)
  · exact reachable_ofCollections (by decide) (by decide)
  · rw [hurl]
    rfl
  · rw [hbody]
    rfl
  · exact reachable_ofCollections (by decide) (by decide)
  · exact reachable_ofCollections (by decide) (by decide)
  · rw [hurl']
    rfl
  · rw [hbody']
    rfl

end Query

end DocStore
