import DocStore.Proofs.Query.Addressing
import DocStore.Proofs.Query.Outcome
import DocStore.Proofs.Query.Schema

/-!
# Replaced sources

A query over other sources is the query that its options make with these sources
put in: the other options have passed their checks, and sources are checked
apart from them. Main statement: replacing sources and making a query commute,
refusals included; of several replacements the last one counts, and putting the
own sources back changes nothing.
-/

set_option autoImplicit false

namespace DocStore

def Value.references : Value → List Reference
  | .reference r => [r]
  | .array items => items.filterMap Value.reference?
  | _ => []

def Json.replaced (key : String) (value : Json) (members : List (String × Json)) :
    List (String × Json) :=
  members.map fun m => if m.1 = key then (key, value) else m

theorem Json.replaced_append (key : String) (value : Json) (ms ns : List (String × Json)) :
    replaced key value (ms ++ ns) = replaced key value ms ++ replaced key value ns :=
  List.map_append

theorem Json.replaced_optional {key key' : String} (h : key' ≠ key) (value : Json)
    (value' : Option Json) :
    replaced key value (optional key' value') = optional key' value' := by
  cases value' <;> simp [replaced, optional, h]

namespace Filter

mutual

theorem equals_self : ∀ f : Filter, f.equals f = true
  | field _ _ _ => by simp [equals]
  | unary _ _ => by simp [equals]
  | conjunction filters => equalLists_self filters

theorem equalLists_self : ∀ fs : List Filter, equalLists fs fs = true
  | [] => rfl
  | f :: fs => by simp [equalLists, equals_self f, equalLists_self fs]

end

instance : ReflBEq Filter := ⟨fun {f} => equals_self f⟩

end Filter

instance : ReflBEq Source := ⟨fun {s} => Source.beq_iff.mpr ⟨s.reference.beq_refl, rfl⟩⟩

namespace Query

theorem beq_self (q : Query) : (q == q) = true := by
  have hparts : (q == q) = (q.select == q.select && q.sources == q.sources &&
      q.filter == q.filter && q.orders == q.orders && q.startAt == q.startAt &&
      q.endAt == q.endAt && q.offset == q.offset && q.limit == q.limit) := rfl
  simp [hparts]

theorem parseSource_eq_ok {all : Option Bool} {v : Value} {s : Source}
    (h : parseSource all v = .ok s) : ∃ r, v = .reference r ∧ s = ⟨r, all⟩ := by
  cases v with
  | reference r =>
    by_cases hr : r.isCollection = true
    · rw [parseSource, if_pos hr] at h
      exact ⟨r, rfl, (Except.ok.inj h).symm⟩
    · rw [parseSource, if_neg hr] at h
      cases h
  | _ => cases h

theorem collect_parseSource_eq_ok {all : Option Bool} {items : List Value} {ss : List Source}
    (h : collect (parseSource all) items = .ok ss) :
    ss = (items.filterMap Value.reference?).map fun r => ⟨r, all⟩ := by
  rw [collect_eq_ok_iff] at h
  induction items generalizing ss with
  | nil => simpa using h.symm
  | cons item items ih =>
    cases ss with
    | nil => cases h
    | cons s ss =>
      rw [List.map_cons, List.map_cons, List.cons.injEq] at h
      obtain ⟨r, rfl, rfl⟩ := parseSource_eq_ok h.1
      have hcons : (Value.reference r :: items).filterMap Value.reference? =
          r :: items.filterMap Value.reference? := List.filterMap_cons_some rfl
      rw [hcons, List.map_cons, ← ih h.2]

theorem sources_eq_references {all : Option Bool} {v : Value} {ss : List Source}
    (h : parseSources all (some v) = .ok ss) : ss = v.references.map fun r => ⟨r, all⟩ := by
  cases v with
  | reference r =>
    have hone : collect (parseSource all) [.reference r] = .ok ss := h
    exact collect_parseSource_eq_ok hone
  | array items =>
    cases items with
    | nil => cases h
    | cons item items => exact collect_parseSource_eq_ok h
  | _ => cases h

/-- Of the options only those for the sources have to be checked again. -/
theorem ofOptions_replaced {o : Options} {q : Query} (h : ofOptions o = .ok q) (v : Value)
    (all : Option Bool) :
    ofOptions { o with source := some v, allDescendants := all } = q.withSources v all := by
  obtain ⟨⟨select, hselect, hq⟩, -, hrest⟩ := ofOptions_eq_ok_iff.mp h
  cases hs : parseSources all (some v) with
  | error e =>
    rw [withSources, hs, ofOptions, hselect, hs]
    rfl
  | ok sources =>
    rw [withSources, hs]
    exact ofOptions_eq_ok_iff.mpr ⟨⟨select, hselect, hq⟩, hs, hrest⟩

/-- The sources that were there before have no part in a replacement. -/
theorem withSources_withSources {q r : Query} {v : Value} {all : Option Bool}
    (h : q.withSources v all = .ok r) (w : Value) (all' : Option Bool) :
    r.withSources w all' = q.withSources w all' := by
  obtain ⟨sources, -, rfl⟩ := withSources_eq_ok_iff.mp h
  rfl

theorem withSources_of_replaceSources {q p : Query} {replacements : List (Value × Option Bool)}
    (h : q.replaceSources replacements = .ok p) (v : Value) (all : Option Bool) :
    p.withSources v all = q.withSources v all := by
  induction replacements generalizing q with
  | nil =>
    cases h
    rfl
  | cons replacement rest ih =>
    obtain ⟨r, hr, hrest⟩ := bind_eq_ok_iff.mp h
    rw [ih hrest, withSources_withSources hr]

theorem allDescendants_of_ofOptions {o : Options} {q : Query} (h : ofOptions o = .ok q) :
    ∀ s ∈ q.sources, s.allDescendants = o.allDescendants := by
  obtain ⟨-, hsources, -⟩ := ofOptions_eq_ok_iff.mp h
  intro s hs
  cases hv : o.source with
  | none =>
    rw [hv] at hsources
    cases hsources
  | some v =>
    rw [hv] at hsources
    rw [sources_eq_references hsources] at hs
    obtain ⟨r, -, rfl⟩ := List.mem_map.mp hs
    rfl

theorem withSources_own {o : Options} {q : Query} (h : ofOptions o = .ok q) :
    q.withSources (.array (q.sources.map fun s => .reference s.reference)) o.allDescendants =
      .ok q := by
  have hq := wellFormed_of_ofOptions h
  have hparse := parseSources_references (q.sources.map Source.reference)
    (by simpa using hq.sources) (by simpa using hq.collections) o.allDescendants
  have hback : (q.sources.map Source.reference).map (fun r => (⟨r, o.allDescendants⟩ : Source)) =
      q.sources := by
    rw [List.map_map]
    refine (List.map_congr_left fun s hs => ?_).trans (List.map_id _)
    rw [← allDescendants_of_ofOptions h s hs]
    rfl
  rw [hback, List.map_map] at hparse
  exact withSources_eq_ok_iff.mpr ⟨_, hparse, rfl⟩

/-- In the body nothing but the entries for the sources changes. -/
theorem structured_withSources {q r : Query} {v : Value} {all : Option Bool}
    (h : q.withSources v all = .ok r) :
    r.structured =
      .obj (Json.replaced "from" (.arr (r.sources.map Source.toJson)) q.structuredMembers) := by
  obtain ⟨sources, -, rfl⟩ := withSources_eq_ok_iff.mp h
  have hfrom : ∀ entries entries' : Json,
      Json.replaced "from" entries [("from", entries')] = [("from", entries)] := fun _ _ => rfl
  rw [structured_eq, structuredMembers, structuredMembers]
  simp only [Json.replaced_append, hfrom]
  repeat rw [Json.replaced_optional (by decide)]
  rfl

/-- Replacing the sources of a query is making it with other sources, with the same result and the
same refusals. Nothing else changes in the body. Of several replacements the last one counts, and
with its own sources a query is what it was. -/
theorem withSources_remakes_query {o : Options} {env : Environment} {q : Query}
    (h : (Query.new o env).1 = .ok q) :
    (∀ v all env', q.withSources v all =
      (Query.new { o with source := some v, allDescendants := all } env').1) ∧
    (∀ v all e, q.withSources v all = .error e → e = .invalidArgument .source .notCollection) ∧
    (∀ v all r, q.withSources v all = .ok r → ∃ members entries,
      q.structured = .obj members ∧
        r.structured = .obj (Json.replaced "from" (.arr entries) members) ∧
        bodyEntries r.toJson = entries ∧
        entries = v.references.map (fun s => Source.toJson ⟨s, all⟩) ∧
        entries.length = v.references.length) ∧
    (∀ replacements p, q.replaceSources replacements = .ok p →
      ∀ v all, p.withSources v all = q.withSources v all) ∧
    q.withSources (.array (q.sources.map fun s => .reference s.reference)) o.allDescendants =
      .ok q ∧ (q == q) = true := by
  rw [new_result] at h
  refine ⟨?remade, ?refused, ?body, ?chain, withSources_own h, q.beq_self⟩
  case remade =>
    intro v all env'
    rw [new_result, ofOptions_replaced h]
  case refused =>
    intro v all e he
    cases hs : parseSources all (some v) with
    | error e' =>
      rw [withSources, hs] at he
      cases he
      exact parseSources_error hs
    | ok sources =>
      rw [withSources, hs] at he
      cases he
  case body =>
    intro v all r hr
    obtain ⟨sources, hs, hsources⟩ := withSources_eq_ok_iff.mp hr
    have hentries : r.sources.map Source.toJson =
        v.references.map (fun s => Source.toJson ⟨s, all⟩) := by
      rw [hsources, sources_eq_references hs, List.map_map]
      rfl
    have hlength : (r.sources.map Source.toJson).length = v.references.length := by
      rw [hentries, List.length_map]
    exact ⟨q.structuredMembers, r.sources.map Source.toJson, q.structured_eq,
      structured_withSources hr, bodyEntries_toJson r, hentries, hlength⟩
  case chain =>
    intro replacements p hp v all
    exact withSources_of_replaceSources hp v all

def flaggedOptions : Options :=
  { source := some (.reference (Database.sample.reference "users"))
    allDescendants := some true
    filter := some (.array [.string "n", .string "==", .double .nan])
    limit := some (.integer 0) }

def flaggedQuery (sources : List Source) : Query :=
  ⟨[], sources, some (.unary "n" .isNaN), [], none, none, none, some 0⟩

/-- Two other sources without the flag, a document, which is refused, and the way back. -/
theorem withSources_remakes_query_two_sources :
    let db := Database.sample
    let env : Environment := ⟨.warn, fun _ => .ok .null⟩
    let posts : Value := .array
      [.reference (db.reference "posts"), .reference (db.reference "users/u1/posts")]
    let document : Value := .reference (db.reference "users/u1")
    let q := flaggedQuery [⟨db.reference "users", some true⟩]
    let r := flaggedQuery [⟨db.reference "posts", none⟩, ⟨db.reference "users/u1/posts", none⟩]
    (Query.new flaggedOptions env).1 = .ok q ∧ q.withSources posts none = .ok r ∧
      (Query.new { flaggedOptions with source := some posts, allDescendants := none } env).1 =
        .ok r ∧
      (bodyEntries r.toJson).length = 2 ∧
      (Query.new { flaggedOptions with source := some document, allDescendants := none } env).1 =
        .error (.invalidArgument .source .notCollection) ∧
      r.withSources (.reference (db.reference "users")) (some true) = .ok q ∧
      q.withSources (.array [.reference (db.reference "users")]) (some true) = .ok q := by
  intro db env posts document q r
  have hq : (Query.new flaggedOptions env).1 = .ok q := rfl
  have hparse : parseSources none (some posts) = .ok r.sources :=
    parseSources_references [db.reference "posts", db.reference "users/u1/posts"]
      (by simp) (by decide) none
  have hr : q.withSources posts none = .ok r := withSources_eq_ok_iff.mpr ⟨_, hparse, rfl⟩
  have hsteps : q.replaceSources [(posts, none)] = .ok r := by
    rw [replaceSources, hr]
    rfl
  obtain ⟨hremade, hrefused, hbody, hchain, hown, -⟩ := withSources_remakes_query hq
  obtain ⟨-, entries, -, -, hentries, -, hlength⟩ := hbody posts none r hr
  refine ⟨hq, hr, (hremade posts none env).symm.trans hr, ?_, ?_, ?_, hown⟩
  · rw [hentries]
    exact hlength
  · have hodd : (db.reference "users/u1").isCollection = false := by decide
    have hdocument : ∃ e, q.withSources document none = .error e := by
      simp [withSources, document, parseSources, collect, parseSource, hodd, Except.map]
    obtain ⟨e, he⟩ := hdocument
    rw [← hremade document none env, he, hrefused document none e he]
  · rw [hchain [(posts, none)] r hsteps]
    rfl

end Query

end DocStore
