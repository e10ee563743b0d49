import DocStore.Proofs.Path.Names
import DocStore.Query.Run

/-!
# What every query satisfies

Each option parser establishes one clause of an invariant, and replacing the
sources keeps it. So the invariant holds of every query that the constructors
and any chain of replacements lead to. It speaks of queries only; what it means
for the body of a request is a separate matter.
-/

set_option autoImplicit false

namespace DocStore

namespace Value

theorem encode_eq_null {v : Value} (h : v.encode = .ok .null) : v = .null := by
  cases v with
  | null => rfl
  | double x =>
    simp only [encode] at h
    split at h <;> cases h
  | _ => simp [encode] at h

theorem encode_eq_nan {v : Value} (h : v.encode = .ok (.double .nan)) : v = .double .nan := by
  cases v with
  | double x =>
    simp only [encode] at h
    split at h
    · cases h
    · cases h
      rfl
  | _ => simp [encode] at h

def whole? : Value → Option Int
  | integer n => some n.toInt
  | double x => x.toInt?
  | _ => none

end Value

namespace Filter

inductive IsCondition : Filter → Prop
  | unary (path : String) (op : UnaryOperator) : IsCondition (.unary path op)
  | scalar {path : String} {op : Operator} {value : Scalar} (hop : op.takesList = false)
      (hnull : value ≠ .null) (hnan : value ≠ .double .nan) :
      IsCondition (.field path op (.scalar value))
  | list {path : String} {op : Operator} {values : List Scalar} (hop : op.takesList = true)
      (hne : values ≠ []) : IsCondition (.field path op (.list values))

inductive IsFlat : Filter → Prop
  | condition {f : Filter} (h : f.IsCondition) : IsFlat f
  | conjunction {fs : List Filter} (hlen : 2 ≤ fs.length) (h : ∀ f ∈ fs, f.IsCondition) :
      IsFlat (.conjunction fs)

theorem unaryOf?_eq_none {v : Value} (h : unaryOf? v = none) : v ≠ .null ∧ v ≠ .double .nan := by
  constructor
  · rintro rfl
    cases h
  · rintro rfl
    cases h

theorem isCondition_of_operand {path : String} {op : Operator} {v : Value} {o : Operand}
    (hv : unaryOf? v = none) (h : operand op v = .ok o) : IsCondition (.field path op o) := by
  obtain ⟨hnull, hnan⟩ := unaryOf?_eq_none hv
  unfold operand at h
  split at h
  · rename_i hop
    split at h
    · rename_i item items
      split at h
      · rename_i values hvalues
        cases h
        have hlen := collect_eq_ok_length hvalues
        have hne : values ≠ [] := by
          intro hnil
          simp [hnil] at hlen
        exact .list hop hne
      · cases h
    · cases h
  · rename_i hop
    split at h
    · rename_i s hs
      cases h
      -- Null and NaN are tested before encoding, so neither can come out of it.
      have hsnull : s ≠ .null := by
        rintro rfl
        exact hnull (Value.encode_eq_null hs)
      have hsnan : s ≠ .double .nan := by
        rintro rfl
        exact hnan (Value.encode_eq_nan hs)
      exact .scalar (by simpa using hop) hsnull hsnan
    · cases h

theorem isCondition_of_condition {path op v : Value} {f : Filter}
    (h : condition path op v = .ok f) : f.IsCondition := by
  unfold condition at h
  split at h
  · cases h
  split at h
  · cases h
  split at h
  · split at h
    · cases h
      exact .unary _ _
    · cases h
  · rename_i hv
    split at h
    · rename_i o ho
      cases h
      exact isCondition_of_operand hv ho
    · cases h

theorem isCondition_of_ofTriple {triple : List Value} {f : Filter}
    (h : ofTriple triple = .ok f) : f.IsCondition := by
  unfold ofTriple at h
  split at h
  · exact isCondition_of_condition h
  · cases h

theorem isFlat_of_all {fs : List Filter} {f : Filter} (hfs : ∀ g ∈ fs, g.IsCondition)
    (h : all fs = some f) : f.IsFlat := by
  match fs, h with
  | [g], h =>
    simp only [all, Option.some.injEq] at h
    subst h
    exact .condition (hfs g (by simp))
  | g :: g' :: gs, h =>
    simp only [all, Option.some.injEq] at h
    subst h
    exact .conjunction (by simp) hfs

theorem isFlat_of_parse {v : Value} {f : Filter} (h : parse v = .ok (some f)) : f.IsFlat := by
  unfold parse at h
  split at h
  · cases h
  · split at h
    · cases h
    · obtain ⟨fs, hfs, hall⟩ := map_eq_ok_iff.mp h
      have hconditions : ∀ g ∈ fs, g.IsCondition := by
        intro g hg
        obtain ⟨triple, -, ht⟩ := mem_of_collect_eq_ok hfs hg
        exact isCondition_of_ofTriple ht
      exact isFlat_of_all hconditions hall
  · obtain ⟨g, hg, heq⟩ := map_eq_ok_iff.mp h
    cases heq
    exact .condition (isCondition_of_ofTriple hg)
  · cases h

end Filter

def Cursor.IsBeforeDocument (c : Cursor) : Prop :=
  ∃ r : Reference, r.isDocument = true ∧ c = ⟨[.reference r.name], true⟩

theorem Cursor.isBeforeDocument_of_parse {argument : Argument} {v : Value} {c : Cursor}
    (h : parse argument v = .ok c) : c.IsBeforeDocument := by
  unfold parse at h
  split at h
  · split at h
    · rename_i r hr
      cases h
      exact ⟨r, hr, rfl⟩
    · cases h
  · cases h

namespace Query

theorem isCollection_of_parseSource {all : Option Bool} {v : Value} {s : Source}
    (h : parseSource all v = .ok s) : s.reference.isCollection = true := by
  unfold parseSource at h
  split at h
  · split at h
    · rename_i hr
      cases h
      exact hr
    · cases h
  · cases h

theorem sources_of_parseSources {all : Option Bool} {v : Option Value} {ss : List Source}
    (h : parseSources all v = .ok ss) :
    ss ≠ [] ∧ ∀ s ∈ ss, s.reference.isCollection = true := by
  have hcollect : ∃ vs, vs ≠ [] ∧ collect (parseSource all) vs = .ok ss := by
    unfold parseSources at h
    split at h
    · exact ⟨_, by simp, h⟩
    · exact ⟨_, by simp, h⟩
    · cases h
  obtain ⟨vs, hvs, hc⟩ := hcollect
  constructor
  · intro hnil
    have hlen := collect_eq_ok_length hc
    rw [hnil] at hlen
    exact hvs (List.length_eq_zero_iff.mp hlen.symm)
  · intro s hs
    obtain ⟨v, -, hv⟩ := mem_of_collect_eq_ok hc hs
    exact isCollection_of_parseSource hv

theorem countOf?_eq (v : Value) : countOf? v = v.whole?.map clampInt64 := by
  cases v with
  | integer n =>
    have hbounds := And.intro (Int64.minValue_le_toInt n) (Int64.toInt_le n)
    have hsame : (clampInt64 n.toInt).toInt = n.toInt := by
      rw [clampInt64_toInt]
      omega
    exact congrArg some (Int64.toInt_inj.mp hsame).symm
  | double x =>
    cases x with
    | finite x =>
      show (if x.isWhole then some (clampInt64 x.wholePart) else none) = x.toInt?.map clampInt64
      rw [x.toInt?_eq]
      split <;> rfl
    | nan => rfl
    | infinity negative => rfl
  | _ => rfl

/-- Cutting to 64 bits moves no number into the range of counts, and no count changes when it is
cut to 32 bits. -/
theorem parseCount_eq_ok_iff {argument : Argument} {v : Value} {n : Nat} :
    parseCount argument v = .ok n ↔ v.whole? = some (n : Int) ∧ n ≤ maxCount := by
  rw [parseCount, countOf?_eq]
  cases v.whole? with
  | none => simp
  | some m =>
    have hmin : Int64.minValue.toInt = -9223372036854775808 := rfl
    have hmax : Int64.maxValue.toInt = 9223372036854775807 := rfl
    have hcut := clampInt64_toInt m
    have hlargest : maxCount = 2147483647 := rfl
    by_cases hm : 0 ≤ m ∧ m ≤ maxCount
    · have hsame : (clampInt64 m).toInt = (m.toNat : Int) := by omega
      have hrange : 0 ≤ (clampInt64 m).toInt ∧ (clampInt64 m).toInt ≤ maxCount := by omega
      simp only [Option.map_some, if_pos hrange, low32_eq hsame (by omega), Except.ok.injEq,
        Option.some.injEq]
      omega
    · have hrange : ¬ (0 ≤ (clampInt64 m).toInt ∧ (clampInt64 m).toInt ≤ maxCount) := by omega
      simp only [Option.map_some, if_neg hrange, reduceCtorEq, Option.some.injEq, false_iff]
      omega

theorem of_optional {α : Type} {parse : Value → Except QueryError α} {P : α → Prop}
    (hp : ∀ v a, parse v = .ok a → P a) {o : Option Value} {r : Option α}
    (h : optional parse o = .ok r) : ∀ a, r = some a → P a := by
  intro a ha
  subst ha
  cases o with
  | none => cases h
  | some v =>
    obtain ⟨b, hb, heq⟩ := map_eq_ok_iff.mp h
    cases heq
    exact hp v a hb

/-- A query is made exactly when every option parses, each on its own. -/
theorem ofOptions_eq_ok_iff {o : Options} {q : Query} :
    ofOptions o = .ok q ↔
      (∃ select, optional parseSelect o.select = .ok select ∧ q.select = select.getD []) ∧
      parseSources o.allDescendants o.source = .ok q.sources ∧
      (∃ filter, optional Filter.parse o.filter = .ok filter ∧ q.filter = filter.join) ∧
      (∃ orders, optional Order.parse o.order = .ok orders ∧ q.orders = orders.getD []) ∧
      optional (Cursor.parse .startAt) o.startAt = .ok q.startAt ∧
      optional (Cursor.parse .endAt) o.endAt = .ok q.endAt ∧
      optional (parseCount .offset) o.offset = .ok q.offset ∧
      optional (parseCount .limit) o.limit = .ok q.limit := by
  simp only [ofOptions, bind_eq_ok_iff]
  constructor
  · rintro ⟨select, hse, sources, hso, filter, hf, orders, ho, startAt, hs, endAt, he, offset, hof,
      limit, hl, hq⟩
    cases hq
    exact ⟨⟨select, hse, rfl⟩, hso, ⟨filter, hf, rfl⟩, ⟨orders, ho, rfl⟩, hs, he, hof, hl⟩
  · rintro ⟨⟨select, hse, hq⟩, hso, ⟨filter, hf, hq'⟩, ⟨orders, ho, hq''⟩, hs, he, hof, hl⟩
    refine ⟨select, hse, q.sources, hso, filter, hf, orders, ho, q.startAt, hs, q.endAt, he,
      q.offset, hof, q.limit, hl, ?_⟩
    rw [← hq, ← hq', ← hq'']
    rfl

structure WellFormed (q : Query) : Prop where
  sources : q.sources ≠ []
  collections : ∀ s ∈ q.sources, s.reference.isCollection = true
  filter : ∀ f, q.filter = some f → f.IsFlat
  startAt : ∀ c, q.startAt = some c → c.IsBeforeDocument
  endAt : ∀ c, q.endAt = some c → c.IsBeforeDocument
  offset : ∀ n, q.offset = some n → n ≤ maxCount
  limit : ∀ n, q.limit = some n → n ≤ maxCount

theorem wellFormed_of_ofOptions {o : Options} {q : Query} (h : ofOptions o = .ok q) :
    q.WellFormed := by
  obtain ⟨-, hsources, ⟨filter, hfilter, hjoin⟩, -, hstart, hend, hoffset, hlimit⟩ :=
    ofOptions_eq_ok_iff.mp h
  obtain ⟨hne, hcollections⟩ := sources_of_parseSources hsources
  refine ⟨hne, hcollections, ?_, ?_, ?_, ?_, ?_⟩
  · intro f hf
    rw [hjoin, Option.join_eq_some_iff] at hf
    exact of_optional (P := fun g => ∀ f, g = some f → f.IsFlat)
      (fun v g hg f hf => Filter.isFlat_of_parse (hf ▸ hg)) hfilter _ hf f rfl
  · exact of_optional (fun _ _ => Cursor.isBeforeDocument_of_parse) hstart
  · exact of_optional (fun _ _ => Cursor.isBeforeDocument_of_parse) hend
  · exact of_optional (fun _ _ h => (parseCount_eq_ok_iff.mp h).2) hoffset
  · exact of_optional (fun _ _ h => (parseCount_eq_ok_iff.mp h).2) hlimit

theorem withSources_eq_ok_iff {q r : Query} {v : Value} {all : Option Bool} :
    q.withSources v all = .ok r ↔
      ∃ sources, parseSources all (some v) = .ok sources ∧ r = { q with sources } := by
  rw [withSources, map_eq_ok_iff]
  exact exists_congr fun _ => and_congr_right fun _ => eq_comm

theorem WellFormed.withSources {q r : Query} {v : Value} {all : Option Bool} (hq : q.WellFormed)
    (h : q.withSources v all = .ok r) : r.WellFormed := by
  obtain ⟨sources, hs, rfl⟩ := withSources_eq_ok_iff.mp h
  obtain ⟨hne, hcollections⟩ := sources_of_parseSources hs
  exact ⟨hne, hcollections, hq.filter, hq.startAt, hq.endAt, hq.offset, hq.limit⟩

@[simp] theorem new_result (o : Options) (env : Environment) : (new o env).1 = ofOptions o := by
  unfold new
  cases ofOptions o <;> rfl

/-- The queries that a program can hold: made by one of the three constructors, their sources
replaced any number of times. -/
inductive Reachable : Query → Prop
  | new {o : Options} {env : Environment} {q : Query} (h : (Query.new o env).1 = .ok q) :
      Reachable q
  | database {db : Database} {o : Options} {env : Environment} {q : Query}
      (h : (db.query o env).1 = .ok q) : Reachable q
  | reference {r : Reference} {o : Options} {env : Environment} {q : Query}
      (h : (r.query o env).1 = .ok q) : Reachable q
  | withSources {q r : Query} {v : Value} {all : Option Bool} (hq : Reachable q)
      (h : q.withSources v all = .ok r) : Reachable r

theorem Reachable.wellFormed {q : Query} (h : q.Reachable) : q.WellFormed := by
  -- The three constructors differ in what they log, not in the query.
  induction h with
  | new h => exact wellFormed_of_ofOptions (by simpa using h)
  | database h => exact wellFormed_of_ofOptions (by simpa [Database.query] using h)
  | reference h => exact wellFormed_of_ofOptions (by simpa [Reference.query] using h)
  | withSources _ h ih => exact ih.withSources h

theorem parseSources_references (rs : List Reference) (hne : rs ≠ [])
    (h : ∀ r ∈ rs, r.isCollection = true) (all : Option Bool) :
    parseSources all (some (.array (rs.map .reference))) = .ok (rs.map fun r => ⟨r, all⟩) := by
  have hcollect : collect (parseSource all) (rs.map Value.reference) =
      .ok (rs.map fun r => ⟨r, all⟩) := by
    rw [collect_eq_ok_iff, List.map_map, List.map_map]
    exact List.map_congr_left fun r hr => by simp [parseSource, h r hr]
  obtain ⟨r, rest, rfl⟩ := List.exists_cons_of_ne_nil hne
  exact hcollect

def ofCollections (references : List Reference) : Query :=
  ⟨[], references.map fun r => ⟨r, none⟩, none, [], none, none, none, none⟩

theorem reachable_ofCollections {rs : List Reference} (hne : rs ≠ [])
    (h : ∀ r ∈ rs, r.isCollection = true) : (ofCollections rs).Reachable := by
  have ho : ofOptions { source := some (.array (rs.map .reference)) } = .ok (ofCollections rs) :=
    ofOptions_eq_ok_iff.mpr
      ⟨⟨none, rfl, rfl⟩, parseSources_references rs hne h none, ⟨none, rfl, rfl⟩, ⟨none, rfl, rfl⟩,
        rfl, rfl, rfl, rfl⟩
  have hnew : (Query.new { source := some (.array (rs.map .reference)) }
      ⟨.warn, fun _ => .ok .null⟩).1 = .ok (ofCollections rs) := by
    rw [new_result, ho]
  exact .new hnew

/-- The first source and its parent, to which the request goes. -/
theorem WellFormed.endpoint {q : Query} (hq : q.WellFormed) :
    ∃ source rest parent, q.sources = source :: rest ∧ source.reference.parent = .ok parent ∧
      q.endpoint = .ok (parent.endpoint ++ ":runQuery") := by
  obtain ⟨source, rest, hs⟩ := List.exists_cons_of_ne_nil hq.sources
  have hc := hq.collections source (by simp [hs])
  obtain ⟨parent, hp⟩ := Reference.exists_parent_of_isCollection hc
  exact ⟨source, rest, parent, hs, hp, by simp [Query.endpoint, hs, hp]⟩

end Query

end DocStore
