import DocStore.Proofs.Document.RoundTrip
import DocStore.Proofs.Query.Acceptance
import DocStore.Proofs.Query.Execution

/-!
# How a run ends

A reply carries documents in some of its elements. Either all of them decode, and
the run ends with them in their order, or the first that does not decode is the
error. Main statement: a run is one request, and its answer decides the end in
this way; what is refused without a request is refused as invalid options, and
nothing else is.
-/

set_option autoImplicit false

namespace DocStore

namespace Query

inductive Answers (db : Database) : List Json → List Document → Prop
  | nil : Answers db [] []
  | skip {item : Json} {items : List Json} {ds : List Document}
      (hitem : item.get? "document" = none) (h : Answers db items ds) :
      Answers db (item :: items) ds
  | document {item raw : Json} {items : List Json} {d : Document} {ds : List Document}
      (hitem : item.get? "document" = some raw) (hd : Document.decode db raw = .ok d)
      (h : Answers db items ds) : Answers db (item :: items) (d :: ds)

def Legible (db : Database) (item : Json) : Prop :=
  ∀ raw, item.get? "document" = some raw → ∃ d, Document.decode db raw = .ok d

theorem decodeDocument_eq_ok_iff {db : Database} {raw : Json} {d : Document} :
    decodeDocument db raw = .ok d ↔ Document.decode db raw = .ok d := by
  unfold decodeDocument
  cases Document.decode db raw <;> simp

theorem decodeDocument_eq_error_iff {db : Database} {raw : Json} {e : QueryError} :
    decodeDocument db raw = .error e ↔
      ∃ fault, Document.decode db raw = .error fault ∧ e = .document fault := by
  unfold decodeDocument
  cases Document.decode db raw <;> simp [eq_comm]

theorem exists_answers {db : Database} {items : List Json} (h : ∀ item ∈ items, Legible db item) :
    ∃ ds, Answers db items ds := by
  induction items with
  | nil => exact ⟨[], .nil⟩
  | cons item items ih =>
    obtain ⟨hitem, hitems⟩ := List.forall_mem_cons.mp h
    obtain ⟨ds, hds⟩ := ih hitems
    cases hget : item.get? "document" with
    | none => exact ⟨ds, .skip hget hds⟩
    | some raw =>
      obtain ⟨d, hd⟩ := hitem raw hget
      exact ⟨d :: ds, .document hget hd hds⟩

theorem decodeReply_of_answers {db : Database} {items : List Json} {ds : List Document}
    (h : Answers db items ds) : decodeReply db (.arr items) = .ok ds := by
  rw [decodeReply, collect_eq_ok_iff]
  induction h with
  | nil => rfl
  | skip hitem _ ih => rw [List.filterMap_cons_none hitem, ih]
  | document hitem hd _ ih =>
    rw [List.filterMap_cons_some hitem, List.map_cons, List.map_cons, ih,
      decodeDocument_eq_ok_iff.mpr hd]

/-- The first document that does not decode is the end of the reply. -/
theorem decodeReply_of_fault {db : Database} {before after : List Json} {item raw : Json}
    {fault : DocumentError} (hbefore : ∀ i ∈ before, Legible db i)
    (hitem : item.get? "document" = some raw) (hraw : Document.decode db raw = .error fault) :
    decodeReply db (.arr (before ++ item :: after)) = .error (.document fault) := by
  rw [decodeReply, collect_eq_error_iff]
  refine ⟨before.filterMap (Json.get? "document"), raw, after.filterMap (Json.get? "document"),
    ?_, ?_, decodeDocument_eq_error_iff.mpr ⟨fault, hraw, rfl⟩⟩
  · rw [List.filterMap_append, List.filterMap_cons_some hitem]
  · intro r hr
    obtain ⟨i, hi, hget⟩ := List.mem_filterMap.mp hr
    obtain ⟨d, hd⟩ := hbefore i hi r hget
    exact ⟨d, decodeDocument_eq_ok_iff.mpr hd⟩

structure Concludes (db : Database) (answer : Except TransportError Json)
    (result : Except QueryError (List Document)) : Prop where
  transport : ∀ e, answer = .error e →
    ∃ f, result = .error f ∧ f.code = e.code ∧ f.message = e.message
  notArray : ∀ reply, answer = .ok reply → (∀ items, reply ≠ .arr items) →
    ∃ detail, result = .error (.unexpectedResponse detail)
  documents : ∀ items, answer = .ok (.arr items) → (∀ item ∈ items, Legible db item) →
    ∃ ds, result = .ok ds ∧ Answers db items ds
  firstFault : ∀ before item after raw fault, answer = .ok (.arr (before ++ item :: after)) →
    (∀ i ∈ before, Legible db i) → item.get? "document" = some raw →
      Document.decode db raw = .error fault → result = .error (.document fault)
  remote : ∀ e, result = .error e →
    (∃ t, e = .transport t) ∨ (∃ fault, e = .document fault) ∨
      ∃ detail, e = .unexpectedResponse detail

theorem outcome_concludes (db : Database) (answer : Except TransportError Json) :
    Concludes db answer (outcome db answer) := by
  constructor
  case transport =>
    rintro e rfl
    exact ⟨.transport e, rfl, rfl, rfl⟩
  case notArray =>
    rintro reply rfl hreply
    cases reply with
    | arr items => exact absurd rfl (hreply items)
    | _ => exact ⟨_, rfl⟩
  case documents =>
    rintro items rfl hitems
    obtain ⟨ds, hds⟩ := exists_answers hitems
    exact ⟨ds, decodeReply_of_answers hds, hds⟩
  case firstFault =>
    rintro before item after raw fault rfl hbefore hitem hraw
    exact decodeReply_of_fault hbefore hitem hraw
  case remote =>
    intro e he
    cases answer with
    | error t => exact Or.inl ⟨t, (Except.error.inj he).symm⟩
    | ok reply =>
      cases reply with
      | arr items =>
        obtain ⟨-, raw, -, -, -, hraw⟩ := collect_eq_error_iff.mp he
        obtain ⟨fault, -, rfl⟩ := decodeDocument_eq_error_iff.mp hraw
        exact Or.inr (Or.inl ⟨fault, rfl⟩)
      | _ => exact Or.inr (Or.inr ⟨_, (Except.error.inj he).symm⟩)

inductive Origin where
  | options (o : Options)
  | database (db : Database) (o : Options)
  | reference (r : Reference) (o : Options)

def Origin.make : Origin → Action (Except QueryError Query)
  | options o => Query.new o
  | database db o => db.query o
  | reference r o => r.query o

def replaceSources (q : Query) : List (Value × Option Bool) → Except QueryError Query
  | [] => .ok q
  | (source, all) :: rest => q.withSources source all >>= fun r => r.replaceSources rest

def Origin.execute (origin : Origin) (replacements : List (Value × Option Bool)) :
    Action (Except QueryError (List Document)) := do
  match ← origin.make with
  | .error e => return .error e
  | .ok q =>
    match q.replaceSources replacements with
    | .error e => return .error e
    | .ok r => r.run

theorem ofOptions_error_isValidation {o : Options} {e : QueryError} (h : ofOptions o = .error e) :
    e.isValidation = true := by
  obtain ⟨a, ha, -, hcheck⟩ := ofOptions_eq_error_iff.mp h
  obtain ⟨refusal, rfl⟩ := (Argument.judges_check ha).error hcheck
  rfl

theorem replaceSources_error_isValidation {q : Query} {replacements : List (Value × Option Bool)}
    {e : QueryError} (h : q.replaceSources replacements = .error e) : e.isValidation = true := by
  induction replacements generalizing q with
  | nil => cases h
  | cons replacement rest ih =>
    obtain ⟨source, all⟩ := replacement
    rw [replaceSources, withSources] at h
    cases hs : parseSources all (some source) with
    | error e' =>
      rw [hs] at h
      cases h
      rw [parseSources_error hs]
      rfl
    | ok sources =>
      rw [hs] at h
      exact ih h

theorem reachable_replaceSources {q r : Query} {replacements : List (Value × Option Bool)}
    (hq : q.Reachable) (h : q.replaceSources replacements = .ok r) : r.Reachable := by
  induction replacements generalizing q with
  | nil =>
    cases h
    exact hq
  | cons replacement rest ih =>
    obtain ⟨source, all⟩ := replacement
    obtain ⟨q', hq', hrest⟩ := bind_eq_ok_iff.mp h
    exact ih (hq.withSources hq') hrest

namespace Origin

theorem reachable {origin : Origin} {env : Environment} {q : Query}
    (h : (origin.make env).1 = .ok q) : q.Reachable := by
  cases origin with
  | options o => exact .new h
  | database db o => exact .database h
  | reference r o => exact .reference h

theorem make_error_isValidation {origin : Origin} {env : Environment} {e : QueryError}
    (h : (origin.make env).1 = .error e) : e.isValidation = true := by
  cases origin with
  | options o => exact ofOptions_error_isValidation (by simpa [make] using h)
  | database db o => exact ofOptions_error_isValidation (by simpa [make, Database.query] using h)
  | reference r o => exact ofOptions_error_isValidation (by simpa [make, Reference.query] using h)

theorem requests_make (origin : Origin) (env : Environment) :
    (origin.make env).2.requests = [] := by
  have hnew : ∀ o, (Query.new o env).2.requests = [] := by
    intro o
    unfold Query.new
    cases ofOptions o with
    | error e => rfl
    | ok q => simp
  cases origin <;> exact hnew _

end Origin

/-- A run sends its request, and what goes wrong then is no fault of the options. -/
theorem Reachable.run_concludes {q : Query} (hq : q.Reachable) (env : Environment) :
    ∃ source rest url, q.sources = source :: rest ∧ q.endpoint = .ok url ∧
      (q.run env).2.requests = [⟨source.reference.database, .post, url, some q.toJson⟩] ∧
      Concludes source.reference.database
        (env.network ⟨source.reference.database, .post, url, some q.toJson⟩) (q.run env).1 := by
  obtain ⟨source, rest, _, hs, -, hurl⟩ := hq.wellFormed.endpoint
  refine ⟨source, rest, _, hs, hurl, run_requests hs hurl env, ?_⟩
  rw [run_result hs hurl env]
  exact outcome_concludes _ _

theorem Origin.execute_validation_iff {origin : Origin} {replacements : List (Value × Option Bool)}
    {env : Environment} {e : QueryError} (h : (origin.execute replacements env).1 = .error e) :
    e.isValidation = true ↔ (origin.execute replacements env).2.requests = [] := by
  have hmake := origin.requests_make env
  unfold execute at h ⊢
  simp only [Action.bind_apply, Trace.requests_append, hmake, List.nil_append] at h ⊢
  cases hq : (origin.make env).1 with
  | error e' =>
    simp only [hq, Action.pure_apply, Except.error.injEq] at h ⊢
    simp [← h, make_error_isValidation hq, Trace.empty]
  | ok q =>
    simp only [hq] at h ⊢
    cases hr : q.replaceSources replacements with
    | error e' =>
      simp only [hr, Action.pure_apply, Except.error.injEq] at h ⊢
      simp [← h, replaceSources_error_isValidation hr, Trace.empty]
    | ok r =>
      simp only [hr] at h ⊢
      obtain ⟨source, rest, url, -, -, hrequests, hconcludes⟩ :=
        (reachable_replaceSources (reachable hq) hr).run_concludes env
      rw [hrequests]
      rcases hconcludes.remote e h with ⟨t, rfl⟩ | ⟨fault, rfl⟩ | ⟨detail, rfl⟩ <;>
        simp [QueryError.isValidation]

/-- A run is one request to the database of the first source, and its answer decides the end: all
documents of the reply in their order, or the first fault. Of making a query, replacing its sources
and running it, the errors that come without a request are the refusals of options. -/
theorem run_one_request :
    (∀ q : Query, q.Reachable → ∀ env, ∃ source rest url,
      q.sources = source :: rest ∧ q.endpoint = .ok url ∧
        (q.run env).2.requests = [⟨source.reference.database, .post, url, some q.toJson⟩] ∧
        Concludes source.reference.database
          (env.network ⟨source.reference.database, .post, url, some q.toJson⟩) (q.run env).1) ∧
    ∀ (origin : Origin) (replacements : List (Value × Option Bool)) (env : Environment)
      (e : QueryError), (origin.execute replacements env).1 = .error e →
        (e.isValidation = true ↔ (origin.execute replacements env).2.requests = []) :=
  ⟨fun _ hq env => hq.run_concludes env, fun _ _ _ _ h => Origin.execute_validation_iff h⟩

def bareDocument (name : String) : Json := .obj [("name", .str name)]

theorem decode_bareDocument (r : Reference) (h : r.isDocument = true) :
    Document.decode r.database (bareDocument r.name) = .ok ⟨r, [], none, none⟩ := by
  apply Document.decode_of_parts
  · exact Document.decodeName_of_get? rfl h
  · rfl
  · rfl
  · rfl

/-- A reply with two documents among other elements, a reply with a third that has no name, a
status that reports failure, and sources that are refused. -/
theorem run_one_request_mixed_replies :
    let users := Database.sample.reference "users"
    let q := ofCollections [users]
    let found : List Document :=
      [⟨users.child "u2", [], none, none⟩, ⟨users.child "u1", [], none, none⟩]
    let items : List Json :=
      [.obj [("readTime", .str "t")], .obj [("document", bareDocument (users.child "u2").name)],
        .null, .obj [("document", bareDocument (users.child "u1").name)]]
    let answered (answer : Except TransportError Json) : Environment := ⟨.warn, fun _ => answer⟩
    q.Reachable ∧
      (q.run (answered (.ok (.arr items)))).1 = .ok found ∧
      (q.run (answered (.ok (.arr (items ++ .obj [("document", .obj [])] :: items))))).1 =
        .error (.document .missingName) ∧
      (∃ f, (q.run (answered (.error (.status 403 "denied")))).1 = .error f ∧
        f.message = "Remote returned status 403: denied") ∧
      (Origin.execute (.reference users {}) [(.null, none)] (answered (.ok .null))).1 =
        .error (.invalidArgument .source .notCollection) ∧
      (Origin.execute (.reference users {}) [(.null, none)] (answered (.ok .null))).2.requests =
        [] := by
  intro users q found items answered
  have hq : q.Reachable := reachable_ofCollections (by decide) (by decide)
  have hdocument : ∀ id : String, (users.child id).isDocument = true →
      Document.decode Database.sample (bareDocument (users.child id).name) =
        .ok ⟨users.child id, [], none, none⟩ := fun id h => decode_bareDocument (users.child id) h
  have hfound : Answers Database.sample items found :=
    .skip rfl (.document rfl (hdocument "u2" (by decide))
      (.skip rfl (.document rfl (hdocument "u1" (by decide)) .nil)))
  have hitems : ∀ item ∈ items, Legible Database.sample item := by
    rintro item hitem raw hraw
    simp only [items, List.mem_cons, List.not_mem_nil, or_false] at hitem
    rcases hitem with rfl | rfl | rfl | rfl <;> cases hraw
    · exact ⟨_, hdocument "u2" (by decide)⟩
    · exact ⟨_, hdocument "u1" (by decide)⟩
  obtain ⟨hrun, hrefused⟩ := run_one_request
  -- The only source of `q` is `users`, so every answer is read over the sample database.
  have hends : ∀ answer, Concludes Database.sample answer (q.run (answered answer)).1 := by
    intro answer
    obtain ⟨source, rest, url, hs, -, -, hconcludes⟩ := hrun q hq (answered answer)
    cases hs
    exact hconcludes
  refine ⟨hq, ?_, ?_, ?_, rfl, (hrefused _ _ _ _ rfl).mp rfl⟩
  · obtain ⟨ds, hds, hanswers⟩ := (hends (.ok (.arr items))).documents items rfl hitems
    rw [hds, ← decodeReply_of_answers hanswers, decodeReply_of_answers hfound]
  · exact (hends _).firstFault items (.obj [("document", .obj [])]) items (.obj []) .missingName rfl
      hitems rfl rfl
  · obtain ⟨f, hf, -, hmessage⟩ := (hends (.error (.status 403 "denied"))).transport _ rfl
    exact ⟨f, hf, hmessage.trans (by decide)⟩

end Query

end DocStore
