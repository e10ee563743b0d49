import DocStore.Proofs.Query.Outcome

/-!
# Reading one document

A document can be read by itself or be found by a query. Main statement: both ways
end alike on the same raw document and on the same failure to get it, with one
document or with errors of one code and one message; and reading by itself is one
request if the reference leads to a document, and none otherwise.
-/

set_option autoImplicit false

namespace DocStore

def Action.Answered {α : Type} (x : Action α) (env : Environment)
    (answer : Except TransportError Json) : Prop :=
  ∀ request ∈ (x env).2.requests, env.network request = answer

theorem Action.Ends.network_eq {α : Type} {x : Action α} {env : Environment} {a : α}
    {request : Request} {answer : Except TransportError Json} (hx : x.Ends env a [request])
    (h : x.Answered env answer) : env.network request = answer := by
  apply h
  rw [hx.requests]
  exact List.mem_singleton_self request

namespace Reference

structure EndsAlike (single : Except ReadError Document)
    (found : Except QueryError (List Document)) : Prop where
  ok : ∀ d, single = .ok d ↔ found = .ok [d]
  error : (∀ d, single ≠ .ok d) → ∃ e f, single = .error e ∧ found = .error f ∧
    e.code = f.code ∧ e.message = f.message

theorem EndsAlike.of_documents (d : Document) : EndsAlike (.ok d) (.ok [d]) :=
  ⟨fun d' => by simp, fun hfails => absurd rfl (hfails d)⟩

theorem EndsAlike.of_errors {e : ReadError} {f : QueryError} (hcode : e.code = f.code)
    (hmessage : e.message = f.message) : EndsAlike (.error e) (.error f) :=
  ⟨fun _ => ⟨nofun, nofun⟩, fun _ => ⟨e, f, rfl, rfl, hcode, hmessage⟩⟩

/-- The two ways differ in the type of their errors and in nothing that is told of them. -/
theorem endsAlike_of_reply (db : Database) {item raw : Json}
    (hitem : item.get? "document" = some raw) :
    EndsAlike (outcome db (.ok raw)) (Query.outcome db (.ok (.arr [item]))) := by
  have hfound : Query.outcome db (.ok (.arr [item])) = collect (Query.decodeDocument db) [raw] := by
    rw [Query.outcome, Query.decodeReply, List.filterMap_cons_some hitem, List.filterMap_nil]
  rw [hfound, outcome, decodeDocument, collect, collect, Query.decodeDocument]
  cases Document.decode db raw with
  | ok d => exact .of_documents d
  | error fault => exact .of_errors rfl rfl

/-- With their one request answered, a read and a run over the same database end with what the
answers say. -/
theorem results_of_answered {r : Reference} {q : Query} {source : Source} {rest : List Source}
    {env env' : Environment} {answer answer' : Except TransportError Json}
    (hr : r.isDocument = true) (hq : q.Reachable) (hs : q.sources = source :: rest)
    (hdb : source.reference.database = r.database) (hget : r.get.Answered env answer)
    (hrun : q.run.Answered env' answer') :
    (r.get env).1 = outcome r.database answer ∧
      (q.run env').1 = Query.outcome r.database answer' := by
  obtain ⟨source', rest', parent, hs', -, hu⟩ := hq.wellFormed.endpoint
  obtain ⟨rfl, rfl⟩ := List.cons.inj (hs.symm.trans hs')
  have hgets := ends_get hr env rfl
  have hruns := Query.ends_run hs hu env' rfl
  rw [hgets.result, hruns.result, hgets.network_eq hget, hruns.network_eq hrun, hdb]
  exact ⟨rfl, rfl⟩

theorem get_requests_iff (r : Reference) (env : Environment) :
    (r.get env).2.requests = [⟨r.database, .get, r.endpoint, none⟩] ↔ r.isDocument = true := by
  cases hr : r.isDocument with
  | true => simp [(ends_get hr env rfl).requests]
  | false => simp [(ends_get_of_not_isDocument hr env).requests]

/-- A document that is read by itself and a query over the same database that finds it alone end
alike: with that document, or with errors of one code and one message. A request that fails ends
both with its code and its message. Reading sends one request without a body, to the URL of the
reference, exactly if that leads to a document; otherwise nothing is sent and the path is to
blame. -/
theorem reads_and_queries_end_alike :
    (∀ (r : Reference) (q : Query) (source : Source) (rest : List Source),
      r.isDocument = true → q.Reachable → q.sources = source :: rest →
      source.reference.database = r.database → ∀ env env' : Environment,
        (∀ item raw, item.get? "document" = some raw → r.get.Answered env (.ok raw) →
          q.run.Answered env' (.ok (.arr [item])) → EndsAlike (r.get env).1 (q.run env').1) ∧
        ∀ t : TransportError, r.get.Answered env (.error t) → q.run.Answered env' (.error t) →
          ∃ e f, (r.get env).1 = .error e ∧ (q.run env').1 = .error f ∧
            e.code = t.code ∧ e.message = t.message ∧ f.code = t.code ∧ f.message = t.message) ∧
    ∀ (r : Reference) (env : Environment),
      ((r.get env).2.requests = [⟨r.database, .get, r.endpoint, none⟩] ↔ r.isDocument = true) ∧
      (r.isDocument = false →
        (r.get env).1 = .error (.notADocument r.path) ∧ (r.get env).2.requests = []) := by
  refine ⟨?alike, ?requests⟩
  case alike =>
    intro r q source rest hr hq hs hdb env env'
    constructor
    · intro item raw hitem hget hrun
      obtain ⟨hresult, hfound⟩ := results_of_answered hr hq hs hdb hget hrun
      rw [hresult, hfound]
      exact endsAlike_of_reply r.database hitem
    · intro t hget hrun
      obtain ⟨hresult, hfound⟩ := results_of_answered hr hq hs hdb hget hrun
      exact ⟨.transport t, .transport t, hresult, hfound, rfl, rfl, rfl, rfl⟩
  case requests =>
    intro r env
    refine ⟨get_requests_iff r env, fun hr => ?_⟩
    have hends := ends_get_of_not_isDocument hr env
    exact ⟨hends.result, hends.requests⟩

/-- A document that is there, a reply that is no document, a status that reports failure, and a
reference to a collection. -/
theorem reads_and_queries_end_alike_missing_name :
    let users := Database.sample.reference "users"
    let u1 := users.child "u1"
    let q := Query.ofCollections [users]
    let answered (answer : Except TransportError Json) : Environment := ⟨.warn, fun _ => answer⟩
    let found (raw : Json) : Except TransportError Json := .ok (.arr [.obj [("document", raw)]])
    let d : Document := ⟨u1, [], none, none⟩
    q.Reachable ∧
      (u1.get (answered (.ok (Query.bareDocument u1.name)))).1 = .ok d ∧
      (q.run (answered (found (Query.bareDocument u1.name)))).1 = .ok [d] ∧
      (∃ e f, (u1.get (answered (.ok .null))).1 = .error e ∧
        (q.run (answered (found .null))).1 = .error f ∧ e.code = f.code ∧ e.message = f.message) ∧
      (∃ e f, (u1.get (answered (.error (.status 404 "gone")))).1 = .error e ∧
        (q.run (answered (.error (.status 404 "gone")))).1 = .error f ∧
        e.message = "Remote returned status 404: gone" ∧ f.message = e.message) ∧
      (u1.get (answered (.ok .null))).2.requests = [⟨u1.database, .get, u1.endpoint, none⟩] ∧
      (users.get (answered (.ok .null))).1 = .error (.notADocument "users") ∧
      (users.get (answered (.ok .null))).2.requests = [] := by
  intro users u1 q answered found d
  obtain ⟨halike, hrequests⟩ := reads_and_queries_end_alike
  have hu1 : u1.isDocument = true := by decide
  have hq : q.Reachable := Query.reachable_ofCollections (by decide) (by decide)
  have hread : (u1.get (answered (.ok (Query.bareDocument u1.name)))).1 = .ok d := by
    rw [(ends_get hu1 _ rfl).result]
    show decodeDocument u1.database (Query.bareDocument u1.name) = .ok d
    rw [decodeDocument, Query.decode_bareDocument u1 hu1]
  have hends := fun answer answer' =>
    halike u1 q ⟨users, none⟩ [] hu1 hq rfl rfl (answered answer) (answered answer')
  have hfound := (hends _ (found (Query.bareDocument u1.name))).1 _ _ rfl (fun _ _ => rfl)
    (fun _ _ => rfl)
  have hnull := (hends (.ok .null) (found .null)).1 _ _ rfl (fun _ _ => rfl) (fun _ _ => rfl)
  obtain ⟨e, f, he, hf, -, hmessage, -, hmessage'⟩ :=
    (hends (.error (.status 404 "gone")) (.error (.status 404 "gone"))).2 _ (fun _ _ => rfl)
      (fun _ _ => rfl)
  obtain ⟨hrefused, hunsent⟩ := (hrequests users (answered (.ok .null))).2 (by decide)
  refine ⟨hq, hread, (hfound.ok d).mp hread, hnull.error ?_, ⟨e, f, he, hf, ?_, ?_⟩,
    (hrequests u1 _).1.mpr hu1, hrefused.trans ?_, hunsent⟩
  · intro d' hd'
    rw [(ends_get hu1 _ rfl).result] at hd'
    cases hd'
  · exact hmessage.trans (by decide)
  · exact hmessage'.trans hmessage.symm
  · exact congrArg (fun path => Except.error (ReadError.notADocument path)) (by decide)

end Reference

end DocStore
