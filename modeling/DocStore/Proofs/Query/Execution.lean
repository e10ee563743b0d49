import DocStore.Query.Run

/-!
# Execution

With what an action ends and what it has sent by then, and both for runs and for
reads of one document: one request each, to which the reports in the log add
nothing.
-/

set_option autoImplicit false

namespace DocStore

namespace Action

structure Ends {α : Type} (x : Action α) (env : Environment) (a : α) (sent : List Request) :
    Prop where
  result : (x env).1 = a
  requests : (x env).2.requests = sent

theorem Ends.pure {α : Type} (a : α) (env : Environment) :
    (Pure.pure a : Action α).Ends env a [] := ⟨rfl, rfl⟩

theorem Ends.bind {α β : Type} {x : Action α} {f : α → Action β} {env : Environment} {a : α}
    {b : β} {sent sent' : List Request} (hx : x.Ends env a sent) (hf : (f a).Ends env b sent') :
    (x >>= f).Ends env b (sent ++ sent') := by
  constructor
  · rw [bind_apply, hx.result]
    exact hf.result
  · rw [bind_apply, hx.result, Trace.requests_append, hx.requests, hf.requests]

theorem ends_log (event : Event) (fields : List (String × String)) (env : Environment) :
    (log event fields).Ends env () [] := ⟨rfl, rfl⟩

theorem ends_send (request : Request) (env : Environment) :
    (send request).Ends env (env.network request) [request] := ⟨rfl, rfl⟩

end Action

open DocStore.Action

namespace Query

@[simp] theorem requests_report (endpoint : String) (result : Except QueryError (List Document))
    (env : Environment) : (report endpoint result env).2.requests = [] := by
  cases result <;> rfl

theorem run_requests {q : Query} {source : Source} {rest : List Source} {url : String}
    (hs : q.sources = source :: rest) (hu : q.endpoint = .ok url) (env : Environment) :
    (q.run env).2.requests = [⟨source.reference.database, .post, url, some q.toJson⟩] := by
  simp only [run, hs, hu]
  simp [Action.send]

theorem run_result {q : Query} {source : Source} {rest : List Source} {url : String}
    (hs : q.sources = source :: rest) (hu : q.endpoint = .ok url) (env : Environment) :
    (q.run env).1 = outcome source.reference.database
      (env.network ⟨source.reference.database, .post, url, some q.toJson⟩) := by
  simp only [run, hs, hu]
  rfl

theorem ends_run {q : Query} {source : Source} {rest : List Source} {url : String}
    (hs : q.sources = source :: rest) (hu : q.endpoint = .ok url) (env : Environment)
    {result : Except QueryError (List Document)}
    (h : outcome source.reference.database
      (env.network ⟨source.reference.database, .post, url, some q.toJson⟩) = result) :
    q.run.Ends env result [⟨source.reference.database, .post, url, some q.toJson⟩] :=
  ⟨(run_result hs hu env).trans h, run_requests hs hu env⟩

end Query

namespace Reference

theorem ends_report (url : String) (result : Except ReadError Document) (env : Environment) :
    (report url result).Ends env () [] := by
  cases result <;> exact ends_log _ _ env

theorem ends_get {r : Reference} (hr : r.isDocument = true) (env : Environment)
    {result : Except ReadError Document}
    (h : outcome r.database (env.network ⟨r.database, .get, r.endpoint, none⟩) = result) :
    r.get.Ends env result [⟨r.database, .get, r.endpoint, none⟩] := by
  rw [get, if_pos hr, ← h]
  exact (ends_send _ env).bind ((ends_report _ _ env).bind (.pure _ env))

theorem ends_get_of_not_isDocument {r : Reference} (h : r.isDocument = false) (env : Environment) :
    r.get.Ends env (.error (.notADocument r.path)) [] := by
  rw [get, if_neg (by rw [h]; decide)]
  exact .pure _ env

end Reference

end DocStore
