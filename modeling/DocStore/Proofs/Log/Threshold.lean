import DocStore.Proofs.Query.Outcome

/-!
# The threshold of the log

A session makes queries, runs them and reads documents, one step after the other. What
it does next may depend on all that came back so far, and so may what the remote side
answers on all that was asked. Main statement: a higher threshold takes lines out of
the log and changes nothing else, and up to ERROR the log has one line of that
severity for each step that failed behind its request, and no others.
-/

set_option autoImplicit false

namespace DocStore

theorem Severity.enabled_iff {s minimum : Severity} :
    s.enabled minimum = true ↔ minimum.rank ≤ s.rank := by
  simp [enabled]

namespace Trace

def above (minimum : Severity) (t : Trace) : Trace :=
  { t with lines := t.lines.filter fun line => line.severity.enabled minimum }

@[simp] theorem above_append (minimum : Severity) (a b : Trace) :
    (a.append b).above minimum = (a.above minimum).append (b.above minimum) := by
  simp [above, append]

def errors (t : Trace) : List Line := t.lines.filter fun line => line.severity = .error

@[simp] theorem errors_append (a b : Trace) : (a.append b).errors = a.errors ++ b.errors := by
  simp [errors]

end Trace

namespace Action

variable {α β : Type}

def Filters (x : Action α) : Prop :=
  ∀ (network : Network) (lower upper : Severity), lower.rank ≤ upper.rank →
    x ⟨upper, network⟩ = ((x ⟨lower, network⟩).1, (x ⟨lower, network⟩).2.above upper)

theorem Filters.pure (a : α) : (Pure.pure a : Action α).Filters := fun _ _ _ _ => rfl

theorem Filters.bind {x : Action α} {f : α → Action β} (hx : x.Filters)
    (hf : ∀ a, (f a).Filters) : (x >>= f).Filters := by
  intro network lower upper h
  simp only [bind_apply, hx network lower upper h, Trace.above_append]
  rw [hf _ network lower upper h]

theorem filters_write (line : Line) : (write line).Filters := by
  intro network lower upper h
  by_cases hupper : line.severity.enabled upper = true
  · have hlower : line.severity.enabled lower = true :=
      Severity.enabled_iff.mpr (Nat.le_trans h (Severity.enabled_iff.mp hupper))
    simp [write, Trace.above, hupper, hlower]
  · -- Whether the lower threshold lets the line through does not matter: it is filtered out.
    simp only [write, Trace.above, if_neg hupper]
    split_ifs <;> simp [hupper]

theorem filters_log (event : Event) (fields : List (String × String)) :
    (log event fields).Filters :=
  filters_write _

theorem filters_send (request : Request) : (send request).Filters := fun _ _ _ _ => rfl

@[simp] theorem errors_send (request : Request) (env : Environment) :
    (send request env).2.errors = [] := rfl

theorem errors_log {env : Environment} (h : env.minimum.rank ≤ Severity.error.rank)
    (event : Event) (fields : List (String × String)) :
    (log event fields env).2.errors =
      if event.severity = .error then [.ofEvent event fields] else [] := by
  show ((if event.severity.enabled env.minimum then [Line.ofEvent event fields] else []).filter
    fun line => line.severity = .error) = _
  by_cases hevent : event.severity = .error
  · have hwritten : event.severity.enabled env.minimum = true := by
      rw [hevent]
      exact Severity.enabled_iff.mpr h
    rw [if_pos hwritten, if_pos hevent]
    simp [Line.ofEvent, hevent]
  · rw [if_neg hevent]
    split_ifs <;> simp [Line.ofEvent, hevent]

end Action

open DocStore.Action

abbrev Remote := List Request → Network

namespace Session

inductive Operation where
  | make (origin : Query.Origin)
  | replace (q : Query) (source : Value) (allDescendants : Option Bool)
  | run (q : Query)
  | get (r : Reference)

inductive Result where
  | query (made : Except QueryError Query)
  | documents (found : Except QueryError (List Document))
  | document (read : Except ReadError Document)

structure Failure where
  code : String
  message : String
  deriving DecidableEq

def Result.failure? : Result → Option Failure
  | .query (.error e) => some ⟨e.code, e.message⟩
  | .documents (.error e) => some ⟨e.code, e.message⟩
  | .document (.error e) => some ⟨e.code, e.message⟩
  | .query (.ok _) => none
  | .documents (.ok _) => none
  | .document (.ok _) => none

namespace Operation

def perform : Operation → Action Result
  | make origin => return .query (← origin.make)
  | replace q source allDescendants => return .query (q.withSources source allDescendants)
  | run q => return .documents (← q.run)
  | get r => return .document (← r.get)

def failureEvent? : Operation → Option Event
  | make _ => none
  | replace _ _ _ => none
  | run _ => some .queryRunFailed
  | get _ => some .documentReadFailed

end Operation

structure Entry where
  operation : Operation
  result : Result
  trace : Trace

def Operation.entry (operation : Operation) (env : Environment) : Entry :=
  ⟨operation, (operation.perform env).1, (operation.perform env).2⟩

def Entry.above (minimum : Severity) (entry : Entry) : Entry :=
  { entry with trace := entry.trace.above minimum }

end Session

/-- A finite sequence of operations. Each is chosen by what those before it came back with. -/
inductive Session where
  | done
  | next (operation : Session.Operation) (rest : Session.Result → Session)

namespace Session

def entriesAfter (minimum : Severity) (remote : Remote) : List Request → Session → List Entry
  | _, done => []
  | sent, next operation rest =>
    let entry := operation.entry ⟨minimum, remote sent⟩
    entry :: (rest entry.result).entriesAfter minimum remote (sent ++ entry.trace.requests)

def entries (minimum : Severity) (remote : Remote) (session : Session) : List Entry :=
  session.entriesAfter minimum remote []

def outcomes (minimum : Severity) (remote : Remote) (session : Session) :
    List (Operation × Result × List Request) :=
  (session.entries minimum remote).map fun entry =>
    (entry.operation, entry.result, entry.trace.requests)

def lines (minimum : Severity) (remote : Remote) (session : Session) : List Line :=
  (session.entries minimum remote).flatMap fun entry => entry.trace.lines

theorem filters_new (o : Options) : (Query.new o).Filters := by
  unfold Query.new
  cases Query.ofOptions o with
  | error e => exact .pure _
  | ok q => exact (filters_log _ _).bind fun _ => .pure _

theorem filters_make (origin : Query.Origin) : origin.make.Filters := by
  cases origin with
  | options o => exact filters_new o
  | database db o => exact filters_new _
  | reference r o => exact filters_new _

theorem filters_reportFound (url : String) (found : Except QueryError (List Document)) :
    (Query.report url found).Filters := by
  cases found <;> exact filters_log _ _

theorem filters_run (q : Query) : q.run.Filters := by
  unfold Query.run
  split
  · exact (filters_log _ _).bind fun _ => (filters_send _).bind fun _ =>
      (filters_reportFound _ _).bind fun _ => .pure _
  · exact .pure _
  · exact .pure _

theorem filters_reportRead (url : String) (read : Except ReadError Document) :
    (Reference.report url read).Filters := by
  cases read <;> exact filters_log _ _

theorem filters_get (r : Reference) : r.get.Filters := by
  unfold Reference.get
  split_ifs
  · exact (filters_send _).bind fun _ => (filters_reportRead _ _).bind fun _ => .pure _
  · exact .pure _

/-- The step lemma: a higher threshold filters what one operation writes. -/
theorem Operation.filters_perform (operation : Operation) : operation.perform.Filters := by
  cases operation with
  | make origin => exact (filters_make origin).bind fun _ => .pure _
  | replace q source allDescendants => exact .pure _
  | run q => exact (filters_run q).bind fun _ => .pure _
  | get r => exact (filters_get r).bind fun _ => .pure _

theorem Operation.entry_above (operation : Operation) (network : Network) {lower upper : Severity}
    (h : lower.rank ≤ upper.rank) :
    operation.entry ⟨upper, network⟩ = (operation.entry ⟨lower, network⟩).above upper := by
  rw [entry, operation.filters_perform network lower upper h]
  rfl

/-- The run lemma: a higher threshold filters what every operation writes. As results and requests
stay, the session goes on alike, and so does the remote side. -/
theorem entriesAfter_above {lower upper : Severity} (h : lower.rank ≤ upper.rank)
    (remote : Remote) (session : Session) (sent : List Request) :
    session.entriesAfter upper remote sent =
      (session.entriesAfter lower remote sent).map (Entry.above upper) := by
  induction session generalizing sent with
  | done => rfl
  | next operation rest ih =>
    rw [entriesAfter, entriesAfter, operation.entry_above _ h, List.map_cons]
    exact congrArg _ (ih _ _)

theorem outcomes_eq {lower upper : Severity} (h : lower.rank ≤ upper.rank) (remote : Remote)
    (session : Session) : session.outcomes upper remote = session.outcomes lower remote := by
  rw [outcomes, entries, entriesAfter_above h, List.map_map]
  rfl

theorem lines_eq_filter {lower upper : Severity} (h : lower.rank ≤ upper.rank) (remote : Remote)
    (session : Session) : session.lines upper remote =
      (session.lines lower remote).filter fun line => line.severity.enabled upper := by
  rw [lines, lines, entries, entriesAfter_above h, List.flatMap_map, List.filter_flatMap]
  rfl

def Failure.line (event : Event) (endpoint : String) (failure : Failure) : Line :=
  .ofEvent event [("code", failure.code), ("endpoint", endpoint), ("message", failure.message)]

def Result.failureLines (event : Event) (endpoint : String) (result : Result) : List Line :=
  (result.failure?.map (Failure.line event endpoint)).toList

structure Entry.TellsFailure (entry : Entry) : Prop where
  failed : ∀ event failure request, entry.operation.failureEvent? = some event →
    entry.result.failure? = some failure → request ∈ entry.trace.requests →
      entry.trace.errors = [failure.line event request.endpoint]
  silent : entry.operation.failureEvent? = none ∨ entry.result.failure? = none ∨
    entry.trace.requests = [] → entry.trace.errors = []

namespace Entry.TellsFailure

theorem of_unasked {entry : Entry}
    (h : entry.operation.failureEvent? = none ∨ entry.trace.requests = [])
    (herrors : entry.trace.errors = []) : entry.TellsFailure := by
  refine ⟨?_, fun _ => herrors⟩
  intro event failure request hevent _ hrequest
  rcases h with h | h
  · rw [h] at hevent
    cases hevent
  · rw [h] at hrequest
    cases hrequest

theorem of_asked {entry : Entry} {event : Event} {request : Request}
    (hevent : entry.operation.failureEvent? = some event)
    (hrequests : entry.trace.requests = [request])
    (herrors : entry.trace.errors = entry.result.failureLines event request.endpoint) :
    entry.TellsFailure := by
  constructor
  · intro event' failure request' hevent' hfailure hrequest'
    rw [hrequests, List.mem_singleton] at hrequest'
    rw [hevent, Option.some.injEq] at hevent'
    rw [herrors, Result.failureLines, hfailure, hrequest', hevent']
    rfl
  · rintro (h | h | h)
    · rw [hevent] at h
      cases h
    · rw [herrors, Result.failureLines, h]
      rfl
    · rw [hrequests] at h
      cases h

end Entry.TellsFailure

variable {env : Environment}

theorem errors_make (h : env.minimum.rank ≤ Severity.error.rank) (origin : Query.Origin) :
    (origin.make env).2.errors = [] := by
  have hnew : ∀ o, (Query.new o env).2.errors = [] := by
    intro o
    unfold Query.new
    cases Query.ofOptions o with
    | error e => rfl
    | ok q => simp [errors_log h, Event.severity]
  cases origin <;> exact hnew _

theorem run_refused_or_asks (q : Query) :
    (∃ e, q.run = return .error e) ∨
      ∃ source rest url, q.sources = source :: rest ∧ q.endpoint = .ok url := by
  unfold Query.run
  split
  case h_1 source rest url hs hu => exact .inr ⟨source, rest, url, hs, hu⟩
  case h_2 e _ => exact .inl ⟨e, rfl⟩
  case h_3 => exact .inl ⟨_, rfl⟩

theorem errors_reportFound (h : env.minimum.rank ≤ Severity.error.rank) (url : String)
    (found : Except QueryError (List Document)) : (Query.report url found env).2.errors =
      (Result.documents found).failureLines .queryRunFailed url := by
  cases found <;> exact errors_log h _ _

theorem errors_run (h : env.minimum.rank ≤ Severity.error.rank) {q : Query} {source : Source}
    {rest : List Source} {url : String} (hs : q.sources = source :: rest)
    (hu : q.endpoint = .ok url) : (q.run env).2.errors =
      (Result.documents (q.run env).1).failureLines .queryRunFailed url := by
  rw [Query.run_result hs hu]
  simp only [Query.run, hs, hu]
  simp [errors_log h, errors_reportFound h, Event.severity, (ends_send _ env).result]

theorem errors_reportRead (h : env.minimum.rank ≤ Severity.error.rank) (url : String)
    (read : Except ReadError Document) : (Reference.report url read env).2.errors =
      (Result.document read).failureLines .documentReadFailed url := by
  cases read <;> exact errors_log h _ _

theorem errors_get (h : env.minimum.rank ≤ Severity.error.rank) {r : Reference}
    (hr : r.isDocument = true) : (r.get env).2.errors =
      (Result.document (r.get env).1).failureLines .documentReadFailed r.endpoint := by
  rw [(Reference.ends_get hr env rfl).result]
  simp only [Reference.get, if_pos hr]
  simp [errors_reportRead h, (ends_send _ env).result]

/-- The step lemma: up to ERROR, one operation tells its failure. -/
theorem Operation.tellsFailure_entry (h : env.minimum.rank ≤ Severity.error.rank)
    (operation : Operation) : (operation.entry env).TellsFailure := by
  cases operation with
  | make origin =>
    refine .of_unasked (.inl rfl) ?_
    simp [entry, perform, errors_make h]
  | replace q source allDescendants => exact .of_unasked (.inl rfl) rfl
  | run q =>
    have hentry : (run q).entry env = ⟨run q, .documents (q.run env).1, (q.run env).2⟩ := by
      simp [entry, perform]
    rw [hentry]
    rcases run_refused_or_asks q with ⟨e, he⟩ | ⟨source, rest, url, hs, hu⟩
    · rw [he]
      exact .of_unasked (.inr rfl) rfl
    · exact .of_asked rfl (Query.run_requests hs hu env) (errors_run h hs hu)
  | get r =>
    have hentry : (get r).entry env = ⟨get r, .document (r.get env).1, (r.get env).2⟩ := by
      simp [entry, perform]
    rw [hentry]
    cases hr : r.isDocument with
    | false =>
      refine .of_unasked (.inr (Reference.ends_get_of_not_isDocument hr env).requests) ?_
      rw [Reference.get, if_neg (by simp [hr])]
      rfl
    | true => exact .of_asked rfl (Reference.ends_get hr env rfl).requests (errors_get h hr)

theorem exists_entry_of_mem {minimum : Severity} {remote : Remote} {session : Session}
    {sent : List Request} {entry : Entry} (h : entry ∈ session.entriesAfter minimum remote sent) :
    ∃ operation network, entry = Operation.entry operation ⟨minimum, network⟩ := by
  induction session generalizing sent with
  | done => cases h
  | next operation rest ih =>
    rcases List.mem_cons.mp h with h | h
    · exact ⟨operation, remote sent, h⟩
    · exact ih _ h

/-- Under a higher threshold a session comes back with the same results, step by step, and sends
the same requests; its log is what the lower threshold leaves, without the lines that are less
severe. Up to ERROR, each run and each reading that failed behind its request has exactly one line
of that severity, with its code, its endpoint and its message, and no other step has one. -/
theorem threshold_only_filters (session : Session) (remote : Remote) :
    (∀ lower upper : Severity, lower.rank ≤ upper.rank →
      session.outcomes upper remote = session.outcomes lower remote ∧
      session.lines upper remote =
        (session.lines lower remote).filter fun line => line.severity.enabled upper) ∧
    ∀ minimum : Severity, minimum.rank ≤ Severity.error.rank →
      ∀ entry ∈ session.entries minimum remote, entry.TellsFailure := by
  constructor
  · intro lower upper h
    exact ⟨outcomes_eq h remote session, lines_eq_filter h remote session⟩
  · intro minimum h entry hentry
    obtain ⟨operation, network, rfl⟩ := exists_entry_of_mem hentry
    exact operation.tellsFailure_entry h

/-- A query that is made and run, and run again after it has failed; a reading that is refused, and
one whose reply is no document. The remote side is down for the first request only. -/
theorem threshold_only_filters_retry :
    let db := Database.sample
    let session : Session := next (.make (.database db { source := some (.string "users") }))
      fun
      | .query (.ok q) => next (.run q) fun
        | .documents (.error _) => next (.run q) fun _ =>
          next (.get (db.reference "users")) fun _ =>
          next (.get (db.reference "users/u1")) fun _ => done
        | _ => done
      | _ => done
    let remote : Remote := fun
      | [], _ => .error (.status 503 "down")
      | _ :: _, _ => .ok (.arr [])
    let failed := Operation.entry (.run (Query.ofCollections [db.reference "users"]))
      ⟨.error, remote []⟩
    let url := "https://firestore.googleapis.com/v1/projects/p/databases/(default)/documents"
    let down : Line := ⟨.error, "QUERY_RUN_FAILED", [("code", "TRANSPORT_BAD_STATUS"),
      ("endpoint", url ++ ":runQuery"), ("message", "Remote returned status 503: down")]⟩
    let unread : Line := ⟨.error, "DOCUMENT_READ_FAILED", [("code", "DOCUMENT_MISSING_NAME"),
      ("endpoint", url ++ "/users/u1"), ("message", "Document is missing its name")]⟩
    Severity.trace.rank ≤ Severity.error.rank ∧
      session.outcomes .error remote = session.outcomes .trace remote ∧
      (session.lines .trace remote).map Line.event = ["QUERY_COMPILED", "QUERY_RUN_START",
        "QUERY_RUN_FAILED", "QUERY_RUN_START", "QUERY_RUN_COMPLETE", "DOCUMENT_READ_FAILED"] ∧
      session.lines .error remote = [down, unread] ∧
      failed ∈ session.entries .error remote ∧ failed.trace.errors = [down] := by
  intro db session remote failed url down unread
  obtain ⟨hthreshold, htells⟩ := threshold_only_filters session remote
  obtain ⟨houtcomes, hlines⟩ := hthreshold .trace .error (by decide)
  have hfailed : failed ∈ session.entries .error remote := .tail _ (.head _)
  refine ⟨by decide, houtcomes, by decide +kernel, ?_, hfailed, ?_⟩
  · rw [hlines]
    decide +kernel
  · have htold := (htells .error (by decide) failed hfailed).failed .queryRunFailed
      ⟨"TRANSPORT_BAD_STATUS", "Remote returned status 503: down"⟩ _ rfl (by decide +kernel)
      (List.mem_singleton_self _)
    rw [htold]
    decide +kernel

end Session

end DocStore
