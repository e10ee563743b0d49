import DocStore.Log.Line
import DocStore.Transport

/-!
# Actions

A computation that asks the network and writes log lines. What it leaves behind
is its trace: the requests in the order in which they were sent, and the lines
that were severe enough to be written.
-/

set_option autoImplicit false

namespace DocStore

structure Environment where
  minimum : Severity
  network : Network

structure Trace where
  requests : List Request
  lines : List Line

namespace Trace

def empty : Trace := ⟨[], []⟩

def append (a b : Trace) : Trace := ⟨a.requests ++ b.requests, a.lines ++ b.lines⟩

@[simp] theorem append_empty (t : Trace) : t.append empty = t := by simp [append, empty]

@[simp] theorem requests_append (a b : Trace) :
    (a.append b).requests = a.requests ++ b.requests := rfl

@[simp] theorem lines_append (a b : Trace) : (a.append b).lines = a.lines ++ b.lines := rfl

end Trace

def Action (α : Type) : Type := Environment → α × Trace

namespace Action

variable {α β : Type}

def pure (a : α) : Action α := fun _ => (a, .empty)

def bind (x : Action α) (f : α → Action β) : Action β := fun env =>
  ((f (x env).1 env).1, (x env).2.append (f (x env).1 env).2)

instance : Monad Action where
  pure := pure
  bind := bind

@[simp] theorem pure_apply (a : α) (env : Environment) : (Pure.pure a : Action α) env = (a, .empty) :=
  rfl

@[simp] theorem bind_apply (x : Action α) (f : α → Action β) (env : Environment) :
    (x >>= f) env = ((f (x env).1 env).1, (x env).2.append (f (x env).1 env).2) := rfl

def write (line : Line) : Action Unit := fun env =>
  ((), ⟨[], if line.severity.enabled env.minimum then [line] else []⟩)

def log (event : Event) (fields : List (String × String)) : Action Unit :=
  write (.ofEvent event fields)

def send (request : Request) : Action (Except TransportError Json) := fun env =>
  (env.network request, ⟨[request], []⟩)

@[simp] theorem requests_log (event : Event) (fields : List (String × String))
    (env : Environment) : (log event fields env).2.requests = [] := rfl

end Action

end DocStore
