import DocStore.Text.Hex

/-!
# Log lines

One event is one line, a JSON object: the event, its severity, and then the
fields in the order of their keys. Fields with equal keys keep the order in which
they were given.
-/

set_option autoImplicit false

namespace DocStore

inductive Severity where
  | trace
  | info
  | warn
  | error
  | fatal
  deriving DecidableEq

namespace Severity

def all : List Severity := [trace, info, warn, error, fatal]

def name : Severity → String
  | trace => "TRACE"
  | info => "INFO"
  | warn => "WARN"
  | error => "ERROR"
  | fatal => "FATAL"

def parse? (name : String) : Option Severity :=
  all.find? fun s => s.name.toList = name.toList.map Char.toUpper

def rank : Severity → Nat
  | trace => 0
  | info => 1
  | warn => 2
  | error => 3
  | fatal => 4

def enabled (s minimum : Severity) : Bool := minimum.rank ≤ s.rank

def default : Severity := warn

end Severity

inductive Event where
  | configLoaded
  | queryCompiled
  | queryRunStart
  | queryRunComplete
  | queryRunFailed
  | documentRead
  | documentReadFailed
  deriving DecidableEq

namespace Event

def all : List Event :=
  [configLoaded, queryCompiled, queryRunStart, queryRunComplete, queryRunFailed, documentRead,
    documentReadFailed]

def name : Event → String
  | configLoaded => "CONFIG_LOADED"
  | queryCompiled => "QUERY_COMPILED"
  | queryRunStart => "QUERY_RUN_START"
  | queryRunComplete => "QUERY_RUN_COMPLETE"
  | queryRunFailed => "QUERY_RUN_FAILED"
  | documentRead => "DOCUMENT_READ"
  | documentReadFailed => "DOCUMENT_READ_FAILED"

def severity : Event → Severity
  | configLoaded => .info
  | queryCompiled => .trace
  | queryRunStart => .trace
  | queryRunComplete => .info
  | queryRunFailed => .error
  | documentRead => .info
  | documentReadFailed => .error

end Event

structure Line where
  severity : Severity
  event : String
  fields : List (String × String)
  deriving DecidableEq

namespace Line

def ofEvent (event : Event) (fields : List (String × String)) : Line :=
  ⟨event.severity, event.name, fields⟩

def isControl (c : Char) : Bool := c.toNat < 0x20 || (0x7f ≤ c.toNat && c.toNat < 0xa0)

def escapeChar (c : Char) : List Char :=
  if c = '"' then ['\\', '"']
  else if c = '\\' then ['\\', '\\']
  else if c = '\n' then ['\\', 'n']
  else if c = '\r' then ['\\', 'r']
  else if c = '\t' then ['\\', 't']
  else if isControl c then ['\\', 'u'] ++ hexPadded 4 c.toNat
  else [c]

def renderText (s : String) : List Char := '"' :: s.toList.flatMap escapeChar ++ ['"']

def renderField (field : String × String) : List Char :=
  ',' :: renderText field.1 ++ ':' :: renderText field.2

def sortedFields (line : Line) : List (String × String) :=
  line.fields.mergeSort fun a b => a.1 ≤ b.1

def renderChars (line : Line) : List Char :=
  '\x7b' :: renderText "event" ++ ':' :: renderText line.event ++
    ',' :: renderText "severity" ++ ':' :: renderText line.severity.name ++
    line.sortedFields.flatMap renderField ++ ['\x7d']

def render (line : Line) : String := String.ofList (line.renderChars ++ ['\n'])

end Line

end DocStore
