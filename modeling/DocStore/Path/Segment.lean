/-!
# Path segments

A segment is a non-empty text without the separator. Every raw path is cut at
its separators into segments; empty pieces, wherever they stand, are dropped.
-/

set_option autoImplicit false

namespace DocStore

def separator : Char := '/'

structure Segment where
  text : String
  nonempty : text ≠ ""
  unsplit : separator ∉ text.toList
  deriving DecidableEq

namespace Segment

def ofChars? (cs : List Char) : Option Segment :=
  if h : cs ≠ [] ∧ separator ∉ cs then
    some ⟨String.ofList cs, by simpa using h.1, by simpa using h.2⟩
  else none

def ofPath (raw : String) : List Segment :=
  (raw.toList.splitOn separator).filterMap ofChars?

end Segment

end DocStore
