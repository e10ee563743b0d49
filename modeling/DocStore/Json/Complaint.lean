import DocStore.Number.Digits

/-!
# Complaints about JSON

The readers of this library settle which texts are refused. In what words is not
settled here: the words belong to the parser at hand, as those of the help on
arguments do, and whatever is told in them takes them as a parameter. A place is a
line and a column, and a complaint without a line has none.
-/

set_option autoImplicit false

namespace DocStore

structure Complaint where
  reason : String
  line : Nat
  column : Nat

namespace Complaint

def place (c : Complaint) : String :=
  if c.line = 0 then "" else " at line " ++ natString c.line ++ " column " ++ natString c.column

def message (c : Complaint) : String := c.reason ++ c.place

end Complaint

/-- What is said of a text that is no JSON value, of one that describes no settings, and in answer to
arguments that ask for help. -/
structure Wording where
  value : String → Complaint
  settings : String → Complaint
  help : List String → String

def Wording.silent : Wording := ⟨fun _ => ⟨"", 0, 0⟩, fun _ => ⟨"", 0, 0⟩, fun _ => ""⟩

end DocStore
