import DocStore.Path.Segment

/-!
# Addresses

An address is a list of segments. Its parity says what it points at: an odd
number of segments is a collection, an even one a document, and none at all the
root. A path below an address appends its segments, so addresses form the free
monoid over segments.
-/

set_option autoImplicit false

namespace DocStore

inductive PathError where
  | noParentOfRoot
  deriving DecidableEq

namespace PathError

def code : PathError → String
  | noParentOfRoot => "PATH_NO_PARENT_OF_ROOT"

def message : PathError → String
  | noParentOfRoot => "Can't get parent of a root collection"

end PathError

structure Address where
  segments : List Segment
  deriving DecidableEq

namespace Address

def root : Address := ⟨[]⟩

def parse (raw : String) : Address := ⟨Segment.ofPath raw⟩

def length (a : Address) : Nat := a.segments.length

def isRoot (a : Address) : Bool := a.segments.isEmpty

def isCollection (a : Address) : Bool := a.length % 2 = 1

def isDocument (a : Address) : Bool := !a.isRoot && !a.isCollection

def id (a : Address) : String :=
  match a.segments.getLast? with
  | some s => s.text
  | none => ""

def child (a : Address) (path : String) : Address := ⟨a.segments ++ Segment.ofPath path⟩

def parent (a : Address) : Except PathError Address :=
  if a.isRoot then .error .noParentOfRoot else .ok ⟨a.segments.dropLast⟩

def parentCollection (a : Address) : Except PathError Address :=
  if a.isRoot then .error .noParentOfRoot
  else if a.isCollection then .ok ⟨a.segments.dropLast.dropLast⟩
  else a.parent

def toString (a : Address) : String :=
  String.ofList (List.intercalate [separator] (a.segments.map fun s => s.text.toList))

@[simp] theorem child_segments (a : Address) (path : String) :
    (a.child path).segments = a.segments ++ (parse path).segments := rfl

end Address

end DocStore
