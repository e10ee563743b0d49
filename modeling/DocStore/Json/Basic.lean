import DocStore.Number.Decimal
import DocStore.Number.Int64

/-!
# JSON values

A number is either an integer or a finite double, and the two never meet: `1`
and `1.0` are different numbers. The members of an object stand in the order of
their keys, each key once; `sorted` brings a value into that form.
-/

set_option autoImplicit false

namespace DocStore

inductive JsonNumber where
  | integer (n : Int)
  | double (x : FiniteDouble)
  deriving DecidableEq

inductive Json where
  | null
  | bool (b : Bool)
  | number (n : JsonNumber)
  | str (s : String)
  | arr (items : List Json)
  | obj (members : List (String × Json))
  deriving Inhabited

namespace JsonNumber

/-- Integers are the tokens without point and exponent that fit 64 bits, signed or unsigned. The
token `-0` is a double, and so is everything else. -/
def ofSpelling? (s : Spelling) : Option JsonNumber :=
  let n := digitsValue s.whole
  if s.fraction = [] ∧ s.exponent = none then
    if s.negative ∧ 0 < n ∧ n ≤ twoPow 63 then some (integer (-n))
    else if !s.negative ∧ n < twoPow 64 then some (integer n)
    else (FiniteDouble.ofSpelling? s).map double
  else (FiniteDouble.ofSpelling? s).map double

def toInt64? : JsonNumber → Option Int64
  | integer n => int64? n
  | double _ => none

def toDouble : JsonNumber → Double
  | integer n => .ofInt n
  | double x => .finite x

end JsonNumber

/-- Adds a member that comes before all of the given ones in writing: a later member of the same
key keeps its place. -/
def insertEarlier {α : Type} (key : String) (value : α) : List (String × α) → List (String × α)
  | [] => [(key, value)]
  | (k, v) :: rest =>
    if key < k then (key, value) :: (k, v) :: rest
    else if key = k then (k, v) :: rest
    else (k, v) :: insertEarlier key value rest

namespace Json

mutual

def sorted : Json → Json
  | arr items => arr (sortedItems items)
  | obj members => obj (sortedMembers members)
  | null => null
  | bool b => bool b
  | number n => number n
  | str s => str s

def sortedItems : List Json → List Json
  | [] => []
  | item :: items => item.sorted :: sortedItems items

def sortedMembers : List (String × Json) → List (String × Json)
  | [] => []
  | (key, value) :: members => insertEarlier key value.sorted (sortedMembers members)

end

def get? (key : String) : Json → Option Json
  | obj members => members.lookup key
  | _ => none

def str? : Json → Option String
  | str s => some s
  | _ => none

def optional (key : String) : Option Json → List (String × Json)
  | none => []
  | some value => [(key, value)]

def ofInt (n : Int) : Json := number (.integer n)

def ofNat (n : Nat) : Json := ofInt n

end Json

end DocStore
