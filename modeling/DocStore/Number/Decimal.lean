import DocStore.Number.Digits
import DocStore.Number.Double

/-!
# Doubles from decimal numerals

Two readings of a decimal numeral. `Double.ofDecimal` is the double nearest to
the number. `FiniteDouble.ofSpelling?` is the reading of number tokens: it keeps
the leading digits that fit 64 bits, rounds them to a double, and then multiplies
or divides by the double nearest to the power of ten, so it may be off by a unit
in the last place.
-/

set_option autoImplicit false

namespace DocStore

structure Spelling where
  negative : Bool
  whole : List Char
  fraction : List Char
  exponent : Option Int
  deriving DecidableEq

def Spelling.ofChars (text : List Char) : Spelling :=
  let negative := text.head? = some '-'
  let (whole, rest) := (if negative then text.drop 1 else text).span Char.isDigit
  let (fraction, rest) := match rest with
    | '.' :: rest => rest.span Char.isDigit
    | rest => ([], rest)
  ⟨negative, whole, fraction, if rest = [] then none else readInt? (rest.drop 1)⟩

namespace FiniteDouble

def takeDigits : Nat → List Char → Nat × List Char
  | n, [] => (n, [])
  | n, c :: rest =>
    if n * 10 + digitValue c < twoPow 64 then takeDigits (n * 10 + digitValue c) rest
    else (n, c :: rest)

def tenPower? (k : Nat) : Option FiniteDouble := nearest? false (tenPow k * unitsPerOne) 1

def divideBlocks? : Nat → FiniteDouble → Option FiniteDouble
  | 0, x => some x
  | blocks + 1, x =>
    if x.isZero then some x
    else do divideBlocks? blocks (← x.div? (← tenPower? 308))

/-- Multiplies by a power of ten. Powers beyond `10^308` are refused, since they are no doubles;
powers below `10^-308` are reached in several steps. -/
def scaleByTen? (x : FiniteDouble) : Int → Option FiniteDouble
  | .ofNat k =>
    if 308 < k then if x.isZero then some x else none
    else do x.mul? (← tenPower? k)
  | .negSucc k => do
    let x ← divideBlocks? (k / 308) x
    x.div? (← tenPower? (k % 308 + 1))

def ofSpelling? (s : Spelling) : Option FiniteDouble := do
  let (whole, unread) := takeDigits 0 s.whole
  let (significand, unreadFraction) := takeDigits whole s.fraction
  let shift := (unread.length : Int) - (s.fraction.length - unreadFraction.length : Nat)
  let x ← nearest? s.negative (significand * unitsPerOne) 1
  x.scaleByTen? (shift + s.exponent.getD 0)

end FiniteDouble

namespace Double

def ofDecimal (negative : Bool) (n : Nat) : Int → Double
  -- Beyond the outermost doubles the exponent no longer matters and is cut.
  | .ofNat k => nearest negative (n * tenPow (min k 400) * unitsPerOne) 1
  | .negSucc k =>
    nearest negative (n * unitsPerOne) (tenPow (min (k + 1) ((natText n).length + 400)))

def readExponent? : List Char → Option Int
  | [] => some 0
  | c :: rest => if c = 'e' ∨ c = 'E' then readInt? rest else none

def readDecimal? (negative : Bool) (text : List Char) : Option Double := do
  let (whole, rest) := text.span Char.isDigit
  let (fraction, rest) := match rest with
    | '.' :: rest => rest.span Char.isDigit
    | rest => ([], rest)
  if whole = [] ∧ fraction = [] then none
  else
    let exponent ← readExponent? rest
    return ofDecimal negative (digitsValue (whole ++ fraction)) (exponent - fraction.length)

def readUnsigned? (negative : Bool) (text : List Char) : Option Double :=
  let word := text.map Char.toLower
  if word = ['n', 'a', 'n'] then some nan
  else if word = ['i', 'n', 'f'] ∨ word = "infinity".toList then some (infinity negative)
  else readDecimal? negative text

def ofText? (text : String) : Option Double :=
  match text.toList with
  | '-' :: rest => readUnsigned? true rest
  | '+' :: rest => readUnsigned? false rest
  | rest => readUnsigned? false rest

end Double

end DocStore
