import DocStore.Number.Decimal

/-!
# Shortest decimal text

The fewest decimal digits that read back to a double, and of those the digits
nearest to its value. How digits and exponent are laid out is a `NumberLayout`.
-/

set_option autoImplicit false

namespace DocStore

namespace FiniteDouble

/-- The exponent `e` with `10^e ≤ |x| < 10^(e+1)`, for a double that is not zero. Shifting by
`10^330` first makes even the smallest double a number of at least one. -/
def decimalExponent (x : FiniteDouble) : Int :=
  (natText (x.magnitude * tenPow 330 / unitsPerOne)).length - 331

def scaledBy (x : FiniteDouble) : Int → Nat × Nat
  | .ofNat k => (x.magnitude * tenPow k, unitsPerOne)
  | .negSucc k => (x.magnitude, unitsPerOne * tenPow (k + 1))

/-- The multiple of `10^-k` that reads back to `|x|`, if one of its two neighbours does: the nearer
one when both do, of equally near ones the even one. -/
def onGrid? (x : FiniteDouble) (k : Int) : Option Nat :=
  let (n, d) := x.scaledBy k
  let below := n / d
  let reads (digits : Nat) : Bool := Double.ofDecimal x.negative digits (-k) = .finite x
  let preferred := divNearest n d
  let other := if preferred = below then below + 1 else below
  if reads preferred then some preferred
  else if reads other then some other
  else none

def shortestFrom (x : FiniteDouble) (exponent : Int) : Nat → Nat → Nat × Int
  | 0, digits => (divNearest (x.scaledBy (digits - exponent)).1 (x.scaledBy (digits - exponent)).2,
      exponent - digits)
  | tries + 1, digits =>
    match x.onGrid? (digits - exponent) with
    | some n => (n, exponent - digits)
    | none => shortestFrom x exponent tries (digits + 1)

def shortest (x : FiniteDouble) : Nat × Int := shortestFrom x x.decimalExponent 17 0

def significant : Nat × Int → List Char × Int
  | (n, power) =>
    let digits := natText n
    ((digits.reverse.dropWhile (· = '0')).reverse, power + digits.length - 1)

def shortestDigits (x : FiniteDouble) : List Char × Int := significant x.shortest

end FiniteDouble

structure NumberLayout where
  leastPositional : Int
  mostPositional : Int

namespace NumberLayout

def positional (digits : List Char) : Int → List Char
  | .ofNat e =>
    let whole := digits.take (e + 1)
    let fraction := digits.drop (e + 1)
    whole ++ List.replicate (e + 1 - whole.length) '0' ++ '.' ::
      (if fraction = [] then ['0'] else fraction)
  | .negSucc e => '0' :: '.' :: (List.replicate e '0' ++ digits)

def scientific (digits : List Char) (exponent : Int) : List Char :=
  digits.take 1 ++ (if digits.length ≤ 1 then [] else '.' :: digits.drop 1) ++
    'e' :: (if exponent < 0 then '-' else '+') :: natText exponent.natAbs

def render (layout : NumberLayout) (x : FiniteDouble) : List Char :=
  let sign := if x.negative then ['-'] else []
  if x.isZero then sign ++ ['0', '.', '0']
  else
    let (digits, exponent) := x.shortestDigits
    sign ++ (if layout.leastPositional ≤ exponent ∧ exponent ≤ layout.mostPositional then
      positional digits exponent
    else scientific digits exponent)

end NumberLayout

end DocStore
