import DocStore.Number.Power

/-!
# Doubles as exact numbers

A finite double is a whole number of units, where `2^1074` units make one: its
magnitude is `mantissa * 2^scale` units. Rounding takes an exact quotient of
units to the nearest double, a half going to the even mantissa. All of it is
arithmetic on natural numbers; nothing depends on the machine's floats.
-/

set_option autoImplicit false

namespace DocStore

def unitsPerOne : Nat := twoPow 1074

def Canonical (mantissa scale : Nat) : Prop :=
  mantissa < twoPow 53 ∧ scale ≤ 2045 ∧ (twoPow 52 ≤ mantissa ∨ scale = 0)

instance (mantissa scale : Nat) : Decidable (Canonical mantissa scale) :=
  inferInstanceAs (Decidable (_ ∧ _))

structure FiniteDouble where
  negative : Bool
  mantissa : Nat
  scale : Nat
  canonical : Canonical mantissa scale
  deriving DecidableEq

inductive Double where
  | nan
  | infinity (negative : Bool)
  | finite (x : FiniteDouble)
  deriving DecidableEq

def divNearest (n d : Nat) : Nat :=
  if d < 2 * (n % d) ∨ (d = 2 * (n % d) ∧ n / d % 2 = 1) then n / d + 1 else n / d

/-- The rounded quotient is at most half a unit off. -/
theorem divNearest_within_half (n d : Nat) (h : 0 < d) :
    2 * n ≤ 2 * (d * divNearest n d) + d ∧ 2 * (d * divNearest n d) ≤ 2 * n + d := by
  have hn := Nat.div_add_mod n d
  have hr := Nat.mod_lt n h
  unfold divNearest
  split
  · rw [Nat.mul_add, Nat.mul_one]
    omega
  · omega

/-- A half goes to the even neighbour. -/
theorem divNearest_even_of_half (n d : Nat) (h : d = 2 * (n % d)) : divNearest n d % 2 = 0 := by
  unfold divNearest
  split <;> omega

namespace FiniteDouble

def magnitude (x : FiniteDouble) : Nat := x.mantissa * twoPow x.scale

def units (x : FiniteDouble) : Int := if x.negative then -x.magnitude else x.magnitude

def zero (negative : Bool) : FiniteDouble := ⟨negative, 0, 0, by decide⟩

def isZero (x : FiniteDouble) : Bool := x.mantissa = 0

def ofParts? (negative : Bool) (mantissa scale : Nat) : Option FiniteDouble :=
  if h : Canonical mantissa scale then some ⟨negative, mantissa, scale, h⟩ else none

/-- The double nearest to `n / d` units, unless that is beyond the largest one. The mantissa gets
53 bits of the quotient; when rounding fills a 54th, the next scale holds the same number. -/
def nearest? (negative : Bool) (n d : Nat) : Option FiniteDouble :=
  let scale := (n / d).log2 - 52
  let mantissa := divNearest n (d * twoPow scale)
  if mantissa = twoPow 53 then ofParts? negative (twoPow 52) (scale + 1)
  else ofParts? negative mantissa scale

def mul? (x y : FiniteDouble) : Option FiniteDouble :=
  nearest? (x.negative != y.negative) (x.magnitude * y.magnitude) unitsPerOne

def div? (x y : FiniteDouble) : Option FiniteDouble :=
  nearest? (x.negative != y.negative) (x.magnitude * unitsPerOne) y.magnitude

def isWhole (x : FiniteDouble) : Bool := x.magnitude % unitsPerOne = 0

def wholePart (x : FiniteDouble) : Int :=
  if x.negative then -(x.magnitude / unitsPerOne : Nat) else (x.magnitude / unitsPerOne : Nat)

def toInt? (x : FiniteDouble) : Option Int :=
  if x.magnitude % unitsPerOne = 0 then
    let n := x.magnitude / unitsPerOne
    some (if x.negative then -(n : Int) else n)
  else none

def bits (x : FiniteDouble) : Nat :=
  -- Scale and mantissa overlap in one bit, so that they add up to biased exponent and fraction.
  (if x.negative then twoPow 63 else 0) + x.scale * twoPow 52 + x.mantissa

theorem toInt?_eq (x : FiniteDouble) : x.toInt? = if x.isWhole then some x.wholePart else none := by
  simp only [toInt?, isWhole, wholePart, decide_eq_true_eq]

theorem natAbs_units (x : FiniteDouble) : x.units.natAbs = x.magnitude := by
  unfold units
  split <;> omega

theorem units_zero (negative : Bool) : (zero negative).units = 0 := by
  cases negative <;> simp [units, magnitude, zero]

end FiniteDouble

namespace Double

def isNaN : Double → Bool
  | nan => true
  | _ => false

def nearest (negative : Bool) (n d : Nat) : Double :=
  match FiniteDouble.nearest? negative n d with
  | some x => finite x
  | none => infinity negative

def ofInt (n : Int) : Double := nearest (n < 0) (n.natAbs * unitsPerOne) 1

def equals : Double → Double → Bool
  | finite x, finite y => x.units = y.units
  | infinity a, infinity b => a = b
  | _, _ => false

def isWhole : Double → Bool
  | finite x => x.isWhole
  | _ => false

def toInt? : Double → Option Int
  | finite x => x.toInt?
  | _ => none

def bits : Double → Nat
  | nan => 2047 * twoPow 52 + twoPow 51
  | infinity negative => (if negative then twoPow 63 else 0) + 2047 * twoPow 52
  | finite x => x.bits

end Double

end DocStore
