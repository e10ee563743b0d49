/-!
# Decimal digits

Numerals as lists of ASCII digits, their value, and the text of whole numbers.
-/

set_option autoImplicit false

namespace DocStore

def digitValue (c : Char) : Nat := c.toNat - '0'.toNat

def digitsValue (digits : List Char) : Nat := digits.foldl (fun n c => n * 10 + digitValue c) 0

def natText (n : Nat) : List Char := Nat.toDigits 10 n

def intText (n : Int) : List Char :=
  if n < 0 then '-' :: natText n.natAbs else natText n.natAbs

def natString (n : Nat) : String := String.ofList (natText n)

def intString (n : Int) : String := String.ofList (intText n)

def natPadded (width n : Nat) : List Char := (natText n).leftpad width '0'

def readNat? (digits : List Char) : Option Nat :=
  if digits ≠ [] ∧ digits.all Char.isDigit then some (digitsValue digits) else none

def readInt? : List Char → Option Int
  | '-' :: digits => (readNat? digits).map fun n => -(n : Int)
  | '+' :: digits => (readNat? digits).map fun n => (n : Int)
  | digits => (readNat? digits).map fun n => (n : Int)

theorem digitsValue_natText (n : Nat) : digitsValue (natText n) = n := by
  have h := Nat.ofDigitChars_toDigits (b := 10) (n := n) (by decide) (by decide)
  simp only [Nat.ofDigitChars] at h
  simp only [digitsValue, natText, digitValue, Nat.mul_comm _ 10]
  exact h

theorem natText_ne_nil (n : Nat) : natText n ≠ [] := Nat.toDigits_ne_nil

theorem readNat?_natText (n : Nat) : readNat? (natText n) = some n := by
  have hd : (natText n).all Char.isDigit = true := by
    rw [List.all_eq_true]
    intro c hc
    exact Nat.isDigit_of_mem_toDigits (by decide) (by decide) hc
  simp [readNat?, natText_ne_nil, hd, digitsValue_natText]

end DocStore
