/-!
# Hexadecimal text

Lowercase hexadecimal numerals, as escapes and bit patterns are written, and
their reading, which takes either case.
-/

set_option autoImplicit false

namespace DocStore

def hex (n : Nat) : List Char := Nat.toDigits 16 n

def hexPadded (width n : Nat) : List Char := (hex n).leftpad width '0'

def hexDigit? (c : Char) : Option Nat :=
  if '0' ≤ c ∧ c ≤ '9' then some (c.toNat - '0'.toNat)
  else if 'a' ≤ c ∧ c ≤ 'f' then some (c.toNat - 'a'.toNat + 10)
  else if 'A' ≤ c ∧ c ≤ 'F' then some (c.toNat - 'A'.toNat + 10)
  else none

def hexQuad? (a b c d : Char) : Option Nat := do
  let a ← hexDigit? a
  let b ← hexDigit? b
  let c ← hexDigit? c
  let d ← hexDigit? d
  return ((a * 16 + b) * 16 + c) * 16 + d

end DocStore
