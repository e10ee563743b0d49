/-!
# Powers

The powers of two and of ten, by which doubles and decimal numerals are scaled.
-/

set_option autoImplicit false

namespace DocStore

def twoPow (k : Nat) : Nat := Nat.pow 2 k

def tenPow (k : Nat) : Nat := Nat.pow 10 k

theorem twoPow_succ (k : Nat) : twoPow (k + 1) = twoPow k * 2 := rfl

theorem tenPow_succ (k : Nat) : tenPow (k + 1) = tenPow k * 10 := rfl

theorem twoPow_pos (k : Nat) : 0 < twoPow k := by
  induction k with
  | zero => decide
  | succ k ih =>
    rw [twoPow_succ]
    omega

theorem tenPow_add (j k : Nat) : tenPow (j + k) = tenPow j * tenPow k := by
  induction k with
  | zero => simp [tenPow]
  | succ k ih => rw [← Nat.add_assoc, tenPow_succ, tenPow_succ, ih, Nat.mul_assoc]

theorem twoPow_add (j k : Nat) : twoPow (j + k) = twoPow j * twoPow k := by
  induction k with
  | zero => simp [twoPow]
  | succ k ih => rw [← Nat.add_assoc, twoPow_succ, twoPow_succ, ih, Nat.mul_assoc]

end DocStore
