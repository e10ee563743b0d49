/-!
# 64-bit integers

The integers that 64 bits hold with a sign, among all integers. Main statement:
`int64?` finds the one with a given value and finds nothing else. Where a number
has to fit, `clampInt64` takes the nearest one instead, and `low32` keeps
the lower half of the bits.
-/

set_option autoImplicit false

namespace DocStore

def int64? (n : Int) : Option Int64 :=
  if Int64.minValue.toInt ≤ n ∧ n ≤ Int64.maxValue.toInt then some (.ofInt n) else none

def clampInt64 (n : Int) : Int64 :=
  .ofInt (max Int64.minValue.toInt (min n Int64.maxValue.toInt))

def low32 (i : Int64) : Nat := i.toUInt64.toUInt32.toNat

theorem int64?_toInt (i : Int64) : int64? i.toInt = some i := by
  have h : Int64.minValue.toInt ≤ i.toInt ∧ i.toInt ≤ Int64.maxValue.toInt :=
    ⟨Int64.minValue_le_toInt i, Int64.toInt_le i⟩
  rw [int64?, if_pos h, Int64.ofInt_toInt]

theorem int64?_eq_some_iff {n : Int} {i : Int64} : int64? n = some i ↔ i.toInt = n := by
  constructor
  · intro h
    unfold int64? at h
    by_cases hn : Int64.minValue.toInt ≤ n ∧ n ≤ Int64.maxValue.toInt
    · rw [if_pos hn, Option.some.injEq] at h
      rw [← h]
      exact Int64.toInt_ofInt_of_le hn.1 (Int.lt_add_one_of_le hn.2)
    · rw [if_neg hn] at h
      exact absurd h (by simp)
  · intro h
    rw [← h]
    exact int64?_toInt i

theorem clampInt64_toInt (n : Int) :
    (clampInt64 n).toInt = max Int64.minValue.toInt (min n Int64.maxValue.toInt) := by
  have hmin : Int64.minValue.toInt = -9223372036854775808 := rfl
  have hmax : Int64.maxValue.toInt = 9223372036854775807 := rfl
  apply Int64.toInt_ofInt_of_le
  · show (-9223372036854775808 : Int) ≤ _
    omega
  · show _ < (9223372036854775808 : Int)
    omega

/-- Nothing is dropped from a number that 32 bits hold. -/
theorem low32_eq {i : Int64} {n : Nat} (h : i.toInt = n) (hn : n < 4294967296) :
    low32 i = n := by
  have hbits : i.toUInt64.toNat = i.toBitVec.toNat := rfl
  have hsign : i.toInt = i.toBitVec.toInt := rfl
  have hlt := i.toBitVec.isLt
  rw [hsign, BitVec.toInt_eq_toNat_cond] at h
  rw [low32, UInt64.toNat_toUInt32, hbits]
  split at h <;> omega

end DocStore
