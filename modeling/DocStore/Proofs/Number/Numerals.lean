import DocStore.Number.Digits
import DocStore.Number.Power

/-!
# Numerals read back

Whole numbers are read back from their numerals, with a sign or filled up with
zeros to a width. Zeros before a numeral do not count, and each zero behind it
counts ten times. A numeral is below the power of ten with as many zeros as it has
digits.
-/

set_option autoImplicit false

namespace DocStore

theorem digitsValue_eq (digits : List Char) :
    digitsValue digits = Nat.ofDigitChars 10 digits 0 := by
  simp only [digitsValue, Nat.ofDigitChars, digitValue, Nat.mul_comm]

theorem digitsValue_zeros_append (k : Nat) (digits : List Char) :
    digitsValue (List.replicate k '0' ++ digits) = digitsValue digits := by
  rw [digitsValue_eq, digitsValue_eq, Nat.ofDigitChars_append, Nat.ofDigitChars_replicate_zero,
    Nat.mul_zero]

theorem digitsValue_append_zeros (k : Nat) (digits : List Char) :
    digitsValue (digits ++ List.replicate k '0') = tenPow k * digitsValue digits := by
  rw [digitsValue_eq, digitsValue_eq, Nat.ofDigitChars_append, Nat.ofDigitChars_replicate_zero]
  rfl

theorem digitValue_lt {c : Char} (h : c.isDigit = true) : digitValue c < 10 := by
  simp only [Char.isDigit, Bool.and_eq_true, decide_eq_true_eq, UInt32.le_iff_toNat_le] at h
  have hnine : c.toNat ≤ 57 := h.2
  show c.toNat - 48 < 10
  omega

theorem foldl_digits_lt {digits : List Char} (h : ∀ c ∈ digits, c.isDigit = true) (n : Nat) :
    digits.foldl (fun n c => n * 10 + digitValue c) n < (n + 1) * tenPow digits.length := by
  induction digits generalizing n with
  | nil =>
    show n < (n + 1) * 1
    omega
  | cons c digits ih =>
    obtain ⟨hc, hdigits⟩ := List.forall_mem_cons.mp h
    have hdigit := digitValue_lt hc
    calc (c :: digits).foldl (fun n c => n * 10 + digitValue c) n
        = digits.foldl (fun n c => n * 10 + digitValue c) (n * 10 + digitValue c) := rfl
      _ < (n * 10 + digitValue c + 1) * tenPow digits.length := ih hdigits _
      _ ≤ ((n + 1) * 10) * tenPow digits.length := Nat.mul_le_mul_right _ (by omega)
      _ = (n + 1) * tenPow (digits.length + 1) := by
        rw [tenPow_succ, Nat.mul_assoc, Nat.mul_comm 10]

theorem digitsValue_lt {digits : List Char} (h : ∀ c ∈ digits, c.isDigit = true) :
    digitsValue digits < tenPow digits.length := by
  have hlt := foldl_digits_lt h 0
  rwa [Nat.zero_add, Nat.one_mul] at hlt

theorem isDigit_of_mem_natText {n : Nat} {c : Char} (h : c ∈ natText n) : c.isDigit = true :=
  Nat.isDigit_of_mem_toDigits (by decide) (by decide) h

/-- A sign is no digit, so a numeral without one is read as it stands. -/
theorem readInt?_natText (n : Nat) : readInt? (natText n) = some (n : Int) := by
  cases h : natText n with
  | nil => exact absurd h (natText_ne_nil n)
  | cons c cs =>
    have hc : c.isDigit = true := isDigit_of_mem_natText (n := n) (by simp [h])
    have hminus : c ≠ '-' := by
      rintro rfl
      exact absurd hc (by decide)
    have hplus : c ≠ '+' := by
      rintro rfl
      exact absurd hc (by decide)
    unfold readInt?
    split
    · rename_i heq
      exact absurd (List.cons.inj heq).1 hminus
    · rename_i heq
      exact absurd (List.cons.inj heq).1 hplus
    · rw [← h, readNat?_natText]
      rfl

theorem readInt?_intText (n : Int) : readInt? (intText n) = some n := by
  unfold intText
  by_cases h : n < 0
  · rw [if_pos h, readInt?, readNat?_natText]
    show some (-(n.natAbs : Int)) = some n
    congr 1
    omega
  · rw [if_neg h, readInt?_natText]
    congr 1
    omega

theorem isDigit_of_mem_natPadded {width n : Nat} {c : Char} (h : c ∈ natPadded width n) :
    c.isDigit = true := by
  rcases List.mem_append.mp h with h | h
  · rw [(List.mem_replicate.mp h).2]
    decide
  · exact isDigit_of_mem_natText h

theorem digitsValue_natPadded (width n : Nat) : digitsValue (natPadded width n) = n := by
  rw [natPadded, List.leftpad, digitsValue_zeros_append, digitsValue_natText]

theorem natPadded_length {width n : Nat} (hw : 0 < width) (h : n < tenPow width) :
    (natPadded width n).length = width := by
  have hlen : (natText n).length ≤ width := (Nat.length_toDigits_le_iff (by decide) hw).mpr h
  rw [natPadded, List.length_leftpad]
  omega

end DocStore
