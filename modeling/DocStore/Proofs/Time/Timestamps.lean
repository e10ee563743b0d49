import DocStore.Proofs.Number.Numerals
import DocStore.Proofs.Time.Calendar
import DocStore.Time.Timestamp
import Mathlib.Data.List.TakeDrop

/-!
# Timestamps read back

In the years 0 to 9999 a timestamp is read back from its text. Each reader takes
what one part of the printer wrote and leaves the text behind it. A leap second
is written as the second 60 and stored as the second before it with a billion
nanoseconds more, so both ways the two halves are put together again.
-/

set_option autoImplicit false

namespace DocStore.Timestamp

theorem takeDigits?_natPadded {width n : Nat} (hw : 0 < width) (h : n < tenPow width)
    (rest : List Char) : takeDigits? width (natPadded width n ++ rest) = some (n, rest) := by
  have hlen := natPadded_length hw h
  have htake : (natPadded width n ++ rest).take width = natPadded width n := by
    rw [List.take_append_of_le_length (Nat.le_of_eq hlen.symm), List.take_of_length_le]
    exact Nat.le_of_eq hlen
  have hdrop : (natPadded width n ++ rest).drop width = rest := by
    rw [List.drop_append, hlen, Nat.sub_self, List.drop_zero, List.drop_of_length_le,
      List.nil_append]
    exact Nat.le_of_eq hlen
  have hall : (natPadded width n).all Char.isDigit = true :=
    List.all_eq_true.mpr fun c hc => isDigit_of_mem_natPadded hc
  rw [takeDigits?, htake, hdrop, if_pos ⟨hlen, hall⟩, digitsValue_natPadded]

theorem takeOneOf?_cons {allowed : List Char} {c : Char} (h : c ∈ allowed) (rest : List Char) :
    takeOneOf? allowed (c :: rest) = some rest := by
  rw [takeOneOf?, if_pos h]

theorem nanosOfDigits_natPadded {width n : Nat} (hw : 0 < width) (hw9 : width ≤ 9)
    (h : n < tenPow width) : nanosOfDigits (natPadded width n) = tenPow (9 - width) * n := by
  have hlen := natPadded_length hw h
  have htake : (natPadded width n ++ List.replicate 9 '0').take 9 =
      natPadded width n ++ List.replicate (9 - width) '0' := by
    rw [List.take_append, hlen, List.take_replicate, List.take_of_length_le]
    · congr 2
      omega
    · rw [hlen]
      exact hw9
  rw [nanosOfDigits, htake, digitsValue_append_zeros, digitsValue_natPadded]

theorem takeFraction?_natPadded {width n : Nat} (hw : 0 < width) (hw9 : width ≤ 9)
    (h : n < tenPow width) {c : Char} (hc : c.isDigit = false) (rest : List Char) :
    takeFraction? ('.' :: (natPadded width n ++ c :: rest)) =
      some (tenPow (9 - width) * n, c :: rest) := by
  have hne : natPadded width n ≠ [] := by
    intro hnil
    have hlen := natPadded_length hw h
    rw [hnil, List.length_nil] at hlen
    omega
  have hspan : (natPadded width n ++ c :: rest).span Char.isDigit =
      (natPadded width n, c :: rest) := by
    have hall : ∀ d ∈ natPadded width n, d.isDigit = true := fun d hd => isDigit_of_mem_natPadded hd
    rw [List.span_eq_takeWhile_dropWhile, List.takeWhile_append_of_pos hall,
      List.dropWhile_append_of_pos hall]
    simp [hc]
  simp only [takeFraction?, hspan, if_neg hne, nanosOfDigits_natPadded hw hw9 h]

/-- Digits down to a unit of which the nanoseconds are a multiple say all of them. -/
theorem takeFraction?_of_mod {width nanos : Nat} (hw : 0 < width) (hw9 : width ≤ 9)
    (hmod : nanos % tenPow (9 - width) = 0) (h : nanos < nanosPerSecond) (rest : List Char) :
    takeFraction? ('.' :: (natPadded width (nanos / tenPow (9 - width)) ++ 'Z' :: rest)) =
      some (nanos, 'Z' :: rest) := by
  have hunit : tenPow (9 - width) * tenPow width = nanosPerSecond := by
    rw [← tenPow_add, Nat.sub_add_cancel hw9]
    rfl
  have hlt : nanos / tenPow (9 - width) < tenPow width := by
    apply Nat.div_lt_of_lt_mul
    rw [hunit]
    exact h
  have hz : 'Z'.isDigit = false := by decide
  rw [takeFraction?_natPadded hw hw9 hlt hz, Nat.mul_div_cancel' (Nat.dvd_of_mod_eq_zero hmod)]

theorem takeFraction?_fractionText {nanos : Nat} (h : nanos < nanosPerSecond) (rest : List Char) :
    takeFraction? (fractionText nanos ++ 'Z' :: rest) = some (nanos, 'Z' :: rest) := by
  unfold fractionText
  by_cases h0 : nanos = 0
  · rw [if_pos h0, h0]
    rfl
  by_cases h6 : nanos % 1000000 = 0
  · rw [if_neg h0, if_pos h6]
    exact takeFraction?_of_mod (by decide) (by decide) h6 h rest
  by_cases h3 : nanos % 1000 = 0
  · rw [if_neg h0, if_neg h6, if_pos h3]
    exact takeFraction?_of_mod (by decide) (by decide) h3 h rest
  · have hnine := takeFraction?_of_mod (by decide) (Nat.le_refl 9) (Nat.mod_one nanos) h rest
    rw [if_neg h0, if_neg h6, if_neg h3]
    rwa [Nat.sub_self, show tenPow 0 = 1 from rfl, Nat.div_one] at hnine

theorem make?_self (t : Timestamp) : make? t.seconds t.nanos = some t := by
  rw [make?, dif_pos ⟨t.nanos_lt, t.leap⟩]

theorem secondOfDay_lt (t : Timestamp) : t.secondOfDay < 86400 := by
  unfold secondOfDay
  omega

theorem second_eq_sixty_iff (t : Timestamp) : t.second = 60 ↔ nanosPerSecond ≤ t.nanos := by
  have hleap := t.leap
  have hmod : ((t.secondOfDay % 60 : Nat) : Int) = t.seconds % 60 := by
    unfold secondOfDay
    omega
  rw [second]
  by_cases h : nanosPerSecond ≤ t.nanos
  · have hlast := hleap h
    rw [if_pos h]
    omega
  · rw [if_neg h]
    omega

theorem second_le (t : Timestamp) : t.second ≤ 60 := by
  unfold second
  split <;> omega

theorem min_second (t : Timestamp) : min t.second 59 = t.secondOfDay % 60 := by
  have hsixty := t.second_eq_sixty_iff
  rw [second] at hsixty ⊢
  by_cases h : nanosPerSecond ≤ t.nanos
  · rw [if_pos h] at hsixty ⊢
    have := hsixty.mpr h
    omega
  · rw [if_neg h]
    omega

theorem ofLocal?_parts (t : Timestamp) :
    ofLocal? t.date (t.secondOfDay / 3600) (t.secondOfDay / 60 % 60) t.second
      (t.nanos % nanosPerSecond) 0 = some t := by
  have hday := t.secondOfDay_lt
  have hnanos : (if t.second = 60 then t.nanos % nanosPerSecond + nanosPerSecond
      else t.nanos % nanosPerSecond) = t.nanos := by
    have hlt := t.nanos_lt
    simp only [t.second_eq_sixty_iff]
    unfold nanosPerSecond at hlt ⊢
    split <;> omega
  have hseconds : t.date.dayNumber * 86400 + (t.secondOfDay / 3600 : Nat) * 3600 +
      (t.secondOfDay / 60 % 60 : Nat) * 60 + (min t.second 59 : Nat) - 0 * 60 = t.seconds := by
    rw [min_second, date, Date.dayNumber_ofDayNumber]
    unfold secondOfDay
    omega
  have hvalid : t.date.isValid = true ∧ t.secondOfDay / 3600 ≤ 23 ∧
      t.secondOfDay / 60 % 60 ≤ 59 ∧ t.second ≤ 60 :=
    ⟨Date.ofDayNumber_isValid _, by omega, by omega, t.second_le⟩
  rw [ofLocal?, if_pos hvalid, hnanos, hseconds, make?_self]

theorem readChars?_renderChars {t : Timestamp} (h : 0 ≤ t.date.year ∧ t.date.year ≤ 9999) :
    readChars? t.renderChars = some t := by
  have hyear : t.date.year.natAbs < tenPow 4 := by
    show _ < 10000
    omega
  have hmonth : t.date.month < tenPow 2 := (Date.ofDayNumber_lt _).1
  have hday : t.date.day < tenPow 2 := (Date.ofDayNumber_lt _).2
  have hlt := t.secondOfDay_lt
  have hhour : t.secondOfDay / 3600 < tenPow 2 := by
    show _ < 100
    omega
  have hminute : t.secondOfDay / 60 % 60 < tenPow 2 := by
    show _ < 100
    omega
  have hsecond : t.second < tenPow 2 := Nat.lt_of_le_of_lt t.second_le (by decide)
  have hnanos : t.nanos % nanosPerSecond < nanosPerSecond := Nat.mod_lt _ (by decide)
  have habs : (t.date.year.natAbs : Int) = t.date.year := by omega
  rw [renderChars, yearText, if_pos h]
  simp only [List.append_assoc, List.cons_append]
  simp only [readChars?, Option.bind_eq_bind, Option.bind_some, List.mem_cons, true_or,
    takeDigits?_natPadded (by decide) hyear, takeDigits?_natPadded (by decide) hmonth,
    takeDigits?_natPadded (by decide) hday, takeDigits?_natPadded (by decide) hhour,
    takeDigits?_natPadded (by decide) hminute, takeDigits?_natPadded (by decide) hsecond,
    takeOneOf?_cons, takeFraction?_fractionText hnanos, readOffset?, habs]
  exact t.ofLocal?_parts

/-- In the years of four digits a timestamp is read back from its text. -/
theorem read?_render {t : Timestamp} (h : 0 ≤ t.date.year ∧ t.date.year ≤ 9999) :
    read? t.render = some t := by
  rw [read?, render, String.toList_ofList, readChars?_renderChars h]

def leapSecond : Timestamp := ⟨1483228799, 1500000000, by decide, by decide⟩

example : leapSecond.render = "2016-12-31T23:59:60.500Z" := by decide

end DocStore.Timestamp
