import DocStore.Time.Calendar

/-!
# Day numbers and dates

Every day number is that of a valid date. A year has as many days as its months
together, so the day of the year always falls into one of them, and counting the
months before it leads back to the day.
-/

set_option autoImplicit false

namespace DocStore

/-- The months of a year reach from its first day to that of the next year. -/
theorem daysBeforeMonth_monthLengths (year : Int) :
    (daysBeforeMonth (monthLengths year) 12 : Int) =
      daysBeforeYear (year + 1) - daysBeforeYear year := by
  have hleap : isLeapYear year = true ↔ year % 4 = 0 ∧ (year % 100 ≠ 0 ∨ year % 400 = 0) := by
    simp [isLeapYear]
  cases h : isLeapYear year with
  | true =>
    have hy := hleap.mp h
    have hm : daysBeforeMonth (monthLengths year) 12 = 366 := by
      rw [monthLengths, h]
      rfl
    rw [hm]
    unfold daysBeforeYear
    omega
  | false =>
    have hy : ¬(year % 4 = 0 ∧ (year % 100 ≠ 0 ∨ year % 400 = 0)) := by
      rw [← hleap, h]
      decide
    have hm : daysBeforeMonth (monthLengths year) 12 = 365 := by
      rw [monthLengths, h]
      rfl
    rw [hm]
    unfold daysBeforeYear
    omega

theorem monthAndDay_within {lengths : List Nat} {day : Nat}
    (h : day < daysBeforeMonth lengths lengths.length) :
    ∃ month rest, monthAndDay lengths day = (month + 1, rest + 1) ∧ month < lengths.length ∧
      rest < lengths.getD month 0 ∧ daysBeforeMonth lengths month + rest = day := by
  induction lengths generalizing day with
  | nil => exact absurd h (by simp [daysBeforeMonth])
  | cons length lengths ih =>
    by_cases hd : day < length
    · refine ⟨0, day, ?_, by simp, hd, by simp [daysBeforeMonth]⟩
      simp [monthAndDay, hd]
    · have hrest : day - length < daysBeforeMonth lengths lengths.length := by
        simp only [List.length_cons, daysBeforeMonth] at h
        omega
      obtain ⟨month, rest, hmonth, hlt, hle, hday⟩ := ih hrest
      refine ⟨month + 1, rest, ?_, Nat.succ_lt_succ hlt, hle, ?_⟩
      · rw [monthAndDay, if_neg hd, hmonth]
      · rw [daysBeforeMonth]
        omega

namespace Date

/-- A day number is made of the years before, the months before and the days before. -/
theorem ofDayNumber_parts (n : Int) :
    ∃ year month day, ofDayNumber n = ⟨year, month + 1, day + 1⟩ ∧ month < 12 ∧
      day < (monthLengths year).getD month 0 ∧
      daysBeforeYear year + daysBeforeMonth (monthLengths year) month + day = n + epochDay := by
  have hfrom := daysBeforeYear_yearOfDay_le (n + epochDay)
  have hto := lt_daysBeforeYear_yearOfDay_succ (n + epochDay)
  have hyear := daysBeforeMonth_monthLengths (yearOfDay (n + epochDay))
  have hwithin : (n + epochDay - daysBeforeYear (yearOfDay (n + epochDay))).toNat <
      daysBeforeMonth (monthLengths (yearOfDay (n + epochDay))) 12 := by
    omega
  obtain ⟨month, day, hmonth, hlt, hday, hsum⟩ := monthAndDay_within hwithin
  refine ⟨yearOfDay (n + epochDay), month, day, ?_, hlt, hday, ?_⟩
  · rw [ofDayNumber, hmonth]
  · omega

theorem getD_monthLengths_le (year : Int) (month : Nat) :
    (monthLengths year).getD month 0 ≤ 31 := by
  have hall : ∀ length ∈ monthLengths year, length ≤ 31 := by
    unfold monthLengths
    cases isLeapYear year <;> decide
  rw [List.getD_eq_getElem?_getD]
  cases h : (monthLengths year)[month]? with
  | none => exact Nat.zero_le 31
  | some length => exact hall length (List.mem_of_getElem? h)

theorem ofDayNumber_isValid (n : Int) : (ofDayNumber n).isValid = true := by
  obtain ⟨year, month, day, hdate, hmonth, hday, -⟩ := ofDayNumber_parts n
  rw [hdate]
  simp only [isValid, Nat.add_sub_cancel, Bool.and_eq_true, decide_eq_true_eq]
  omega

theorem dayNumber_ofDayNumber (n : Int) : (ofDayNumber n).dayNumber = n := by
  obtain ⟨year, month, day, hdate, -, -, hsum⟩ := ofDayNumber_parts n
  rw [hdate]
  simp only [dayNumber, Nat.add_sub_cancel]
  omega

theorem ofDayNumber_lt (n : Int) : (ofDayNumber n).month < 100 ∧ (ofDayNumber n).day < 100 := by
  obtain ⟨year, month, day, hdate, hmonth, hday, -⟩ := ofDayNumber_parts n
  have hlength := getD_monthLengths_le year month
  rw [hdate]
  constructor
  · show month + 1 < 100
    omega
  · show day + 1 < 100
    omega

end Date

end DocStore
