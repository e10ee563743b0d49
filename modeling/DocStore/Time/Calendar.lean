/-!
# Calendar dates

Dates of the Gregorian calendar, extended without end in both directions, and
their day numbers counted from 1 January 1970. A year is found from a day number
by an estimate that is at most one off.
-/

set_option autoImplicit false

namespace DocStore

structure Date where
  year : Int
  month : Nat
  day : Nat
  deriving DecidableEq

def isLeapYear (year : Int) : Bool := year % 4 = 0 && (year % 100 ≠ 0 || year % 400 = 0)

def monthLengths (year : Int) : List Nat :=
  [31, if isLeapYear year then 29 else 28, 31, 30, 31, 30, 31, 31, 30, 31, 30, 31]

def daysBeforeYear (year : Int) : Int :=
  365 * year + (year - 1) / 4 - (year - 1) / 100 + (year - 1) / 400 + 1

def epochDay : Int := 719528

def yearOfDay (day : Int) : Int :=
  let estimate := 400 * day / 146097
  if day < daysBeforeYear estimate then estimate - 1
  else if daysBeforeYear (estimate + 1) ≤ day then estimate + 1
  else estimate

theorem daysBeforeYear_pred_estimate_le (day : Int) :
    daysBeforeYear (400 * day / 146097 - 1) ≤ day := by
  unfold daysBeforeYear
  omega

theorem lt_daysBeforeYear_estimate_succ (day : Int) :
    day < daysBeforeYear (400 * day / 146097 + 1 + 1) := by
  unfold daysBeforeYear
  omega

theorem daysBeforeYear_yearOfDay_le (day : Int) : daysBeforeYear (yearOfDay day) ≤ day := by
  have h := daysBeforeYear_pred_estimate_le day
  by_cases h₁ : day < daysBeforeYear (400 * day / 146097)
  · simpa [yearOfDay, h₁] using h
  · by_cases h₂ : daysBeforeYear (400 * day / 146097 + 1) ≤ day
    · simp [yearOfDay, h₁, h₂]
    · simpa [yearOfDay, h₁, h₂] using Int.not_lt.mp h₁

theorem lt_daysBeforeYear_yearOfDay_succ (day : Int) :
    day < daysBeforeYear (yearOfDay day + 1) := by
  have h := lt_daysBeforeYear_estimate_succ day
  by_cases h₁ : day < daysBeforeYear (400 * day / 146097)
  · simp [yearOfDay, h₁]
  · by_cases h₂ : daysBeforeYear (400 * day / 146097 + 1) ≤ day
    · simpa [yearOfDay, h₁, h₂] using h
    · simpa [yearOfDay, h₁, h₂] using Int.not_le.mp h₂

def daysBeforeMonth : List Nat → Nat → Nat
  | length :: lengths, months + 1 => length + daysBeforeMonth lengths months
  | _, _ => 0

def monthAndDay : List Nat → Nat → Nat × Nat
  | [], day => (1, day + 1)
  | length :: lengths, day =>
    if day < length then (1, day + 1)
    else ((monthAndDay lengths (day - length)).1 + 1, (monthAndDay lengths (day - length)).2)

namespace Date

def isValid (date : Date) : Bool :=
  1 ≤ date.month && date.month ≤ 12 && 1 ≤ date.day &&
    date.day ≤ (monthLengths date.year).getD (date.month - 1) 0

def dayNumber (date : Date) : Int :=
  daysBeforeYear date.year - epochDay + daysBeforeMonth (monthLengths date.year) (date.month - 1) +
    (date.day - 1 : Nat)

def ofDayNumber (n : Int) : Date :=
  let year := yearOfDay (n + epochDay)
  let (month, day) := monthAndDay (monthLengths year) (n + epochDay - daysBeforeYear year).toNat
  ⟨year, month, day⟩

end Date

end DocStore
