import DocStore.Proofs.Time.Timestamps

/-!
# Years that texts can name

A text has a year of four digits, but an offset can carry its instant over the
beginning or the end of that year. Main statement: the instant of a text is at most
one year off the year that it begins with, to the side that its offset says, and
where it leaves the years 0 to 9999 its own text is not read back.
-/

set_option autoImplicit false

namespace DocStore

/-- A month and those before it end within the year. -/
theorem daysBeforeMonth_add_getD_le {lengths : List Nat} {month : Nat}
    (h : month < lengths.length) :
    daysBeforeMonth lengths month + lengths.getD month 0 ≤
      daysBeforeMonth lengths lengths.length := by
  induction lengths generalizing month with
  | nil => exact absurd h (Nat.not_lt_zero month)
  | cons length lengths ih =>
    cases month with
    | zero => simp [daysBeforeMonth]
    | succ month =>
      have hrest := ih (Nat.lt_of_succ_lt_succ h)
      simp only [List.length_cons, daysBeforeMonth, List.getD_cons_succ]
      omega

theorem daysBeforeYear_lt_iff {y z : Int} : daysBeforeYear y < daysBeforeYear z ↔ y < z := by
  unfold daysBeforeYear
  omega

theorem yearOfDay_eq {year day : Int} (hfrom : daysBeforeYear year ≤ day)
    (hto : day < daysBeforeYear (year + 1)) : yearOfDay day = year := by
  have hle : yearOfDay day < year + 1 :=
    daysBeforeYear_lt_iff.mp (Int.lt_of_le_of_lt (daysBeforeYear_yearOfDay_le day) hto)
  have hge : year < yearOfDay day + 1 :=
    daysBeforeYear_lt_iff.mp (Int.lt_of_le_of_lt hfrom (lt_daysBeforeYear_yearOfDay_succ day))
  omega

theorem yearOfDay_pred {year day : Int} (hfrom : daysBeforeYear year ≤ day)
    (hto : day < daysBeforeYear (year + 1)) :
    yearOfDay (day - 1) = year ∨ yearOfDay (day - 1) = year - 1 := by
  by_cases h : daysBeforeYear year ≤ day - 1
  · exact Or.inl (yearOfDay_eq h (by omega))
  · have hyear : daysBeforeYear (year - 1) < daysBeforeYear year :=
      daysBeforeYear_lt_iff.mpr (by omega)
    refine Or.inr (yearOfDay_eq (by omega) ?_)
    rw [Int.sub_add_cancel]
    omega

theorem yearOfDay_succ {year day : Int} (hfrom : daysBeforeYear year ≤ day)
    (hto : day < daysBeforeYear (year + 1)) :
    yearOfDay (day + 1) = year ∨ yearOfDay (day + 1) = year + 1 := by
  by_cases h : day + 1 < daysBeforeYear (year + 1)
  · exact Or.inl (yearOfDay_eq (by omega) h)
  · have hyear : daysBeforeYear (year + 1) < daysBeforeYear (year + 1 + 1) :=
      daysBeforeYear_lt_iff.mpr (by omega)
    exact Or.inr (yearOfDay_eq (by omega) (by omega))

namespace Date

theorem isValid_iff {date : Date} : date.isValid = true ↔ (1 ≤ date.month ∧ date.month ≤ 12) ∧
    1 ≤ date.day ∧ date.day ≤ (monthLengths date.year).getD (date.month - 1) 0 := by
  simp [isValid, and_assoc]

theorem dayNumber_within {date : Date} (h : date.isValid = true) :
    daysBeforeYear date.year ≤ date.dayNumber + epochDay ∧
      date.dayNumber + epochDay < daysBeforeYear (date.year + 1) := by
  obtain ⟨⟨hfirst, hlast⟩, hday, hlength⟩ := isValid_iff.mp h
  have htwelve : (monthLengths date.year).length = 12 := rfl
  have hmonth : date.month - 1 < (monthLengths date.year).length := by omega
  have hwithin := daysBeforeMonth_add_getD_le hmonth
  have hyear := daysBeforeMonth_monthLengths date.year
  rw [htwelve] at hwithin
  unfold dayNumber
  omega

end Date

namespace Timestamp

theorem seconds_of_make? {seconds : Int} {nanos : Nat} {t : Timestamp}
    (h : make? seconds nanos = some t) : t.seconds = seconds := by
  unfold make? at h
  by_cases hparts : nanos < 2 * nanosPerSecond ∧ (nanosPerSecond ≤ nanos → seconds % 60 = 59)
  · rw [dif_pos hparts, Option.some.injEq] at h
    rw [← h]
  · rw [dif_neg hparts] at h
    cases h

/-- A local time in its parts is less than a day off midnight of its date in UTC. -/
theorem seconds_of_ofLocal? {date : Date} {hour minute second nanos : Nat} {offset : Int}
    {t : Timestamp} (h : ofLocal? date hour minute second nanos offset = some t) :
    date.isValid = true ∧ ∃ secondOfDay : Nat, secondOfDay < 86400 ∧
      t.seconds = date.dayNumber * 86400 + secondOfDay - offset * 60 := by
  rw [ofLocal?] at h
  split at h
  · next hparts =>
    obtain ⟨hvalid, hhour, hminute, -⟩ := hparts
    refine ⟨hvalid, hour * 3600 + minute * 60 + min second 59, by omega, ?_⟩
    rw [seconds_of_make? h]
    omega
  · cases h

/-- An offset of less than a day moves an instant into the next year at most. -/
theorem year_of_ofLocal? {date : Date} {hour minute second nanos : Nat} {offset : Int}
    {t : Timestamp} (h : ofLocal? date hour minute second nanos offset = some t)
    (hoffset : -1440 < offset ∧ offset < 1440) :
    t.date.year = date.year ∨ (t.date.year = date.year - 1 ∧ 0 < offset) ∨
      (t.date.year = date.year + 1 ∧ offset < 0) := by
  obtain ⟨hvalid, secondOfDay, hlt, hseconds⟩ := seconds_of_ofLocal? h
  obtain ⟨hfrom, hto⟩ := Date.dayNumber_within hvalid
  have hyear : t.date.year = yearOfDay (t.seconds / 86400 + epochDay) := rfl
  have hdays : t.seconds / 86400 = date.dayNumber ∨
      (t.seconds / 86400 = date.dayNumber - 1 ∧ 0 < offset) ∨
      (t.seconds / 86400 = date.dayNumber + 1 ∧ offset < 0) := by
    omega
  rw [hyear]
  rcases hdays with hday | ⟨hday, hsign⟩ | ⟨hday, hsign⟩
  · rw [hday, yearOfDay_eq hfrom hto]
    exact Or.inl rfl
  · rw [hday, show date.dayNumber - 1 + epochDay = date.dayNumber + epochDay - 1 by omega]
    exact (yearOfDay_pred hfrom hto).imp_right fun hpred => Or.inl ⟨hpred, hsign⟩
  · rw [hday, show date.dayNumber + 1 + epochDay = date.dayNumber + epochDay + 1 by omega]
    exact (yearOfDay_succ hfrom hto).imp_right fun hsucc => Or.inr ⟨hsucc, hsign⟩

theorem parts_of_takeDigits? {width n : Nat} {text rest : List Char}
    (h : takeDigits? width text = some (n, rest)) :
    n = digitsValue (text.take width) ∧ n < tenPow width ∧ rest <:+ text := by
  rw [takeDigits?] at h
  split at h
  · next hdigits =>
    obtain ⟨hlength, hall⟩ := hdigits
    cases h
    have hlt := digitsValue_lt fun c hc => List.all_eq_true.mp hall c hc
    rw [hlength] at hlt
    exact ⟨rfl, hlt, List.drop_suffix width text⟩
  · cases h

theorem suffix_of_takeOneOf? {allowed text rest : List Char}
    (h : takeOneOf? allowed text = some rest) : rest <:+ text := by
  cases text with
  | nil => cases h
  | cons c cs =>
    rw [takeOneOf?] at h
    split at h
    · cases h
      exact List.suffix_cons c _
    · cases h

theorem suffix_of_takeFraction? {nanos : Nat} {text rest : List Char}
    (h : takeFraction? text = some (nanos, rest)) : rest <:+ text := by
  unfold takeFraction? at h
  split at h
  · next digits =>
    simp only [List.span_eq_takeWhile_dropWhile] at h
    split at h
    · cases h
    · cases h
      exact (List.dropWhile_suffix _).trans (List.suffix_cons _ _)
  · cases h
    exact List.suffix_rfl

theorem offset_within {text : List Char} {offset : Int} (h : readOffset? text = some offset) :
    -1440 < offset ∧ offset < 1440 := by
  unfold readOffset? at h
  split at h
  · cases h
    decide
  · cases h
    decide
  · simp only [Option.bind_eq_bind, Option.bind_eq_some_iff, Prod.exists] at h
    obtain ⟨hour, _, -, _, -, minute, _, -, h⟩ := h
    split_ifs at h with htime hplus hminus
    · cases h
      omega
    · cases h
      omega
  · cases h

/-- The year that a text begins with and the offset at its end say the year of the instant, but for
one year to the side of the offset. -/
theorem year_of_read? {text : String} {t : Timestamp} (h : read? text = some t) :
    ∃ zone offset, zone <:+ text.toList ∧ readOffset? zone = some offset ∧
      digitsValue (text.toList.take 4) < 10000 ∧
      (t.date.year = digitsValue (text.toList.take 4) ∨
        (t.date.year = digitsValue (text.toList.take 4) - 1 ∧ 0 < offset) ∨
        (t.date.year = digitsValue (text.toList.take 4) + 1 ∧ offset < 0)) := by
  simp only [read?, readChars?, Option.bind_eq_bind, Option.bind_eq_some_iff, Prod.exists] at h
  obtain ⟨year, _, hyear, _, h₁, month, _, hmonth, _, h₂, day, behindDate, hday, _, h₃, hour, _,
    hhour, _, h₄, minute, _, hminute, _, h₅, second, behindTime, hsecond, nanos, zone, hnanos,
    offset, hoffset, hlocal⟩ := h
  obtain ⟨rfl, hlt, hbehind⟩ := parts_of_takeDigits? hyear
  -- Every reader leaves an end of its text, so what the last one gets is an end of the whole.
  have hdate : behindDate <:+ text.toList :=
    ((((parts_of_takeDigits? hday).2.2.trans (suffix_of_takeOneOf? h₂)).trans
      (parts_of_takeDigits? hmonth).2.2).trans (suffix_of_takeOneOf? h₁)).trans hbehind
  have htime : behindTime <:+ behindDate :=
    (((((parts_of_takeDigits? hsecond).2.2.trans (suffix_of_takeOneOf? h₅)).trans
      (parts_of_takeDigits? hminute).2.2).trans (suffix_of_takeOneOf? h₄)).trans
      (parts_of_takeDigits? hhour).2.2).trans (suffix_of_takeOneOf? h₃)
  have hzone : zone <:+ text.toList :=
    ((suffix_of_takeFraction? hnanos).trans htime).trans hdate
  exact ⟨zone, offset, hzone, hoffset, hlt, year_of_ofLocal? hlocal (offset_within hoffset)⟩

theorem takeDigits?_of_not_isDigit {c : Char} (hc : c.isDigit = false) (width : Nat)
    (rest : List Char) : takeDigits? (width + 1) (c :: rest) = none := by
  rw [takeDigits?, if_neg]
  simp [hc]

/-- Outside the years of four digits the text of a timestamp begins with a sign. -/
theorem read?_render_eq_none {t : Timestamp} (h : ¬ (0 ≤ t.date.year ∧ t.date.year ≤ 9999)) :
    read? t.render = none := by
  have hsign : (if t.date.year < 0 then '-' else '+').isDigit = false := by
    split <;> decide
  rw [read?, render, String.toList_ofList, renderChars, yearText, if_neg h]
  simp only [List.cons_append, readChars?, takeDigits?_of_not_isDigit hsign, Option.bind_eq_bind,
    Option.bind_none]

end Timestamp

end DocStore
