import DocStore.Proofs.Time.Timestamps

/-!
# Texts of timestamps

Outside the years 0 to 9999 a timestamp cannot be read back, but its text still
determines it. A year ends at the first hyphen behind its digits, and all other
parts up to the fraction have a fixed width. So equal texts have equal parts,
and the parts make up the instant.
-/

set_option autoImplicit false

namespace DocStore

theorem natPadded_append_inj {width m n : Nat} (hw : 0 < width) (hm : m < tenPow width)
    (hn : n < tenPow width) {r s : List Char}
    (h : natPadded width m ++ r = natPadded width n ++ s) : m = n ∧ r = s := by
  have hread := Timestamp.takeDigits?_natPadded hw hm r
  rw [h, Timestamp.takeDigits?_natPadded hw hn s, Option.some.injEq, Prod.mk.injEq] at hread
  exact ⟨hread.1.symm, hread.2.symm⟩

/-- Of whatever width, a numeral ends where something else than a digit begins. -/
theorem natPadded_hyphen_inj {width m n : Nat} {r s : List Char}
    (h : natPadded width m ++ '-' :: r = natPadded width n ++ '-' :: s) : m = n ∧ r = s := by
  have hspan : ∀ (k : Nat) (rest : List Char),
      (natPadded width k ++ '-' :: rest).span Char.isDigit = (natPadded width k, '-' :: rest) := by
    intro k rest
    have hall : ∀ c ∈ natPadded width k, c.isDigit = true := fun _ => isDigit_of_mem_natPadded
    rw [List.span_eq_takeWhile_dropWhile, List.takeWhile_append_of_pos hall,
      List.dropWhile_append_of_pos hall]
    simp
  have hboth := hspan m r
  rw [h, hspan n s, Prod.mk.injEq, List.cons.injEq] at hboth
  have hvalue := congrArg digitsValue hboth.1
  rw [digitsValue_natPadded, digitsValue_natPadded] at hvalue
  exact ⟨hvalue.symm, hboth.2.2.symm⟩

theorem natPadded_append_ne {width n : Nat} {c : Char} (hc : c.isDigit = false) (r s : List Char) :
    natPadded width n ++ r ≠ c :: s := by
  intro h
  cases hp : natPadded width n with
  | nil =>
    have hempty := congrArg List.length hp
    rw [natPadded, List.length_leftpad, List.length_nil] at hempty
    exact natText_ne_nil n (List.length_eq_zero_iff.mp (by omega))
  | cons d ds =>
    rw [hp, List.cons_append, List.cons.injEq] at h
    have hd : d.isDigit = true := isDigit_of_mem_natPadded (by rw [hp]; exact List.mem_cons_self)
    rw [h.1, hc] at hd
    cases hd

namespace Timestamp

theorem yearText_hyphen_inj {y z : Int} {r s : List Char}
    (h : yearText y ++ '-' :: r = yearText z ++ '-' :: s) : y = z ∧ r = s := by
  have hminus : ('-').isDigit = false := by decide
  have hplus : ('+').isDigit = false := by decide
  unfold yearText at h
  by_cases hy : 0 ≤ y ∧ y ≤ 9999 <;> by_cases hz : 0 ≤ z ∧ z ≤ 9999
  · rw [if_pos hy, if_pos hz] at h
    obtain ⟨habs, hrest⟩ := natPadded_hyphen_inj h
    exact ⟨by omega, hrest⟩
  · rw [if_pos hy, if_neg hz] at h
    split at h
    · exact absurd h (natPadded_append_ne hminus _ _)
    · exact absurd h (natPadded_append_ne hplus _ _)
  · rw [if_neg hy, if_pos hz] at h
    split at h
    · exact absurd h.symm (natPadded_append_ne hminus _ _)
    · exact absurd h.symm (natPadded_append_ne hplus _ _)
  · rw [if_neg hy, if_neg hz, List.cons_append, List.cons_append, List.cons.injEq] at h
    obtain ⟨habs, hrest⟩ := natPadded_hyphen_inj h.2
    have hsign : y < 0 ↔ z < 0 := by
      by_cases hy' : y < 0 <;> by_cases hz' : z < 0 <;> simp [hy', hz'] at h ⊢
    exact ⟨by omega, hrest⟩

theorem fractionText_inj {m n : Nat} (hm : m < nanosPerSecond) (hn : n < nanosPerSecond)
    (h : fractionText m ++ ['Z'] = fractionText n ++ ['Z']) : m = n := by
  have hread := takeFraction?_fractionText hm []
  rw [h, takeFraction?_fractionText hn [], Option.some.injEq, Prod.mk.injEq] at hread
  exact hread.1.symm

/-- Two instants with the same text are the same, in any year. -/
theorem render_injective {t u : Timestamp} (h : t.render = u.render) : t = u := by
  have htwo : ∀ v : Timestamp, v.secondOfDay / 3600 < tenPow 2 ∧
      v.secondOfDay / 60 % 60 < tenPow 2 ∧ v.second < tenPow 2 := by
    intro v
    have hday := v.secondOfDay_lt
    have hsecond := v.second_le
    simp only [show tenPow 2 = 100 from rfl]
    omega
  have hnanos : ∀ v : Timestamp, v.nanos % nanosPerSecond < nanosPerSecond :=
    fun v => Nat.mod_lt _ (by decide)
  have hdate : ∀ v : Timestamp, v.date.month < tenPow 2 ∧ v.date.day < tenPow 2 :=
    fun v => Date.ofDayNumber_lt _
  obtain ⟨hhour, hminute, hsecond⟩ := htwo t
  obtain ⟨hhour', hminute', hsecond'⟩ := htwo u
  obtain ⟨hmonth, hday⟩ := hdate t
  obtain ⟨hmonth', hday'⟩ := hdate u
  rw [render, render, String.ofList_inj, renderChars, renderChars] at h
  simp only [List.append_assoc, List.cons_append] at h
  obtain ⟨eyear, h⟩ := yearText_hyphen_inj h
  obtain ⟨emonth, h⟩ := natPadded_append_inj (by decide) hmonth hmonth' h
  obtain ⟨eday, h⟩ := natPadded_append_inj (by decide) hday hday' (List.cons.inj h).2
  obtain ⟨ehour, h⟩ := natPadded_append_inj (by decide) hhour hhour' (List.cons.inj h).2
  obtain ⟨eminute, h⟩ := natPadded_append_inj (by decide) hminute hminute' (List.cons.inj h).2
  obtain ⟨esecond, h⟩ := natPadded_append_inj (by decide) hsecond hsecond' (List.cons.inj h).2
  have enanos := fractionText_inj (hnanos t) (hnanos u) h
  have edate : t.date = u.date := by
    show (⟨t.date.year, t.date.month, t.date.day⟩ : Date) = u.date
    rw [eyear, emonth, eday]
  have hparts := t.ofLocal?_parts
  rw [edate, ehour, eminute, esecond, enanos, u.ofLocal?_parts, Option.some.injEq] at hparts
  exact hparts.symm

end Timestamp

end DocStore
