import DocStore.Proofs.Query.Grammar
import DocStore.Proofs.Value.Sameness

/-!
# Counts and the encoder

The encoder compares a double with the bounds of 64 bits before it takes it for
an integer. The reader of counts takes the nearest integer of 64 bits first, looks
at the range after that, and keeps 32 bits in the end. Main statement: it accepts
the numbers that the encoder sends as integers, from zero up to the largest count
and exactly, and refuses all else under the name of the option.
-/

set_option autoImplicit false

namespace DocStore

namespace Value

def IsSentAs (v : Value) (n : Int) : Prop :=
  ∃ s, v.encode = .ok s ∧ s.toJson = .obj [("integerValue", .str (toString n))]

theorem isSentAs_iff {v : Value} {n : Int} :
    v.IsSentAs n ↔ -9223372036854775808 ≤ n ∧ n < 9223372036854775808 ∧
      v.amount? = some (.units (n * unitsPerOne)) := by
  rw [IsSentAs, encode_integer_iff]
  constructor
  · rintro ⟨m, hmin, hmax, hm, hdigits⟩
    rw [← intString_eq_toString, ← intString_eq_toString] at hdigits
    obtain rfl := intString_injective hdigits
    exact ⟨hmin, hmax, hm⟩
  · rintro ⟨hmin, hmax, hn⟩
    exact ⟨n, hmin, hmax, hn, rfl⟩

theorem whole?_eq_some_iff {v : Value} {n : Int} :
    v.whole? = some n ↔ v.amount? = some (.units (n * unitsPerOne)) := by
  cases v with
  | integer m =>
    rw [whole?, amount?, Option.some.injEq, Option.some.injEq, Amount.units.injEq]
    exact ⟨fun h => by rw [h], eq_of_mul_unitsPerOne⟩
  | double x =>
    cases x with
    | finite x =>
      rw [amount?, Option.some.injEq, Amount.units.injEq]
      exact FiniteDouble.toInt?_eq_some_iff
    | nan => exact ⟨nofun, nofun⟩
    | infinity negative => exact ⟨nofun, nofun⟩
  | _ => exact ⟨nofun, nofun⟩

theorem eq_of_amount {v : Value} {m n : Int} (hm : v.amount? = some (.units (m * unitsPerOne)))
    (hn : v.amount? = some (.units (n * unitsPerOne))) : m = n :=
  Option.some.inj ((whole?_eq_some_iff.mpr hm).symm.trans (whole?_eq_some_iff.mpr hn))

end Value

namespace Query

theorem parseCount_eq_ok_iff_amount {argument : Argument} {v : Value} {n : Nat} :
    parseCount argument v = .ok n ↔
      v.amount? = some (.units (n * unitsPerOne)) ∧ n ≤ 2147483647 := by
  rw [parseCount_eq_ok_iff, Value.whole?_eq_some_iff, maxCount]

theorem parseCount_eq_ok_iff_isSentAs {argument : Argument} {v : Value} {n : Nat} :
    parseCount argument v = .ok n ↔ v.IsSentAs n ∧ n ≤ 2147483647 := by
  rw [parseCount_eq_ok_iff_amount, Value.isSentAs_iff]
  constructor
  · rintro ⟨hamount, hn⟩
    exact ⟨⟨by omega, by omega, hamount⟩, hn⟩
  · rintro ⟨⟨-, -, hamount⟩, hn⟩
    exact ⟨hamount, hn⟩

theorem parseCount_eq_error_iff {argument : Argument} {v : Value} {e : QueryError} :
    parseCount argument v = .error e ↔
      (∀ n : Nat, v.IsSentAs n → 2147483647 < n) ∧ e = .invalidArgument argument .notCount := by
  constructor
  · intro h
    refine ⟨fun n hn => Nat.lt_of_not_le fun hle => ?_, error_of_parseCount h⟩
    rw [parseCount_eq_ok_iff_isSentAs.mpr ⟨hn, hle⟩] at h
    cases h
  · rintro ⟨hnone, rfl⟩
    cases hread : parseCount argument v with
    | ok n =>
      obtain ⟨hn, hle⟩ := parseCount_eq_ok_iff_isSentAs.mp hread
      exact absurd (hnone n hn) (Nat.not_lt.mpr hle)
    | error e => rw [error_of_parseCount hread]

/-- What the reader of counts goes through on the way to a count is the count itself. -/
theorem countOf?_of_parseCount {argument : Argument} {v : Value} {n : Nat}
    (h : parseCount argument v = .ok n) : ∃ i, countOf? v = some i ∧ i.toInt = n ∧ low32 i = n := by
  rw [parseCount] at h
  split at h
  · next i hi =>
    split at h
    · next hrange =>
      have hlow : low32 i = i.toInt.toNat :=
        low32_eq (Int.toNat_of_nonneg hrange.1).symm (by rw [maxCount] at hrange; omega)
      cases h
      exact ⟨i, hi, by omega, rfl⟩
    · cases h
  · cases h

/-- A count is accepted exactly if the value is sent as that integer and 31 bits hold it, and
everything else is refused under the name of the option. A double that is accepted is the count
exactly, and neither the cut to 64 bits nor the one to 32 bits has changed it. -/
theorem counts_follow_encoder (argument : Argument) :
    (∀ (v : Value) (n : Nat),
      parseCount argument v = .ok n ↔ v.IsSentAs n ∧ n ≤ 2147483647) ∧
    (∀ (v : Value) (e : QueryError), parseCount argument v = .error e ↔
      (∀ n : Nat, v.IsSentAs n → 2147483647 < n) ∧ e = .invalidArgument argument .notCount) ∧
    (∀ (x : Double) (n : Nat), parseCount argument (.double x) = .ok n ↔
      (Value.double x).amount? = some (.units (n * unitsPerOne)) ∧ n ≤ 2147483647) ∧
    ∀ (v : Value) (n : Nat), parseCount argument v = .ok n →
      ∃ i, countOf? v = some i ∧ i.toInt = n ∧ low32 i = n :=
  ⟨fun _ _ => parseCount_eq_ok_iff_isSentAs, fun _ _ => parseCount_eq_error_iff,
    fun _ _ => parseCount_eq_ok_iff_amount, fun _ _ => countOf?_of_parseCount⟩

/-- Zero below zero counts as zero and the largest count is accepted as a double. One more is
refused, and so are `2^63`, which is cut to a smaller number, and infinity. -/
theorem counts_follow_encoder_bounds :
    let largest : Double := .finite ⟨false, 2147483647 * twoPow 22, 1052, by decide⟩
    let more : Double := .finite ⟨false, twoPow 52, 1053, by decide⟩
    let beyond : Double := .finite ⟨false, twoPow 52, 1085, by decide⟩
    parseCount .offset (.double (.finite (.zero true))) = .ok 0 ∧
      parseCount .limit (.double largest) = .ok 2147483647 ∧
      (∃ i, countOf? (.double largest) = some i ∧ i.toInt = (2147483647 : Nat) ∧
        low32 i = 2147483647) ∧
      parseCount .limit (.double more) = .error (.invalidArgument .limit .notCount) ∧
      countOf? (.double beyond) = some Int64.maxValue ∧
      parseCount .limit (.double beyond) = .error (.invalidArgument .limit .notCount) ∧
      parseCount .offset (.double (.infinity false)) =
        .error (.invalidArgument .offset .notCount) := by
  intro largest more beyond
  obtain ⟨-, hrefused, hdouble, hexact⟩ := counts_follow_encoder .limit
  have hlargest : parseCount .limit (.double largest) = .ok 2147483647 :=
    (hdouble _ _).mpr ⟨by decide +kernel, by decide⟩
  have hmore : (Value.double more).amount? = some (.units (2147483648 * unitsPerOne)) := by
    decide +kernel
  have hbeyond : (Value.double beyond).amount? =
      some (.units (9223372036854775808 * unitsPerOne)) := by decide +kernel
  refine ⟨((counts_follow_encoder .offset).2.2.1 _ 0).mpr ⟨by decide +kernel, by decide⟩,
    hlargest, hexact _ _ hlargest, (hrefused _ _).mpr ⟨fun n hn => ?_, rfl⟩, by decide +kernel,
    (hrefused _ _).mpr ⟨fun n hn => ?_, rfl⟩,
    ((counts_follow_encoder .offset).2.1 _ _).mpr ⟨fun n hn => ?_, rfl⟩⟩
  · have hwhole := Value.eq_of_amount hmore (Value.isSentAs_iff.mp hn).2.2
    omega
  · have hrange := Value.isSentAs_iff.mp hn
    have hwhole := Value.eq_of_amount hbeyond hrange.2.2
    omega
  · cases Option.some.inj (Value.isSentAs_iff.mp hn).2.2

end Query

end DocStore
