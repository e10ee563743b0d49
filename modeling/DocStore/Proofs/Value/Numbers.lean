import DocStore.Proofs.Json.Range
import DocStore.Proofs.Number.Nearest
import DocStore.Proofs.Query.Conditions
import DocStore.Proofs.Value.Sameness
import DocStore.Value.Plain

/-!
# Numbers of JSON on the wire

A number of JSON becomes a value and the value an operand, and each of the two
stages has its own limits: an integer of JSON may need all 64 bits for its
magnitude, an integer value has a sign in them. Main statement: operands hold the
numbers exactly, as integers wherever 64 bits with a sign do, except integers beyond
them that no double holds, for which the nearest double is sent.
-/

set_option autoImplicit false

namespace DocStore

namespace FiniteDouble

theorem canonical_beyondInt64 : Canonical (twoPow 52) 1085 := by decide

def beyondInt64 : FiniteDouble := ⟨false, twoPow 52, 1085, canonical_beyondInt64⟩

theorem units_beyondInt64 : beyondInt64.units = 9223372036854775808 * unitsPerOne := by
  decide +kernel

end FiniteDouble

namespace JsonNumber

def units : JsonNumber → Int
  | integer n => n * unitsPerOne
  | double x => x.units

inductive Becomes : JsonNumber → Value → Prop
  | integer (n : Int64) : Becomes (integer n.toInt) (.integer n)
  | double (x : FiniteDouble) : Becomes (double x) (.double (.finite x))
  | rounded {n : Int} {x : FiniteDouble} (hn : 9223372036854775807 < n)
      (hx : x.IsNearest (n * unitsPerOne) 1) (hread : Double.ofInt n = .finite x) :
      Becomes (integer n) (.double (.finite x))

theorem exists_ofInt_of_fits {n : Int} (h : (integer n).Fits) :
    ∃ x, Double.ofInt n = .finite x ∧ x.IsNearest (n * unitsPerOne) 1 := by
  have hbound : twoPow 64 = 18446744073709551616 := rfl
  have hmin : -9223372036854775808 ≤ n := h.1
  have hmax : n < 18446744073709551616 := h.2
  have hbits : n.natAbs < twoPow 64 := by omega
  exact Double.exists_ofInt (by decide) hbits

theorem becomes_toValue {j : JsonNumber} (h : j.Fits) : j.Becomes j.toValue := by
  have hmin : Int64.minValue.toInt = -9223372036854775808 := rfl
  have hmax : Int64.maxValue.toInt = 9223372036854775807 := rfl
  cases j with
  | double x => exact .double x
  | integer n =>
    by_cases hn : n ≤ 9223372036854775807
    · have hread : int64? n = some (.ofInt n) := if_pos ⟨hmin ▸ h.1, hmax ▸ hn⟩
      have hvalue : (Int64.ofInt n).toInt = n := int64?_eq_some_iff.mp hread
      have htoValue : (integer n).toValue = .integer (.ofInt n) := by
        simp only [toValue, toInt64?, hread]
      have hbecomes := Becomes.integer (.ofInt n)
      rwa [hvalue, ← htoValue] at hbecomes
    · have hlarge : int64? n = none := if_neg fun hrange => hn (hmax ▸ hrange.2)
      obtain ⟨x, hx, hnearest⟩ := exists_ofInt_of_fits h
      have htoValue : (integer n).toValue = .double (.finite x) := by
        simp only [toValue, toInt64?, hlarge, toDouble, hx]
      rw [htoValue]
      exact .rounded (Int.not_le.mp hn) hnearest hx

inductive Sends (j : JsonNumber) : Scalar → Prop
  | integer {n : Int64} (h : j.units = n.toInt * unitsPerOne) : Sends j (.integer n)
  | double {x : FiniteDouble} (hrange : ∀ n : Int64, j.units ≠ n.toInt * unitsPerOne)
      (h : x.IsNearest j.units 1) : Sends j (.double (.finite x))

/-- Rounding leads no integer back among those of 64 bits with a sign, where `2^63` is nearer. -/
theorem toInt64?_of_rounded {n : Int} {x : FiniteDouble} (hn : 9223372036854775807 < n)
    (hx : x.IsNearest (n * unitsPerOne) 1) : (Double.finite x).toInt64? = none := by
  have hpos : (0 : Int) < unitsPerOne := by
    have := unitsPerOne_pos
    omega
  have hle : 9223372036854775808 * (unitsPerOne : Int) ≤ n * unitsPerOne :=
    Int.mul_le_mul_of_nonneg_right (by omega) (by omega)
  have hnear := hx.nearest .beyondInt64
  rw [FiniteDouble.units_beyondInt64] at hnear
  cases hread : (Double.finite x).toInt64? with
  | none => rfl
  | some m =>
    have hunits := Double.toInt64?_finite_eq_some_iff.mp hread
    have hlt : m.toInt * unitsPerOne < 9223372036854775808 * (unitsPerOne : Int) :=
      Int.mul_lt_mul_of_pos_right (Int64.toInt_lt m) hpos
    omega

theorem sends_of_becomes {j : JsonNumber} {v : Value} (h : j.Becomes v) :
    ∃ s, v.encode = .ok s ∧ j.Sends s := by
  cases h with
  | integer n => exact ⟨.integer n, rfl, .integer rfl⟩
  | double x =>
    cases hread : (Double.finite x).toInt64? with
    | some n =>
      exact ⟨.integer n, by simp only [Value.encode, hread],
        .integer (Double.toInt64?_finite_eq_some_iff.mp hread)⟩
    | none =>
      refine ⟨.double (.finite x), by simp only [Value.encode, hread],
        .double (fun n hn => ?_) x.isNearest_units⟩
      rw [Double.toInt64?_finite_eq_some_iff.mpr hn] at hread
      cases hread
  | @rounded n x hn hx =>
    have hread := toInt64?_of_rounded hn hx
    refine ⟨.double (.finite x), by simp only [Value.encode, hread], .double (fun m hm => ?_) hx⟩
    have hsame := eq_of_mul_unitsPerOne hm
    have hlt := Int64.toInt_lt m
    omega

def FallsBetween (j : JsonNumber) : Prop :=
  ∃ n, j = integer n ∧ 9223372036854775807 < n ∧
    ∀ x : FiniteDouble, x.units ≠ n * unitsPerOne

theorem not_fallsBetween_double (x : FiniteDouble) : ¬ (double x).FallsBetween := by
  rintro ⟨n, hn, -⟩
  cases hn

theorem not_fallsBetween_of_le {n : Int} (h : n ≤ 9223372036854775807) :
    ¬ (integer n).FallsBetween := by
  rintro ⟨m, hm, hlarge, -⟩
  cases hm
  omega

theorem not_fallsBetween_of_units {n : Int} {x : FiniteDouble} (h : x.units = n * unitsPerOne) :
    ¬ (integer n).FallsBetween := by
  rintro ⟨m, hm, -, hnone⟩
  cases hm
  exact hnone x h

theorem Sends.units_eq_iff {j : JsonNumber} (hfits : j.Fits) {x : FiniteDouble}
    (h : j.Sends (.double (.finite x))) : x.units = j.units ↔ ¬ j.FallsBetween := by
  cases h with
  | double hrange hx =>
    constructor
    · rintro hunits ⟨n, rfl, -, hnone⟩
      exact hnone x hunits
    · intro hheld
      cases j with
      | double y => exact hx.units_eq rfl
      | integer n =>
        have hlarge : 9223372036854775807 < n := by
          by_contra hn
          have hvalue : (Int64.ofInt n).toInt = n :=
            Int64.toInt_ofInt_of_le hfits.1 (Int.lt_add_one_of_le (Int.not_lt.mp hn))
          exact hrange (.ofInt n) (by rw [hvalue, units])
        by_contra hne
        exact hheld ⟨n, rfl, hlarge, fun y hy => hne (hx.units_eq hy)⟩

/-- What is sent tells the amount of every number that does not fall between doubles. -/
theorem Sends.eq_iff {j k : JsonNumber} (hj : j.Fits) (hk : k.Fits) (hjHeld : ¬ j.FallsBetween)
    (hkHeld : ¬ k.FallsBetween) {s t : Scalar} (hs : j.Sends s) (ht : k.Sends t) :
    s = t ↔ j.units = k.units := by
  cases hs with
  | @integer m hm =>
    cases ht with
    | @integer n hn =>
      rw [hm, hn, Scalar.integer.injEq, ← Int64.toInt_inj]
      exact ⟨fun h => by rw [h], eq_of_mul_unitsPerOne⟩
    | double hrange _ => exact ⟨nofun, fun h => absurd (h.symm.trans hm) (hrange m)⟩
  | @double x hrange hx =>
    have hxUnits := (Sends.double hrange hx).units_eq_iff hj |>.mpr hjHeld
    cases ht with
    | @integer n hn => exact ⟨nofun, fun h => absurd (h.trans hn) (hrange n)⟩
    | @double y hrange' hy =>
      have hyUnits := (Sends.double hrange' hy).units_eq_iff hk |>.mpr hkHeld
      have hne : x.units ≠ 0 := by
        intro hzero
        rw [hxUnits] at hzero
        exact hrange 0 (hzero.trans (Int.zero_mul _).symm)
      rw [← hxUnits, ← hyUnits, Scalar.double.injEq, Double.finite.injEq]
      exact ⟨fun h => by rw [h], fun h => FiniteDouble.eq_of_units h hne⟩

end JsonNumber

namespace Value

theorem exists_sends (db : Database) {j : JsonNumber} (h : j.Fits) :
    ∃ s, (ofJson db (.number j)).encode = .ok s ∧ j.Sends s :=
  JsonNumber.sends_of_becomes (JsonNumber.becomes_toValue h)

theorem condition_number (db : Database) {j : JsonNumber} (hfits : j.Fits) {s : Scalar}
    (h : (ofJson db (.number j)).encode = .ok s) (path : String) (op : Operator)
    (hop : op.takesList = false) :
    Filter.condition (.string path) (.string op.symbol) (ofJson db (.number j)) =
      .ok (.field path op (.scalar s)) := by
  have hvalue : ofJson db (.number j) ≠ .null ∧ ofJson db (.number j) ≠ .double .nan := by
    have hbecomes := JsonNumber.becomes_toValue hfits
    have hread : ofJson db (.number j) = j.toValue := by rw [ofJson]
    rw [hread]
    generalize j.toValue = v at hbecomes
    cases hbecomes <;> simp
  exact Filter.condition_of_makes (.scalar hvalue hop h)

/-- Every number of JSON is an operand. One that is an integer of 64 bits with a sign, however it is
spelled, is sent as that integer; of every other one the nearest double is sent, which is the number
itself unless that falls between doubles. So operands made from numbers that do not fall between
doubles are equal exactly if the numbers are. -/
theorem numbers_reach_operands (db : Database) :
    (∀ j : JsonNumber, j.Fits → ∃ s, (ofJson db (.number j)).encode = .ok s ∧
      (∀ path (op : Operator), op.takesList = false →
        Filter.condition (.string path) (.string op.symbol) (ofJson db (.number j)) =
          .ok (.field path op (.scalar s))) ∧
      (∀ n : Int, -9223372036854775808 ≤ n → n < 9223372036854775808 →
        j.units = n * unitsPerOne → s.toJson = .obj [("integerValue", .str (toString n))]) ∧
      ((∀ n : Int, -9223372036854775808 ≤ n → n < 9223372036854775808 →
        j.units ≠ n * unitsPerOne) →
          ∃ x : FiniteDouble, s.toJson = .obj [("doubleValue", .number (.double x))] ∧
            x.IsNearest j.units 1 ∧ (x.units = j.units ↔ ¬ j.FallsBetween))) ∧
    ∀ j k : JsonNumber, j.Fits → k.Fits → ¬ j.FallsBetween → ¬ k.FallsBetween →
      ∀ path (op : Operator), op.takesList = false →
        (Filter.condition (.string path) (.string op.symbol) (ofJson db (.number j)) =
          Filter.condition (.string path) (.string op.symbol) (ofJson db (.number k)) ↔
        j.units = k.units) := by
  constructor
  · intro j hj
    obtain ⟨s, hs, hsends⟩ := exists_sends db hj
    refine ⟨s, hs, condition_number db hj hs, ?_, ?_⟩
    · intro n hmin hmax hn
      have hvalue : (Int64.ofInt n).toInt = n := Int64.toInt_ofInt_of_le hmin hmax
      cases hsends with
      | @integer m hm =>
        rw [Scalar.toJson, eq_of_mul_unitsPerOne (hm.symm.trans hn), intString_eq_toString]
        rfl
      | double hrange _ => exact absurd (hn.trans (by rw [hvalue])) (hrange (.ofInt n))
    · intro hnone
      cases hsends with
      | @integer m hm =>
        exact absurd hm (hnone m.toInt (Int64.minValue_le_toInt m) (Int64.toInt_lt m))
      | @double x hrange hx =>
        exact ⟨x, rfl, hx, (JsonNumber.Sends.double hrange hx).units_eq_iff hj⟩
  · intro j k hj hk hjHeld hkHeld path op hop
    obtain ⟨s, hs, hsends⟩ := exists_sends db hj
    obtain ⟨t, ht, hsends'⟩ := exists_sends db hk
    rw [condition_number db hj hs path op hop, condition_number db hk ht path op hop]
    simpa using hsends.eq_iff hj hk hjHeld hkHeld hsends'

/-- At the edge: `5.0` is sent as an integer, `2^63` as a double and exactly, and `5.0` makes the
same condition as `5`. -/
theorem numbers_reach_operands_edges :
    let db := Database.sample
    let five : JsonNumber := .double ⟨false, 5 * twoPow 50, 1024, by decide⟩
    let beyond : JsonNumber := .integer 9223372036854775808
    (∃ s, (ofJson db (.number five)).encode = .ok s ∧
      s.toJson = .obj [("integerValue", .str "5")]) ∧
    (∃ s, (ofJson db (.number beyond)).encode = .ok s ∧ ∃ x : FiniteDouble,
      s.toJson = .obj [("doubleValue", .number (.double x))] ∧ x.units = beyond.units) ∧
    Filter.condition (.string "n") (.string "==") (ofJson db (.number five)) =
      Filter.condition (.string "n") (.string "==") (ofJson db (.number (.integer 5))) := by
  intro db five beyond
  obtain ⟨hsent, hequal⟩ := numbers_reach_operands db
  have hfive : five.units = 5 * unitsPerOne := by decide +kernel
  have hbeyond : beyond.units = 9223372036854775808 * unitsPerOne := rfl
  have hheld : ¬ beyond.FallsBetween :=
    JsonNumber.not_fallsBetween_of_units FiniteDouble.units_beyondInt64
  obtain ⟨s, hs, -, hinteger, -⟩ := hsent five trivial
  obtain ⟨t, ht, -, -, hdouble⟩ := hsent beyond ⟨by decide, by decide⟩
  obtain ⟨x, hx, -, hexact⟩ := hdouble (by
    intro n _ hn h
    rw [hbeyond] at h
    have hsame := eq_of_mul_unitsPerOne h
    omega)
  exact ⟨⟨s, hs, hinteger 5 (by decide) (by decide) hfive⟩, ⟨t, ht, x, hx, hexact.mpr hheld⟩,
    (hequal five (.integer 5) trivial ⟨by decide, by decide⟩ (JsonNumber.not_fallsBetween_double _)
      (JsonNumber.not_fallsBetween_of_le (by decide)) "n" .equal rfl).mpr hfive⟩

/-- Not all numbers are held: `2^63 + 1` is sent as a double that is another number, and makes the
same condition as `2^63`. -/
theorem numbers_between_doubles_meet :
    let db := Database.sample
    let j : JsonNumber := .integer 9223372036854775809
    let k : JsonNumber := .integer 9223372036854775808
    Json.read? "9223372036854775809" = some (.number j) ∧
    Json.read? "9223372036854775808" = some (.number k) ∧ j.units ≠ k.units ∧
    (∃ x : FiniteDouble, (ofJson db (.number j)).encode = .ok (.double (.finite x)) ∧
      x.units ≠ j.units) ∧
    ∃ f, Filter.condition (.string "n") (.string "==") (ofJson db (.number j)) = .ok f ∧
      Filter.condition (.string "n") (.string "==") (ofJson db (.number k)) = .ok f := by
  intro db j k
  have hread : ∀ (text : String) (n : JsonNumber), Token.scan text.toList = [.number (some n)] →
      Json.read? text = some (.number n) := by
    intro text n h
    rw [Json.read?, Json.readWritten?, h]
    rfl
  have hencode : ∀ n : JsonNumber, n.toValue = .double (.finite .beyondInt64) →
      (ofJson db (.number n)).encode = .ok (.double (.finite .beyondInt64)) := by
    intro n hn
    have hwide : (Double.finite .beyondInt64).toInt64? = none := by decide +kernel
    rw [ofJson, hn, encode, hwide]
  have hvalue : ∀ n : Int, int64? n = none → Double.ofInt n = .finite .beyondInt64 →
      (JsonNumber.integer n).toValue = .double (.finite .beyondInt64) := by
    intro n hn hx
    simp only [JsonNumber.toValue, JsonNumber.toInt64?, hn, JsonNumber.toDouble, hx]
  have hj := hencode j (hvalue _ (by decide) (by decide +kernel))
  have hk := hencode k (hvalue _ (by decide) (by decide +kernel))
  have hne : j.units ≠ k.units := fun h => absurd (eq_of_mul_unitsPerOne h) (by decide)
  have hjFits : j.Fits := ⟨by decide, by decide⟩
  have hkFits : k.Fits := ⟨by decide, by decide⟩
  refine ⟨hread _ _ (by decide +kernel), hread _ _ (by decide +kernel), hne,
    ⟨.beyondInt64, hj, ?_⟩, _, condition_number db hjFits hj "n" .equal rfl,
    condition_number db hkFits hk "n" .equal rfl⟩
  rw [FiniteDouble.units_beyondInt64]
  exact hne.symm

end Value

end DocStore
