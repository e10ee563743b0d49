import DocStore.Proofs.Json.Equality
import DocStore.Proofs.Path.Identity
import DocStore.Proofs.Time.Texts
import DocStore.Proofs.Value.Encoding

/-!
# What the encoder tells apart

Integers and doubles meet on the wire: a double that is a whole number of 64 bits
is sent as that integer, digit for digit. So numbers count by their exact amount,
in units of which `2^1074` make one, whatever their type; references count by
their names, and NaN counts as one value. Main statement: scalars are encoded
alike exactly if they are the same in this sense, as the program compares them
and as the wire shows them.
-/

set_option autoImplicit false

namespace DocStore

theorem intString_injective {m n : Int} (h : intString m = intString n) : m = n := by
  have hread := readInt?_intText m
  rw [String.ofList_injective h, readInt?_intText, Option.some.injEq] at hread
  exact hread.symm

theorem intString_eq_toString (n : Int) : intString n = toString n := by
  have hnat : ∀ k : Nat, String.ofList (natText k) = toString k := by
    intro k
    rw [natText, Nat.toString_eq_repr, Nat.repr]
  by_cases hn : n < 0
  · obtain ⟨k, rfl⟩ := Int.eq_negSucc_of_lt_zero hn
    rw [intString, intText, if_pos hn, String.ofList_cons, Int.natAbs_negSucc, hnat]
    rfl
  · obtain ⟨k, rfl⟩ := Int.eq_ofNat_of_zero_le (Int.not_lt.mp hn)
    rw [intString, intText, if_neg hn, Int.natAbs_natCast, hnat]
    rfl

theorem Tag.name_injective {t u : Tag} (h : t.name = u.name) : t = u := by
  have hread := ofName?_name t
  rw [h, ofName?_name, Option.some.injEq] at hread
  exact hread.symm

theorem Tag.toJson_inj {t u : Tag} {j k : Json} : t.toJson j = u.toJson k ↔ t = u ∧ j = k := by
  simp only [toJson, Json.obj.injEq, List.cons.injEq, Prod.mk.injEq, and_true]
  exact and_congr_left fun _ => ⟨name_injective, congrArg name⟩

theorem Double.toWireJson_injective {x y : Double} (h : x.toWireJson = y.toWireJson) : x = y := by
  match x, y with
  | .finite x, .finite y =>
    simp only [toWireJson, Json.number.injEq, JsonNumber.double.injEq] at h
    rw [h]
  | .nan, .nan | .infinity false, .infinity false | .infinity true, .infinity true => rfl
  | .finite _, .nan | .finite _, .infinity false | .finite _, .infinity true | .nan, .finite _
  | .nan, .infinity false | .nan, .infinity true | .infinity false, .finite _
  | .infinity false, .nan | .infinity false, .infinity true | .infinity true, .finite _
  | .infinity true, .nan | .infinity true, .infinity false => simp [toWireJson] at h

theorem Scalar.toJson_injective {s t : Scalar} (h : s.toJson = t.toJson) : s = t := by
  cases s with
  | null =>
    cases t with
    | null => rfl
    | _ => cases (Tag.toJson_inj.mp h).1
  | boolean b =>
    cases t with
    | boolean b' => rw [Json.bool.inj (Tag.toJson_inj.mp h).2]
    | _ => cases (Tag.toJson_inj.mp h).1
  | integer n =>
    cases t with
    | integer m =>
      have hvalue := intString_injective (Json.str.inj (Tag.toJson_inj.mp h).2)
      rw [Int64.toInt_inj.mp hvalue]
    | _ => cases (Tag.toJson_inj.mp h).1
  | double x =>
    cases t with
    | double y => rw [Double.toWireJson_injective (Tag.toJson_inj.mp h).2]
    | _ => cases (Tag.toJson_inj.mp h).1
  | timestamp time =>
    cases t with
    | timestamp time' => rw [Timestamp.render_injective (Json.str.inj (Tag.toJson_inj.mp h).2)]
    | _ => cases (Tag.toJson_inj.mp h).1
  | string s =>
    cases t with
    | string s' => rw [Json.str.inj (Tag.toJson_inj.mp h).2]
    | _ => cases (Tag.toJson_inj.mp h).1
  | reference name =>
    cases t with
    | reference name' => rw [Json.str.inj (Tag.toJson_inj.mp h).2]
    | _ => cases (Tag.toJson_inj.mp h).1

def Scalar.IsNormal (s : Scalar) : Prop := ∀ x, s = .double x → x.toInt64? = none

theorem Value.encode_isNormal {v : Value} {s : Scalar} (h : v.encode = .ok s) : s.IsNormal := by
  rintro x rfl
  cases v with
  | double y =>
    rw [encode] at h
    split at h
    · cases h
    · next hy =>
      cases h
      exact hy
  | _ => cases h

theorem FiniteDouble.units_ne_zero {x : FiniteDouble} (h : (Double.finite x).toInt64? = none) :
    x.units ≠ 0 := by
  intro hzero
  have hwhole : (Double.finite x).toInt64? = some 0 := by
    rw [Double.toInt64?_finite_eq_some_iff, hzero]
    exact (Int.zero_mul _).symm
  rw [h] at hwhole
  cases hwhole

/-- Among doubles that are sent as such, none is equal to another as a number. -/
theorem Double.equals_or_nan_iff {x y : Double} (h : x.toInt64? = none) :
    (x.equals y || (x.isNaN && y.isNaN)) = true ↔ x = y := by
  match x, y with
  | .finite x, .finite y =>
    have hunits : x.units = y.units ↔ x = y :=
      ⟨fun hu => FiniteDouble.eq_of_units hu (FiniteDouble.units_ne_zero h), congrArg _⟩
    simpa [equals, isNaN] using hunits
  | .infinity _, .infinity _ | .nan, .nan | .finite _, .nan | .finite _, .infinity _
  | .nan, .finite _ | .nan, .infinity _ | .infinity _, .finite _ | .infinity _, .nan =>
    simp [equals, isNaN]

theorem Scalar.IsNormal.equals_iff {s t : Scalar} (h : s.IsNormal) :
    s.equals t = true ↔ s = t := by
  cases s with
  | double x =>
    cases t with
    | double y => simpa [equals] using Double.equals_or_nan_iff (h x rfl)
    | _ => simp [equals]
  | _ => simp [equals]

inductive Amount where
  | units (n : Int)
  | infinity (negative : Bool)
  deriving DecidableEq

namespace Value

def amount? : Value → Option Amount
  | integer n => some (.units (n.toInt * unitsPerOne))
  | double (.finite x) => some (.units x.units)
  | double (.infinity negative) => some (.infinity negative)
  | _ => none

inductive Same : Value → Value → Prop
  | null : Same null null
  | boolean (b : Bool) : Same (boolean b) (boolean b)
  | string (s : String) : Same (string s) (string s)
  | timestamp (t : Timestamp) : Same (timestamp t) (timestamp t)
  | nan : Same (double .nan) (double .nan)
  | number {v w : Value} {x : Amount} (hv : v.amount? = some x) (hw : w.amount? = some x) :
      Same v w
  | reference {r s : Reference} (h : r.name = s.name) : Same (reference r) (reference s)

theorem encode_of_whole {v : Value} {n : Int64}
    (h : v.amount? = some (.units (n.toInt * unitsPerOne))) : v.encode = .ok (.integer n) := by
  cases v with
  | integer m =>
    have hunits : m.toInt * unitsPerOne = n.toInt * unitsPerOne :=
      Amount.units.inj (Option.some.inj h)
    rw [encode, Int64.toInt_inj.mp (eq_of_mul_unitsPerOne hunits)]
  | double x =>
    cases x with
    | finite x =>
      have hunits : x.units = n.toInt * unitsPerOne := Amount.units.inj (Option.some.inj h)
      rw [encode, Double.toInt64?_finite_eq_some_iff.mpr hunits]
    | nan => cases h
    | infinity _ => cases Option.some.inj h
  | _ => cases h

theorem exists_finite_of_amount {v : Value} {u : Int} (h : v.amount? = some (.units u))
    (hu : ∀ n : Int64, u ≠ n.toInt * unitsPerOne) : ∃ x, v = double (.finite x) ∧ x.units = u := by
  cases v with
  | integer m => exact absurd (Amount.units.inj (Option.some.inj h)).symm (hu m)
  | double x =>
    cases x with
    | finite x => exact ⟨x, rfl, Amount.units.inj (Option.some.inj h)⟩
    | nan => cases h
    | infinity _ => cases Option.some.inj h
  | _ => cases h

theorem eq_infinity_of_amount {v : Value} {negative : Bool}
    (h : v.amount? = some (.infinity negative)) : v = double (.infinity negative) := by
  cases v with
  | integer _ => cases Option.some.inj h
  | double x =>
    cases x with
    | infinity b => rw [Amount.infinity.inj (Option.some.inj h)]
    | nan => cases h
    | finite _ => cases Option.some.inj h
  | _ => cases h

theorem encode_congr_of_amount {v w : Value} {x : Amount} (hv : v.amount? = some x)
    (hw : w.amount? = some x) : v.encode = w.encode := by
  cases x with
  | infinity negative => rw [eq_infinity_of_amount hv, eq_infinity_of_amount hw]
  | units u =>
    -- Zero is whole, so beyond the whole amounts a double is known by its number.
    by_cases hwhole : ∃ n : Int64, u = n.toInt * unitsPerOne
    · obtain ⟨n, rfl⟩ := hwhole
      rw [encode_of_whole hv, encode_of_whole hw]
    · have hu : ∀ n : Int64, u ≠ n.toInt * unitsPerOne := not_exists.mp hwhole
      obtain ⟨y, rfl, hy⟩ := exists_finite_of_amount hv hu
      obtain ⟨z, rfl, hz⟩ := exists_finite_of_amount hw hu
      have hne : y.units ≠ 0 := by
        rw [hy]
        intro hzero
        exact hu 0 (hzero.trans (Int.zero_mul _).symm)
      rw [FiniteDouble.eq_of_units (hy.trans hz.symm) hne]

theorem Same.encode_eq {v w : Value} (h : v.Same w) : v.encode = w.encode := by
  cases h with
  | number hv hw => exact encode_congr_of_amount hv hw
  | reference h => rw [encode, encode, h]
  | _ => rfl

end Value

def Scalar.Denotes : Scalar → Value → Prop
  | null, v => v = .null
  | boolean b, v => v = .boolean b
  | integer n, v => v.amount? = (Value.integer n).amount?
  | double .nan, v => v = .double .nan
  | double x, v => v.amount? = (Value.double x).amount?
  | timestamp t, v => v = .timestamp t
  | string s, v => v = .string s
  | reference name, v => ∃ r : Reference, v = .reference r ∧ r.name = name

theorem Scalar.denotes_of_encode {v : Value} {s : Scalar} (h : v.encode = .ok s) :
    s.Denotes v := by
  cases v with
  | double x =>
    rw [Value.encode] at h
    split at h
    · next n hn =>
      cases h
      cases x with
      | finite x =>
        exact congrArg (fun u => some (Amount.units u)) (Double.toInt64?_finite_eq_some_iff.mp hn)
      | _ => cases hn
    · cases h
      cases x <;> rfl
  | reference r =>
    cases h
    exact ⟨r, rfl, rfl⟩
  | array items => cases h
  | map entries => cases h
  | _ =>
    cases h
    rfl

theorem Scalar.Denotes.same {s : Scalar} {v w : Value} (hv : s.Denotes v) (hw : s.Denotes w) :
    v.Same w := by
  match s with
  | .null =>
    rw [hv, hw]
    exact .null
  | .boolean b =>
    rw [hv, hw]
    exact .boolean b
  | .timestamp t =>
    rw [hv, hw]
    exact .timestamp t
  | .string s =>
    rw [hv, hw]
    exact .string s
  | .double .nan =>
    rw [hv, hw]
    exact .nan
  | .integer _ | .double (.finite _) | .double (.infinity _) => exact .number hv hw
  | .reference _ =>
    obtain ⟨r, rfl, hr⟩ := hv
    obtain ⟨r', rfl, hr'⟩ := hw
    exact .reference (hr.trans hr'.symm)

namespace Value

theorem encode_eq_iff_same {a b : Value} (ha : a.IsScalar) : a.encode = b.encode ↔ a.Same b := by
  constructor
  · intro h
    obtain ⟨s, hs⟩ := exists_encode_iff.mpr ha
    exact (Scalar.denotes_of_encode hs).same (Scalar.denotes_of_encode (h ▸ hs))
  · exact Same.encode_eq

theorem same_of_equals {a b : Value} (ha : a.IsScalar) (h : (a == b) = true) : a.Same b := by
  have hequals : a.equals b = true := h
  match a, b with
  | .null, .null => exact .null
  | .boolean x, .boolean y => exact of_decide_eq_true hequals ▸ .boolean x
  | .integer x, .integer y =>
    rw [of_decide_eq_true hequals]
    exact .number rfl rfl
  | .string x, .string y => exact of_decide_eq_true hequals ▸ .string x
  | .timestamp x, .timestamp y => exact of_decide_eq_true hequals ▸ .timestamp x
  | .double (.finite x), .double (.finite y) =>
    have hunits : x.units = y.units := of_decide_eq_true hequals
    exact .number (congrArg (fun u => some (Amount.units u)) hunits) rfl
  | .double (.infinity x), .double (.infinity y) =>
    have hsign : x = y := of_decide_eq_true hequals
    rw [hsign]
    exact .number rfl rfl
  | .double .nan, w => cases w <;> cases hequals
  | .reference r, .reference s =>
    have hdatabase := (Reference.beq_iff.mp hequals).2
    exact .reference ((Reference.beq_iff_name_eq hdatabase).mp hequals)
  | .array _, _ | .map _, _ => exact ha.elim

theorem encode_eq_of_equals {a b : Value} (h : (a == b) = true) : a.encode = b.encode := by
  by_cases ha : a.IsScalar
  · exact (same_of_equals ha h).encode_eq
  · have hequals : a.equals b = true := h
    match a, b with
    | .array _, .array _ | .map _, .map _ => rfl
    | .null, _ | .boolean _, _ | .integer _, _ | .double _, _ | .string _, _ | .timestamp _, _
    | .reference _, _ => exact absurd trivial ha

/-- A value is sent as an integer exactly if its amount is one of 64 bits, and in its decimal
form. -/
theorem encode_integer_iff {v : Value} {digits : String} :
    (∃ s, v.encode = .ok s ∧ s.toJson = .obj [("integerValue", .str digits)]) ↔
      ∃ n : Int, -9223372036854775808 ≤ n ∧ n < 9223372036854775808 ∧
        v.amount? = some (.units (n * unitsPerOne)) ∧ digits = toString n := by
  have hform : Json.obj [("integerValue", .str digits)] = Tag.integer.toJson (.str digits) := rfl
  constructor
  · rintro ⟨s, hs, hj⟩
    have hdenotes := Scalar.denotes_of_encode hs
    obtain ⟨k, rfl⟩ : ∃ k, s = .integer k := by
      cases s with
      | integer k => exact ⟨k, rfl⟩
      | _ => cases (Tag.toJson_inj.mp (hj.trans hform)).1
    have hdigits : intString k.toInt = digits :=
      Json.str.inj (Tag.toJson_inj.mp (hj.trans hform)).2
    exact ⟨k.toInt, Int64.minValue_le_toInt k, Int64.toInt_lt k, hdenotes,
      hdigits.symm.trans (intString_eq_toString _)⟩
  · rintro ⟨n, hmin, hmax, hn, rfl⟩
    have hvalue : (Int64.ofInt n).toInt = n := Int64.toInt_ofInt_of_le hmin hmax
    rw [← hvalue] at hn
    refine ⟨_, encode_of_whole hn, ?_⟩
    rw [Scalar.toJson, hvalue, intString_eq_toString]
    rfl

/-- The encoder refuses arrays and maps and nothing else, in a list at the first one. Of the other
values it identifies those that are the same and no others; a double is sent as an integer exactly
if it is one that 64 bits hold. Values that are equal are encoded alike. -/
theorem encode_tells_values_apart :
    (∀ (v : Value) (e : ValueError),
      v.encode = .error e ↔ ¬ v.IsScalar ∧ e = .unsupported v.kind) ∧
    (∀ (items : List Value) (e : ValueError), encodeArray items = .error e ↔
      ∃ before item after, items = before ++ item :: after ∧ (∀ b ∈ before, b.IsScalar) ∧
        ¬ item.IsScalar ∧ e = .unsupported item.kind) ∧
    (∀ a b : Value, a.IsScalar → b.IsScalar → (a.encode = b.encode ↔ a.Same b)) ∧
    (∀ (a b : Value) (s t : Scalar), a.encode = .ok s → b.encode = .ok t →
      (s.equals t = true ↔ a.Same b) ∧ (s.toJson = t.toJson ↔ a.Same b)) ∧
    (∀ (x : Double) (digits : String),
      (∃ s, (double x).encode = .ok s ∧ s.toJson = .obj [("integerValue", .str digits)]) ↔
        ∃ n : Int, -9223372036854775808 ≤ n ∧ n < 9223372036854775808 ∧
          (double x).amount? = some (.units (n * unitsPerOne)) ∧ digits = toString n) ∧
    ∀ a b : Value, (a == b) = true → a.encode = b.encode := by
  refine ⟨fun _ _ => encode_eq_error_iff, fun _ _ => encodeArray_eq_error_iff,
    fun _ _ ha _ => encode_eq_iff_same ha, ?_, fun _ _ => encode_integer_iff,
    fun _ _ => encode_eq_of_equals⟩
  intro a b s t hs ht
  have hsame : s = t ↔ a.Same b := by
    rw [← encode_eq_iff_same (exists_encode_iff.mp ⟨s, hs⟩), hs, ht, Except.ok.injEq]
  have hjson : s.toJson = t.toJson ↔ s = t := ⟨Scalar.toJson_injective, congrArg Scalar.toJson⟩
  exact ⟨(encode_isNormal hs).equals_iff.trans hsame, hjson.trans hsame⟩

/-- Zero below zero is zero, `2^53 + 1` is not rounded to `2^53`, and `-2^63` has its digits. -/
theorem encode_tells_values_apart_bounds :
    let large : Double := .finite ⟨false, twoPow 52, 1075, by decide⟩
    let least : Double := .finite ⟨true, twoPow 52, 1085, by decide⟩
    (integer 0).encode = (double (.finite (.zero true))).encode ∧
      (integer 9007199254740993).encode ≠ (double large).encode ∧
      (integer 9007199254740992).encode = (double large).encode ∧
      (∃ s, (double least).encode = .ok s ∧
        s.toJson = .obj [("integerValue", .str "-9223372036854775808")]) ∧
      (Scalar.double .nan).equals (.double .nan) = true ∧
      encodeArray [integer 1, map [], array []] = .error (.unsupported "map") := by
  intro large least
  obtain ⟨-, hlist, hsame, hscalar, hdouble, -⟩ := encode_tells_values_apart
  have hnumber : ∀ n x, (integer n).encode = (double x).encode ↔ (integer n).Same (double x) :=
    fun n x => hsame (integer n) (double x) trivial trivial
  have hlarge : (double large).amount? = (integer 9007199254740992).amount? := by decide +kernel
  have hleast : (double least).amount? = some (.units (-9223372036854775808 * unitsPerOne)) := by
    decide +kernel
  refine ⟨(hnumber _ _).mpr (.number rfl (by decide +kernel)), ?_,
    (hnumber _ _).mpr (.number rfl hlarge),
    (hdouble _ _).mpr ⟨_, by decide, by decide, hleast, rfl⟩,
    (hscalar _ _ _ _ rfl rfl).1.mpr .nan,
    (hlist _ _).mpr ⟨[integer 1], map [], [array []], rfl, by simp [IsScalar], id, rfl⟩⟩
  rw [Ne, hnumber]
  intro h
  cases h with
  | number hv hw =>
    rw [hlarge, ← hv] at hw
    exact absurd hw (by decide +kernel)

end Value

end DocStore
