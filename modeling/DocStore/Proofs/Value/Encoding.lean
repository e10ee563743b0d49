import DocStore.Proofs.Value.Wire
import DocStore.Value.Scalar

/-!
# Encoded scalars read back

A scalar does not always come back as it was: a double that is a whole number of
64 bits is sent as that integer. The normal form says so in terms of the exact
value, and an encoded scalar is the wire form of the normal form. Main statement:
what was encoded, one by one or as a list, is decoded to its normal form.
-/

set_option autoImplicit false

namespace DocStore

theorem unitsPerOne_pos : 0 < unitsPerOne := twoPow_pos 1074

theorem eq_of_mul_unitsPerOne {m n : Int} (h : m * unitsPerOne = n * unitsPerOne) : m = n := by
  have hpos := unitsPerOne_pos
  exact Int.eq_of_mul_eq_mul_right (by omega) h

/-- The whole numbers among the doubles are the multiples of one. -/
theorem FiniteDouble.toInt?_eq_some_iff {x : FiniteDouble} {n : Int} :
    x.toInt? = some n ↔ x.units = n * unitsPerOne := by
  have hpos := unitsPerOne_pos
  constructor
  · intro h
    by_cases hm : x.magnitude % unitsPerOne = 0
    · have hdiv : ((x.magnitude / unitsPerOne : Nat) : Int) * unitsPerOne = x.magnitude := by
        rw [← Int.natCast_mul, Nat.div_mul_cancel (Nat.dvd_of_mod_eq_zero hm)]
      rw [toInt?, if_pos hm, Option.some.injEq] at h
      rw [← h, units]
      split
      · rw [Int.neg_mul, hdiv]
      · exact hdiv.symm
    · rw [toInt?, if_neg hm] at h
      exact absurd h (by simp)
  · intro h
    have hmag : x.magnitude = n.natAbs * unitsPerOne := by
      rw [← x.natAbs_units, h, Int.natAbs_mul, Int.natAbs_natCast]
    have hmod : x.magnitude % unitsPerOne = 0 := by rw [hmag, Nat.mul_mod_left]
    have hdiv : x.magnitude / unitsPerOne = n.natAbs := by
      rw [hmag, Nat.mul_div_cancel _ hpos]
    have hn : (if x.negative then -(n.natAbs : Int) else n.natAbs) * unitsPerOne =
        n * unitsPerOne := by
      rw [← h, units, hmag]
      split
      · rw [Int.natCast_mul, Int.neg_mul]
      · rw [Int.natCast_mul]
    simp only [toInt?, if_pos hmod, hdiv, eq_of_mul_unitsPerOne hn]

theorem Double.toInt64?_finite_eq_some_iff {x : FiniteDouble} {n : Int64} :
    (Double.finite x).toInt64? = some n ↔ x.units = n.toInt * unitsPerOne := by
  have hbind : (Double.finite x).toInt64? = x.toInt?.bind int64? := by
    have htoInt : (Double.finite x).toInt? = x.toInt? := rfl
    rw [toInt64?, htoInt]
    cases x.toInt? <;> rfl
  rw [hbind, Option.bind_eq_some_iff, ← FiniteDouble.toInt?_eq_some_iff]
  constructor
  · rintro ⟨k, hk, hn⟩
    rw [hk, int64?_eq_some_iff.mp hn]
  · intro h
    exact ⟨n.toInt, h, int64?_toInt n⟩

namespace Value

def IsScalar : Value → Prop
  | array _ => False
  | map _ => False
  | _ => True

def norm : Value → Value
  | double (.finite x) =>
    if x.units % unitsPerOne = 0 ∧ -9223372036854775808 ≤ x.units / unitsPerOne ∧
        x.units / unitsPerOne < 9223372036854775808 then
      integer (.ofInt (x.units / unitsPerOne))
    else double (.finite x)
  | v => v

theorem norm_finite_of_units {x : FiniteDouble} {n : Int64}
    (h : x.units = n.toInt * unitsPerOne) : (double (.finite x)).norm = integer n := by
  have hpos := unitsPerOne_pos
  have hdiv : x.units / unitsPerOne = n.toInt := by
    rw [h, Int.mul_ediv_cancel _ (by omega)]
  have hmod : x.units % unitsPerOne = 0 := by rw [h, Int.mul_emod_left]
  have hmin : (-9223372036854775808 : Int) ≤ n.toInt := Int64.minValue_le_toInt n
  have hmax : n.toInt < (9223372036854775808 : Int) := Int64.toInt_lt n
  rw [norm, hdiv, if_pos ⟨hmod, hmin, hmax⟩, Int64.ofInt_toInt]

theorem norm_finite_of_ne {x : FiniteDouble}
    (h : ∀ n : Int64, x.units ≠ n.toInt * unitsPerOne) :
    (double (.finite x)).norm = double (.finite x) := by
  rw [norm, if_neg]
  rintro ⟨hmod, hmin, hmax⟩
  apply h (.ofInt (x.units / unitsPerOne))
  have hn : (Int64.ofInt (x.units / unitsPerOne)).toInt = x.units / unitsPerOne :=
    Int64.toInt_ofInt_of_le hmin hmax
  rw [hn, Int.ediv_mul_cancel (Int.dvd_of_emod_eq_zero hmod)]

theorem encode_eq_ok_of_isScalar {v : Value} (h : v.IsScalar) :
    ∃ s, v.encode = .ok s ∧ s.toJson = v.norm.wire := by
  cases v with
  | null => exact ⟨.null, rfl, rfl⟩
  | boolean b => exact ⟨.boolean b, rfl, rfl⟩
  | integer n => exact ⟨.integer n, rfl, rfl⟩
  | double x =>
    match x with
    | .nan => exact ⟨.double .nan, rfl, rfl⟩
    | .infinity false => exact ⟨.double (.infinity false), rfl, rfl⟩
    | .infinity true => exact ⟨.double (.infinity true), rfl, rfl⟩
    | .finite x =>
      cases hx : (Double.finite x).toInt64? with
      | some n =>
        have hn := norm_finite_of_units (Double.toInt64?_finite_eq_some_iff.mp hx)
        refine ⟨.integer n, ?_, ?_⟩
        · simp only [encode, hx]
        · rw [hn]
          rfl
      | none =>
        have hn : (double (.finite x)).norm = double (.finite x) := by
          apply norm_finite_of_ne
          intro n hu
          rw [Double.toInt64?_finite_eq_some_iff.mpr hu] at hx
          cases hx
        refine ⟨.double (.finite x), ?_, ?_⟩
        · simp only [encode, hx]
        · rw [hn]
          rfl
  | string s => exact ⟨.string s, rfl, rfl⟩
  | timestamp t => exact ⟨.timestamp t, rfl, rfl⟩
  | reference r => exact ⟨.reference r.name, rfl, rfl⟩
  | array items => exact h.elim
  | map entries => exact h.elim

theorem exists_encode_iff {v : Value} : (∃ s, v.encode = .ok s) ↔ v.IsScalar := by
  constructor
  · rintro ⟨s, hs⟩
    cases v with
    | array items => cases hs
    | map entries => cases hs
    | _ => trivial
  · intro hv
    obtain ⟨s, hs, -⟩ := encode_eq_ok_of_isScalar hv
    exact ⟨s, hs⟩

theorem exists_encodeArray_iff {items : List Value} :
    (∃ ss, encodeArray items = .ok ss) ↔ ∀ item ∈ items, item.IsScalar := by
  rw [encodeArray, exists_collect_eq_ok_iff]
  exact forall₂_congr fun _ _ => exists_encode_iff

theorem encode_eq_error_iff {v : Value} {e : ValueError} :
    v.encode = .error e ↔ ¬ v.IsScalar ∧ e = .unsupported v.kind := by
  cases v with
  | array items => simp [encode, IsScalar, eq_comm]
  | map entries => simp [encode, IsScalar, eq_comm]
  | double x =>
    simp only [encode, IsScalar]
    split <;> simp
  | _ => simp [encode, IsScalar]

theorem encodeArray_eq_error_iff {items : List Value} {e : ValueError} :
    encodeArray items = .error e ↔
      ∃ before item after, items = before ++ item :: after ∧ (∀ b ∈ before, b.IsScalar) ∧
        ¬ item.IsScalar ∧ e = .unsupported item.kind := by
  rw [encodeArray, collect_eq_error_iff]
  simp only [encode_eq_error_iff, exists_encode_iff]

theorem Portable.norm {db : Database} {v : Value} (h : v.Portable db) : v.norm.Portable db := by
  unfold Value.norm
  split
  · split
    · exact .integer _
    · exact .double _
  · exact h

theorem encodeArray_eq_ok_of_isScalar {items : List Value} (h : ∀ v ∈ items, v.IsScalar) :
    ∃ ss, encodeArray items = .ok ss ∧ ss.map Scalar.toJson = wireItems (items.map norm) := by
  induction items with
  | nil => exact ⟨[], rfl, rfl⟩
  | cons v vs ih =>
    obtain ⟨s, hs, hj⟩ := encode_eq_ok_of_isScalar (h v (List.mem_cons_self ..))
    obtain ⟨ss, hss, hjs⟩ := ih fun w hw => h w (List.mem_cons_of_mem v hw)
    refine ⟨s :: ss, ?_, ?_⟩
    · rw [encodeArray] at hss ⊢
      simp only [collect, hs, hss]
    · rw [List.map_cons, List.map_cons, wireItems, hj, hjs]

/-- Decoding undoes encoding up to the normal form, for scalars and for lists of scalars. -/
theorem decode_encoded (db : Database) :
    (∀ v : Value, v.IsScalar → v.Portable db →
      ∃ s, v.encode = .ok s ∧ ∀ field, decodeValue db field s.toJson = .ok v.norm) ∧
    ∀ items : List Value, (∀ v ∈ items, v.IsScalar) → (∀ v ∈ items, v.Portable db) →
      ∃ ss, encodeArray items = .ok ss ∧
        ∀ field, decodeValue db field (Scalar.listToJson ss) = .ok (.array (items.map norm)) := by
  constructor
  · intro v hv hp
    obtain ⟨s, hs, hj⟩ := encode_eq_ok_of_isScalar hv
    have hread : ∀ field, decodeValue db field s.toJson = .ok v.norm := by
      intro field
      rw [hj]
      exact decodeValue_wire hp.norm field
    exact ⟨s, hs, hread⟩
  · intro items hv hp
    obtain ⟨ss, hss, hj⟩ := encodeArray_eq_ok_of_isScalar hv
    have hlist : Scalar.listToJson ss = (array (items.map norm)).wire := by
      rw [Scalar.listToJson, hj, wire]
      rfl
    have hnorm : (array (items.map norm)).Portable db := by
      apply Portable.array
      intro w hw
      obtain ⟨v, hv, rfl⟩ := List.mem_map.mp hw
      exact (hp v hv).norm
    have hread : ∀ field, decodeValue db field (Scalar.listToJson ss) =
        .ok (.array (items.map norm)) := by
      intro field
      rw [hlist]
      exact decodeValue_wire hnorm field
    exact ⟨ss, hss, hread⟩

def edgeScalars : List Value :=
  [.integer Int64.minValue, .double (.finite (.zero true)),
    .double (.finite ⟨false, twoPow 52, 1085, by decide⟩), .double (.infinity true), .double .nan,
    .timestamp .leapSecond, .reference (Database.sample.reference "users/u1")]

theorem portable_edgeScalars : ∀ v ∈ edgeScalars, v.Portable Database.sample := by
  simp only [edgeScalars, List.forall_mem_cons]
  exact ⟨.integer _, .double _, .double _, .double _, .double _, .timestamp (by decide),
    .reference rfl, by simp⟩

/-- Of the scalars at the edges only negative zero changes. -/
theorem norm_edgeScalars : edgeScalars.map norm = edgeScalars.set 1 (.integer 0) := by
  have hzero : (double (.finite (.zero true))).norm = integer 0 := by
    apply norm_finite_of_units
    rw [FiniteDouble.units_zero]
    exact (Int.zero_mul _).symm
  have hlarge : (double (.finite ⟨false, twoPow 52, 1085, by decide⟩)).norm =
      double (.finite ⟨false, twoPow 52, 1085, by decide⟩) := by
    rw [norm, if_neg]
    decide +kernel
  simp only [edgeScalars, List.map_cons, hzero, hlarge]
  rfl

theorem decode_encoded_edgeScalars :
    (∃ s, (double .nan).encode = .ok s ∧
      ∀ field, decodeValue Database.sample field s.toJson = .ok (double .nan)) ∧
    ∃ ss, encodeArray edgeScalars = .ok ss ∧
      ∀ field, decodeValue Database.sample field (Scalar.listToJson ss) =
        .ok (.array (edgeScalars.set 1 (.integer 0))) := by
  have hscalar : ∀ v ∈ edgeScalars, v.IsScalar := by
    simp [edgeScalars, IsScalar]
  have hboth := decode_encoded Database.sample
  rw [← norm_edgeScalars]
  exact ⟨hboth.1 _ trivial (.double .nan), hboth.2 edgeScalars hscalar portable_edgeScalars⟩

end Value

end DocStore
