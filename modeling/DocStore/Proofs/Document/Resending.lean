import DocStore.Proofs.Document.Strictness
import DocStore.Proofs.Time.Reach
import DocStore.Proofs.Value.Sameness

/-!
# Sending back what was read

A decoded scalar can be encoded again, and the decoder takes what comes out, unless
the offset of a text carried its instant out of the years 0 to 9999: such an instant
is written with a sign before its year, and this is no RFC 3339 text. Main statement:
these timestamps are the only scalars that cannot be sent back, and they come from
the first and the last day that a text can have.
-/

set_option autoImplicit false

namespace DocStore

theorem Value.same_norm {v : Value} (h : v.IsScalar) : v.Same v.norm := by
  cases v with
  | null => exact .null
  | boolean b => exact .boolean b
  | integer n => exact .number rfl rfl
  | double x =>
    match x with
    | .nan => exact .nan
    | .infinity negative => exact .number rfl rfl
    | .finite x =>
      by_cases hwhole : ∃ n : Int64, x.units = n.toInt * unitsPerOne
      · obtain ⟨n, hn⟩ := hwhole
        rw [norm_finite_of_units hn]
        exact .number (congrArg (fun u => some (Amount.units u)) hn) rfl
      · rw [norm_finite_of_ne (not_exists.mp hwhole)]
        exact .number rfl rfl
  | string s => exact .string s
  | timestamp t => exact .timestamp t
  | reference r => exact .reference rfl
  | array items => exact h.elim
  | map entries => exact h.elim

/-- Of the decoded scalars only timestamps can be unfit to be read once more. -/
theorem portable_of_decodeValue {db : Database} {field : String} {raw : Json} {v : Value}
    (h : decodeValue db field raw = .ok v) (hv : v.IsScalar) :
    v.Portable db ∨
      ∃ t : Timestamp, v = .timestamp t ∧ ¬ (0 ≤ t.date.year ∧ t.date.year ≤ 9999) := by
  cases v with
  | null => exact Or.inl .null
  | boolean b => exact Or.inl (.boolean b)
  | integer n => exact Or.inl (.integer n)
  | double x => exact Or.inl (.double x)
  | string s => exact Or.inl (.string s)
  | timestamp t =>
    by_cases hyear : 0 ≤ t.date.year ∧ t.date.year ≤ 9999
    · exact Or.inl (.timestamp hyear)
    · exact Or.inr ⟨t, rfl, hyear⟩
  | reference r =>
    obtain ⟨name, -, hname⟩ := decodeValue_eq_reference_iff.mp h
    obtain ⟨rest, -, -, rfl⟩ := Database.referenceFromName?_eq_some_iff.mp hname
    exact Or.inl (.reference rfl)
  | array items => exact hv.elim
  | map entries => exact hv.elim

theorem decodeValue_render_of_year {t : Timestamp}
    (h : ¬ (0 ≤ t.date.year ∧ t.date.year ≤ 9999)) (db : Database) (field : String) :
    decodeValue db field (.obj [("timestampValue", .str t.render)]) =
      .error (.invalidTimestamp t.render) := by
  show (decodeTimestamp t.render).map Value.timestamp = _
  simp only [decodeTimestamp, Timestamp.read?_render_eq_none h, Except.map]

/-- The texts of these timestamps have the first or the last year of four digits and an offset that
leads out of it. -/
theorem Timestamp.text_of_year {text : String} {t : Timestamp} (h : read? text = some t)
    (hyear : ¬ (0 ≤ t.date.year ∧ t.date.year ≤ 9999)) :
    ∃ zone offset, zone <:+ text.toList ∧ readOffset? zone = some offset ∧
      ((digitsValue (text.toList.take 4) = 0 ∧ 0 < offset ∧ t.date.year = -1) ∨
        (digitsValue (text.toList.take 4) = 9999 ∧ offset < 0 ∧ t.date.year = 10000)) := by
  obtain ⟨zone, offset, hzone, hoffset, hlt, hyears⟩ := year_of_read? h
  refine ⟨zone, offset, hzone, hoffset, ?_⟩
  omega

/-- Every scalar that is decoded can be encoded again, and what comes out is decoded to the same
value, a whole double to the integer, by any name in errors. The one exception are timestamps
outside the years 0 to 9999, which are refused; their texts have the year 0000 with an offset ahead
of UTC or the year 9999 with one behind it. -/
theorem decoded_scalars_resend (db : Database) :
    (∀ field raw v, decodeValue db field raw = .ok v → v.IsScalar →
      ∃ s, v.encode = .ok s ∧ v.Same v.norm ∧
        ((∀ field', decodeValue db field' s.toJson = .ok v.norm) ∨
          ∃ t : Timestamp, v = .timestamp t ∧ ¬ (0 ≤ t.date.year ∧ t.date.year ≤ 9999) ∧
            ∀ field', decodeValue db field' s.toJson = .error (.invalidTimestamp t.render))) ∧
    ∀ text t, Timestamp.read? text = some t → ¬ (0 ≤ t.date.year ∧ t.date.year ≤ 9999) →
      ∃ zone offset, zone <:+ text.toList ∧ Timestamp.readOffset? zone = some offset ∧
        ((digitsValue (text.toList.take 4) = 0 ∧ 0 < offset ∧ t.date.year = -1) ∨
          (digitsValue (text.toList.take 4) = 9999 ∧ offset < 0 ∧ t.date.year = 10000)) := by
  refine ⟨?_, fun text t => Timestamp.text_of_year⟩
  intro field raw v h hv
  rcases portable_of_decodeValue h hv with hportable | ⟨t, rfl, hyear⟩
  · obtain ⟨s, hs, hwire⟩ := Value.encode_eq_ok_of_isScalar hv
    refine ⟨s, hs, Value.same_norm hv, Or.inl fun field' => ?_⟩
    rw [hwire]
    exact decodeValue_wire hportable.norm field'
  · exact ⟨.timestamp t, rfl, Value.same_norm hv, Or.inr ⟨t, rfl, hyear,
      fun field' => decodeValue_render_of_year hyear db field'⟩⟩

/-- A leap second named with an offset, a double that is whole, and a text of the first day. -/
theorem decoded_scalars_resend_offsets :
    let sent (v : Value) : Prop := ∃ s, v.encode = .ok s ∧
      ∀ field, decodeValue Database.sample field s.toJson = .ok v.norm
    sent (.timestamp .leapSecond) ∧ sent (.double (.finite (.zero true))) ∧
      ∃ zone offset, zone <:+ "0000-01-01T00:00:00+00:01".toList ∧
        Timestamp.readOffset? zone = some offset ∧ 0 < offset := by
  intro sent
  obtain ⟨hscalars, htexts⟩ := decoded_scalars_resend Database.sample
  have hleap : Timestamp.read? "2017-01-01t00:59:60.5+01:00" = some .leapSecond := by decide
  have hfirst : Timestamp.read? "0000-01-01T00:00:00+00:01" =
      some ⟨-62167219260, 0, by decide, by decide⟩ := by decide
  refine ⟨?_, ?_, ?_⟩
  · obtain ⟨s, hs, -, hread | ⟨t, ht, hyear, -⟩⟩ :=
      hscalars "f" _ _ (decodeValue_eq_timestamp_iff.mpr ⟨_, rfl, hleap⟩) trivial
    · exact ⟨s, hs, hread⟩
    · cases ht
      exact absurd (by decide) hyear
  · obtain ⟨s, hs, -, hread | ⟨t, ht, -⟩⟩ := hscalars "f"
      (.obj [("doubleValue", .number (.double (.zero true)))]) _ rfl trivial
    · exact ⟨s, hs, hread⟩
    · cases ht
  · obtain ⟨zone, offset, hzone, hoffset, ⟨-, hahead, -⟩ | ⟨hlast, -⟩⟩ :=
      htexts _ _ hfirst (by decide)
    · exact ⟨zone, offset, hzone, hoffset, hahead⟩
    · exact absurd hlast (by decide)

/-- The beginning of the first year in a zone ahead of UTC, and the leap second at the end of the
last one in a zone behind it: both are decoded, and what they are encoded to is not. -/
theorem first_and_last_day_not_resent :
    let typed (text : String) : Json := .obj [("timestampValue", .str text)]
    ∃ first last : Timestamp,
      (decodeValue Database.sample "f" (typed "0000-01-01T00:00:00+00:01") =
          .ok (.timestamp first) ∧
        (Value.timestamp first).encode = .ok (.timestamp first) ∧
        (Scalar.timestamp first).toJson = typed "-0001-12-31T23:59:00Z" ∧
        ∀ field, decodeValue Database.sample field (typed "-0001-12-31T23:59:00Z") =
          .error (.invalidTimestamp "-0001-12-31T23:59:00Z")) ∧
      (decodeValue Database.sample "f" (typed "9999-12-31T23:59:60.5-00:01") =
          .ok (.timestamp last) ∧
        (Value.timestamp last).encode = .ok (.timestamp last) ∧
        (Scalar.timestamp last).toJson = typed "+10000-01-01T00:00:60.500Z" ∧
        ∀ field, decodeValue Database.sample field (typed "+10000-01-01T00:00:60.500Z") =
          .error (.invalidTimestamp "+10000-01-01T00:00:60.500Z")) := by
  intro typed
  let first : Timestamp := ⟨-62167219260, 0, by decide, by decide⟩
  let last : Timestamp := ⟨253402300859, 1500000000, by decide, by decide⟩
  have hfirst : first.render = "-0001-12-31T23:59:00Z" := by decide
  have hlast : last.render = "+10000-01-01T00:00:60.500Z" := by decide
  refine ⟨first, last, ⟨?_, rfl, ?_, ?_⟩, ⟨?_, rfl, ?_, ?_⟩⟩
  · exact decodeValue_eq_timestamp_iff.mpr ⟨_, rfl, by decide⟩
  · rw [← hfirst]
    rfl
  · rw [← hfirst]
    exact decodeValue_render_of_year (by decide) Database.sample
  · exact decodeValue_eq_timestamp_iff.mpr ⟨_, rfl, by decide⟩
  · rw [← hlast]
    rfl
  · rw [← hlast]
    exact decodeValue_render_of_year (by decide) Database.sample

end DocStore
