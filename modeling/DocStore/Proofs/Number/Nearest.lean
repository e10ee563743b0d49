import DocStore.Number.Double

/-!
# Rounding to the nearest double

A quotient is rounded on a grid of the width that 53 bits of it leave. Every
double is on that grid, or else below all that has as many bits; so what is
nearest on the grid is nearest among all doubles. Main statement: rounding gives
a double to which none is nearer, with an even mantissa where another one is just
as near, and it gives one unless the quotient is beyond the largest.
-/

set_option autoImplicit false

namespace DocStore

theorem twoPow_le_twoPow {j k : Nat} (h : j ≤ k) : twoPow j ≤ twoPow k := by
  obtain ⟨i, rfl⟩ := Nat.exists_eq_add_of_le h
  rw [twoPow_add]
  exact Nat.le_mul_of_pos_right _ (twoPow_pos i)

theorem log2_lt_of_lt_twoPow {n k : Nat} (hk : 0 < k) (h : n < twoPow k) : n.log2 < k := by
  by_cases hn : n = 0
  · rw [hn]
    exact hk
  · exact (Nat.log2_lt hn).mpr h

theorem divNearest_eq (n d : Nat) : divNearest n d = n / d ∨ divNearest n d = n / d + 1 := by
  unfold divNearest
  split
  · exact Or.inr rfl
  · exact Or.inl rfl

/-- No whole number is nearer to a quotient than the rounded one. It is even where another is just
as near. -/
theorem divNearest_nearest (n : Nat) {d : Nat} (hd : 0 < d) (k : Int) :
    ((d : Int) * divNearest n d - n).natAbs ≤ ((d : Int) * k - n).natAbs ∧
      (((d : Int) * divNearest n d - n).natAbs = ((d : Int) * k - n).natAbs →
        k = divNearest n d ∨ divNearest n d % 2 = 0) := by
  by_cases hk : k = divNearest n d
  · rw [hk]
    exact ⟨Nat.le_refl _, fun _ => Or.inl rfl⟩
  · have hhalf := divNearest_within_half n d hd
    -- Another whole number is a whole divisor away.
    have hfar : (d : Int) * k ≤ d * divNearest n d - d ∨ (d : Int) * divNearest n d + d ≤ d * k := by
      rcases Int.lt_or_gt_of_ne hk with hlt | hgt
      · left
        have h := Int.mul_le_mul_of_nonneg_left (Int.le_sub_one_of_lt hlt) (Int.natCast_nonneg d)
        rwa [Int.mul_sub, Int.mul_one] at h
      · right
        have h := Int.mul_le_mul_of_nonneg_left (Int.add_one_le_of_lt hgt) (Int.natCast_nonneg d)
        rwa [Int.mul_add, Int.mul_one] at h
    have hrest := Nat.mod_lt n hd
    have hbelow := Nat.div_add_mod n d
    have habove : d * divNearest n d = d * (n / d) ∨ d * divNearest n d = d * (n / d) + d := by
      rcases divNearest_eq n d with hm | hm
      · exact Or.inl (by rw [hm])
      · exact Or.inr (by rw [hm, Nat.mul_succ])
    have heven := divNearest_even_of_half n d
    rw [← Int.natCast_mul] at hfar ⊢
    generalize d * divNearest n d = p at hhalf hfar habove ⊢
    generalize d * (n / d) = q at hbelow habove
    generalize (d : Int) * k = r at hfar ⊢
    generalize n % d = t at hbelow heven hrest
    refine ⟨by omega, fun heq => Or.inr (heven ?_)⟩
    have htie : 2 * ((p : Int) - n).natAbs = d := by omega
    omega

namespace FiniteDouble

/-- Of all finite doubles none is nearer to `u / d` units than this one, and its mantissa is even
where another one is just as near. -/
structure IsNearest (x : FiniteDouble) (u : Int) (d : Nat) : Prop where
  nearest : ∀ y : FiniteDouble, (d * x.units - u).natAbs ≤ (d * y.units - u).natAbs
  even : ∀ y : FiniteDouble, (d * x.units - u).natAbs = (d * y.units - u).natAbs →
    y.units = x.units ∨ x.mantissa % 2 = 0

theorem isNearest_units (x : FiniteDouble) : x.IsNearest x.units 1 where
  nearest y := by omega
  even y heq := by omega

theorem IsNearest.units_eq {x y : FiniteDouble} {u : Int} (h : x.IsNearest u 1) (hy : y.units = u) :
    x.units = u := by
  have hle := h.nearest y
  omega

def scaleOf (n d : Nat) : Nat := (n / d).log2 - 52

theorem parts_of_ofParts? {negative : Bool} {mantissa scale : Nat} {x : FiniteDouble}
    (h : ofParts? negative mantissa scale = some x) :
    x.negative = negative ∧ x.mantissa = mantissa ∧ x.scale = scale := by
  unfold ofParts? at h
  split at h
  · cases h
    exact ⟨rfl, rfl, rfl⟩
  · cases h

theorem parts_of_nearest? {negative : Bool} {n d : Nat} {x : FiniteDouble}
    (h : nearest? negative n d = some x) :
    x.negative = negative ∧
      x.magnitude = divNearest n (d * twoPow (scaleOf n d)) * twoPow (scaleOf n d) ∧
      (divNearest n (d * twoPow (scaleOf n d)) % 2 = 0 → x.mantissa % 2 = 0) := by
  simp only [nearest?] at h
  split at h
  · next hfull =>
    obtain ⟨hnegative, hmantissa, hscale⟩ := parts_of_ofParts? h
    refine ⟨hnegative, ?_, fun _ => by rw [hmantissa]; rfl⟩
    have hsame : twoPow 53 = twoPow 52 * 2 := twoPow_succ 52
    rw [magnitude, hmantissa, hscale, scaleOf, hfull, hsame, twoPow_succ (_ - 52), Nat.mul_assoc,
      Nat.mul_comm 2]
  · obtain ⟨hnegative, hmantissa, hscale⟩ := parts_of_ofParts? h
    refine ⟨hnegative, ?_, fun heven => ?_⟩
    · rw [magnitude, hmantissa, hscale, scaleOf]
    · rw [hmantissa]
      exact heven

/-- A double is on the grid of a scale unless it has fewer bits than fill the mantissa there. -/
theorem magnitude_on_grid (y : FiniteDouble) (scale : Nat) :
    (∃ k, y.magnitude = twoPow scale * k) ∨
      scale ≠ 0 ∧ y.magnitude < twoPow (52 + scale) := by
  by_cases hscale : scale ≤ y.scale
  · left
    obtain ⟨i, hi⟩ := Nat.exists_eq_add_of_le hscale
    exact ⟨y.mantissa * twoPow i, by rw [magnitude, hi, twoPow_add, Nat.mul_left_comm]⟩
  · right
    have hlt : y.magnitude < twoPow 53 * twoPow y.scale :=
      Nat.mul_lt_mul_of_pos_right y.canonical.1 (twoPow_pos _)
    rw [← twoPow_add] at hlt
    exact ⟨by omega, Nat.lt_of_lt_of_le hlt (twoPow_le_twoPow (by omega))⟩

theorem filled_of_scaleOf {n d : Nat} (hd : 0 < d) (h : scaleOf n d ≠ 0) :
    d * twoPow (52 + scaleOf n d) ≤ n := by
  have hlog : 52 + scaleOf n d = (n / d).log2 := by
    unfold scaleOf at h ⊢
    omega
  have hne : n / d ≠ 0 := by
    intro hzero
    rw [scaleOf, hzero] at h
    exact h rfl
  have hle : twoPow (n / d).log2 ≤ n / d := Nat.log2_self_le hne
  rw [hlog, Nat.mul_comm]
  exact (Nat.le_div_iff_mul_le hd).mp hle

/-- A magnitude rounded on the grid is nearer to a quotient than the units of any double. -/
theorem nearest_of_magnitude {n d : Nat} (hd : 0 < d) {x y : FiniteDouble} {v : Int}
    (hx : x.magnitude = divNearest n (d * twoPow (scaleOf n d)) * twoPow (scaleOf n d))
    (hv : v.natAbs = y.magnitude) :
    ((d : Int) * x.magnitude - n).natAbs ≤ ((d : Int) * v - n).natAbs ∧
      (((d : Int) * x.magnitude - n).natAbs = ((d : Int) * v - n).natAbs →
        v = x.magnitude ∨ divNearest n (d * twoPow (scaleOf n d)) % 2 = 0) := by
  have hform : ∀ k : Int, (d : Int) * (k * twoPow (scaleOf n d)) =
      ((d * twoPow (scaleOf n d) : Nat) : Int) * k := by
    intro k
    rw [Int.natCast_mul, Int.mul_assoc, Int.mul_comm k]
  have hgrid := divNearest_nearest n (Nat.mul_pos hd (twoPow_pos (scaleOf n d)))
  rw [hx, Int.natCast_mul, hform]
  rcases y.magnitude_on_grid (scaleOf n d) with ⟨k, hk⟩ | ⟨hscale, hlow⟩
  · obtain ⟨j, rfl⟩ : ∃ j : Int, v = j * twoPow (scaleOf n d) := by
      rcases Int.natAbs_eq v with h | h
      · exact ⟨k, by rw [h, hv, hk, Int.natCast_mul, Int.mul_comm]⟩
      · exact ⟨-k, by rw [h, hv, hk, Int.natCast_mul, Int.neg_mul, Int.mul_comm]⟩
    rw [hform]
    refine ⟨(hgrid j).1, fun heq => ?_⟩
    rcases (hgrid j).2 heq with rfl | heven
    · exact Or.inl rfl
    · exact Or.inr heven
  · -- The lowest number that fills the mantissa is on the grid, between the double and the quotient.
    have hfilled := filled_of_scaleOf hd hscale
    have hfull : ((d * twoPow (52 + scaleOf n d) : Nat) : Int) =
        ((d * twoPow (scaleOf n d) : Nat) : Int) * twoPow 52 := by
      rw [twoPow_add, Int.natCast_mul, Int.natCast_mul, hform]
    have hbelow : (d : Int) * v < (d * twoPow (52 + scaleOf n d) : Nat) := by
      rw [Int.natCast_mul]
      exact Int.mul_lt_mul_of_pos_left (by omega) (by omega)
    have hnear := (hgrid (twoPow 52)).1
    rw [← hfull] at hnear
    generalize d * twoPow (52 + scaleOf n d) = z at hfilled hbelow hnear
    constructor
    · omega
    · intro heq
      omega

/-- Rounding finds the nearest double, on either side of zero. -/
theorem isNearest_of_nearest? {negative : Bool} {n d : Nat} {x : FiniteDouble} (hd : 0 < d)
    (h : nearest? negative n d = some x) : x.IsNearest (if negative then -(n : Int) else n) d := by
  obtain ⟨hnegative, hmagnitude, heven⟩ := parts_of_nearest? h
  have hpair : ∀ y : FiniteDouble,
      (d * x.units - if negative then -(n : Int) else n).natAbs =
        ((d : Int) * x.magnitude - n).natAbs ∧
      ∃ v : Int, v.natAbs = y.magnitude ∧
        (d * y.units - if negative then -(n : Int) else n).natAbs = ((d : Int) * v - n).natAbs ∧
        (v = x.magnitude → y.units = x.units) := by
    intro y
    cases negative with
    | false =>
      have hx : x.units = x.magnitude := by
        rw [units, hnegative]
        rfl
      rw [hx]
      exact ⟨rfl, y.units, y.natAbs_units, rfl, id⟩
    | true =>
      have hx : x.units = -x.magnitude := by
        rw [units, hnegative]
        rfl
      refine ⟨?_, -y.units, by rw [Int.natAbs_neg, natAbs_units], ?_, fun h => by omega⟩
      · rw [hx, Int.mul_neg, if_pos rfl]
        omega
      · rw [Int.mul_neg, if_pos rfl]
        omega
  constructor
  · intro y
    obtain ⟨hx, v, hv, hy, -⟩ := hpair y
    rw [hx, hy]
    exact (nearest_of_magnitude hd hmagnitude hv).1
  · intro y heq
    obtain ⟨hx, v, hv, hy, hsame⟩ := hpair y
    rw [hx, hy] at heq
    exact ((nearest_of_magnitude hd hmagnitude hv).2 heq).imp hsame heven

theorem divNearest_le (n d : Nat) : divNearest n (d * twoPow (scaleOf n d)) ≤ twoPow 53 := by
  have hbits : n / d < twoPow (53 + scaleOf n d) :=
    Nat.lt_of_lt_of_le Nat.lt_log2_self (twoPow_le_twoPow (by unfold scaleOf; omega))
  have hlt : n / (d * twoPow (scaleOf n d)) < twoPow 53 := by
    rw [← Nat.div_div_eq_div_mul, Nat.div_lt_iff_lt_mul (twoPow_pos _), ← twoPow_add]
    exact hbits
  rcases divNearest_eq n (d * twoPow (scaleOf n d)) with h | h <;> omega

theorem exists_nearest? {n d : Nat} (hd : 0 < d) (h : n / d < twoPow 2097) (negative : Bool) :
    ∃ x, nearest? negative n d = some x := by
  have hscale : scaleOf n d ≤ 2044 := by
    have hlog := log2_lt_of_lt_twoPow (by omega) h
    unfold scaleOf
    omega
  have hle := divNearest_le n d
  have hdouble : twoPow 53 = twoPow 52 * 2 := twoPow_succ 52
  have hpos := twoPow_pos 52
  have hfilled : twoPow 52 ≤ divNearest n (d * twoPow (scaleOf n d)) ∨ scaleOf n d = 0 := by
    by_cases hzero : scaleOf n d = 0
    · exact Or.inr hzero
    · have hfill := filled_of_scaleOf hd hzero
      have hquotient : twoPow 52 ≤ n / (d * twoPow (scaleOf n d)) := by
        rw [Nat.le_div_iff_mul_le (Nat.mul_pos hd (twoPow_pos _)), Nat.mul_left_comm, ← twoPow_add]
        exact hfill
      rcases divNearest_eq n (d * twoPow (scaleOf n d)) with h | h <;> omega
  have hparts : ∀ mantissa scale : Nat, Canonical mantissa scale →
      ∃ x, ofParts? negative mantissa scale = some x := fun _ _ hcanonical => ⟨_, dif_pos hcanonical⟩
  simp only [nearest?]
  split
  · exact hparts _ (scaleOf n d + 1) ⟨by omega, by omega, Or.inl (Nat.le_refl _)⟩
  · next hne => exact hparts _ (scaleOf n d) ⟨Nat.lt_of_le_of_ne hle hne, by omega, hfilled⟩

end FiniteDouble

theorem Double.exists_ofInt {n : Int} {bits : Nat} (hbits : bits ≤ 1023)
    (h : n.natAbs < twoPow bits) :
    ∃ x, Double.ofInt n = .finite x ∧ x.IsNearest (n * unitsPerOne) 1 := by
  have hsize : n.natAbs * unitsPerOne / 1 < twoPow 2097 := by
    have hlt : n.natAbs * unitsPerOne < twoPow bits * unitsPerOne :=
      Nat.mul_lt_mul_of_pos_right h (twoPow_pos _)
    rw [unitsPerOne, ← twoPow_add] at hlt
    rw [Nat.div_one, unitsPerOne]
    exact Nat.lt_of_lt_of_le hlt (twoPow_le_twoPow (by omega))
  obtain ⟨x, hx⟩ := FiniteDouble.exists_nearest? Nat.one_pos hsize (n < 0)
  refine ⟨x, by rw [ofInt, nearest, hx], ?_⟩
  have hnearest := FiniteDouble.isNearest_of_nearest? Nat.one_pos hx
  by_cases hn : n < 0
  · have habs : (n.natAbs : Int) = -n := by omega
    rwa [if_pos (decide_eq_true hn), Int.natCast_mul, habs, Int.neg_mul, Int.neg_neg] at hnearest
  · have habs : (n.natAbs : Int) = n := by omega
    rwa [if_neg (by rwa [decide_eq_true_eq]), Int.natCast_mul, habs] at hnearest

end DocStore
