import DocStore.Json.Basic

/-!
# Equality of JSON values

Values are compared part by part, and doubles by the number they stand for, so
that the two zeros are equal. No other double has the same number as another.
Main statement: a value without zeros among its doubles is equal to no value but
itself.
-/

set_option autoImplicit false

namespace DocStore

namespace FiniteDouble

/-- A magnitude is written in one way only. -/
theorem parts_of_magnitude {x y : FiniteDouble} (h : x.magnitude = y.magnitude) :
    x.mantissa = y.mantissa ∧ x.scale = y.scale := by
  -- The mantissa at the larger scale fills 53 bits, so at a smaller one it would need more.
  have hscale : ∀ {x y : FiniteDouble}, x.magnitude = y.magnitude → ¬ x.scale < y.scale := by
    intro x y h hlt
    obtain ⟨hx, -, -⟩ := x.canonical
    obtain ⟨-, -, hy⟩ := y.canonical
    obtain ⟨k, hk⟩ := Nat.exists_eq_add_of_lt hlt
    have hdiff : y.scale = x.scale + (k + 1) := by omega
    have hpos : 0 < twoPow x.scale := twoPow_pos _
    have hmantissa : x.mantissa = y.mantissa * twoPow (k + 1) := by
      apply Nat.eq_of_mul_eq_mul_right hpos
      rw [Nat.mul_assoc, Nat.mul_comm (twoPow (k + 1)), ← twoPow_add, ← hdiff]
      exact h
    have hfull : twoPow 52 ≤ y.mantissa := hy.resolve_right (by omega)
    have hwide : twoPow 53 ≤ y.mantissa * twoPow (k + 1) := by
      rw [twoPow_succ 52, twoPow_succ k, ← Nat.mul_assoc]
      apply Nat.mul_le_mul_right
      exact Nat.le_trans hfull (Nat.le_mul_of_pos_right _ (twoPow_pos k))
    omega
  have heq : x.scale = y.scale := Nat.le_antisymm (Nat.not_lt.mp (hscale h.symm))
    (Nat.not_lt.mp (hscale h))
  refine ⟨?_, heq⟩
  rw [magnitude, magnitude, heq] at h
  exact Nat.eq_of_mul_eq_mul_right (twoPow_pos _) h

/-- Doubles other than zero are known by their number. -/
theorem eq_of_units {x y : FiniteDouble} (h : x.units = y.units) (hx : x.units ≠ 0) : x = y := by
  have hsign : x.negative = y.negative ∧ x.magnitude = y.magnitude := by
    unfold units at h hx
    cases hxn : x.negative <;> cases hyn : y.negative <;> simp [hxn, hyn] at h hx ⊢ <;> omega
  obtain ⟨hmantissa, hscale⟩ := parts_of_magnitude hsign.2
  cases x
  cases y
  simp only at hsign hmantissa hscale
  simp only [mk.injEq]
  exact ⟨hsign.1, hmantissa, hscale⟩

end FiniteDouble

def JsonNumber.equals : JsonNumber → JsonNumber → Bool
  | integer m, integer n => m = n
  | double x, double y => x.units = y.units
  | _, _ => false

namespace Json

mutual

def equals : Json → Json → Bool
  | null, null => true
  | bool a, bool b => a = b
  | number m, number n => m.equals n
  | str s, str t => s = t
  | arr items, arr items' => equalItems items items'
  | obj members, obj members' => equalMembers members members'
  | _, _ => false

def equalItems : List Json → List Json → Bool
  | [], [] => true
  | item :: items, item' :: items' => item.equals item' && equalItems items items'
  | _, _ => false

def equalMembers : List (String × Json) → List (String × Json) → Bool
  | [], [] => true
  | (key, value) :: members, (key', value') :: members' =>
    key = key' && value.equals value' && equalMembers members members'
  | _, _ => false

end

mutual

theorem equals_self : ∀ j : Json, j.equals j = true
  | null => rfl
  | bool _ => decide_eq_true rfl
  | number (.integer _) => decide_eq_true rfl
  | number (.double _) => decide_eq_true rfl
  | str _ => decide_eq_true rfl
  | arr items => equalItems_self items
  | obj members => equalMembers_self members

theorem equalItems_self : ∀ items : List Json, equalItems items items = true
  | [] => rfl
  | item :: items => by rw [equalItems, equals_self item, equalItems_self items, Bool.and_self]

theorem equalMembers_self : ∀ members : List (String × Json), equalMembers members members = true
  | [] => rfl
  | (key, value) :: members => by
    rw [equalMembers, equals_self value, equalMembers_self members, decide_eq_true rfl,
      Bool.and_self, Bool.and_self]

end

inductive NoZero : Json → Prop
  | null : NoZero null
  | bool (b : Bool) : NoZero (bool b)
  | integer (n : Int) : NoZero (number (.integer n))
  | double {x : FiniteDouble} (h : x.units ≠ 0) : NoZero (number (.double x))
  | str (s : String) : NoZero (str s)
  | arr {items : List Json} (h : ∀ item ∈ items, NoZero item) : NoZero (arr items)
  | obj {members : List (String × Json)} (h : ∀ m ∈ members, NoZero m.2) : NoZero (obj members)

theorem eq_of_equalItems {items items' : List Json}
    (h : ∀ item ∈ items, ∀ j, item.equals j = true → item = j)
    (hitems : equalItems items items' = true) : items = items' := by
  induction items generalizing items' with
  | nil =>
    cases items' with
    | nil => rfl
    | cons _ _ => cases hitems
  | cons item items ih =>
    cases items' with
    | nil => cases hitems
    | cons item' items' =>
      obtain ⟨hitem, hrest⟩ := List.forall_mem_cons.mp h
      rw [equalItems, Bool.and_eq_true] at hitems
      rw [hitem item' hitems.1, ih hrest hitems.2]

theorem eq_of_equalMembers {members members' : List (String × Json)}
    (h : ∀ m ∈ members, ∀ j, m.2.equals j = true → m.2 = j)
    (hmembers : equalMembers members members' = true) : members = members' := by
  induction members generalizing members' with
  | nil =>
    cases members' with
    | nil => rfl
    | cons _ _ => cases hmembers
  | cons m members ih =>
    obtain ⟨key, value⟩ := m
    cases members' with
    | nil => cases hmembers
    | cons m' members' =>
      obtain ⟨key', value'⟩ := m'
      obtain ⟨hvalue, hrest⟩ := List.forall_mem_cons.mp h
      rw [equalMembers, Bool.and_eq_true, Bool.and_eq_true, decide_eq_true_eq] at hmembers
      obtain ⟨⟨hkey, hequal⟩, hmembers⟩ := hmembers
      have hvalue' : value = value' := hvalue value' hequal
      rw [hkey, hvalue', ih hrest hmembers]

theorem NoZero.eq_of_equals {j k : Json} (hj : j.NoZero) (h : j.equals k = true) : j = k := by
  induction hj generalizing k with
  | null => cases k <;> first | rfl | cases h
  | bool b =>
    cases k with
    | bool b' => exact congrArg Json.bool (of_decide_eq_true h)
    | _ => cases h
  | integer n =>
    match k with
    | .number (.integer m) => exact congrArg (fun i => number (.integer i)) (of_decide_eq_true h)
    | .number (.double _) | .null | .bool _ | .str _ | .arr _ | .obj _ => cases h
  | @double x hx =>
    match k with
    | .number (.double y) => rw [FiniteDouble.eq_of_units (of_decide_eq_true h) hx]
    | .number (.integer _) | .null | .bool _ | .str _ | .arr _ | .obj _ => cases h
  | str s =>
    cases k with
    | str t => exact congrArg Json.str (of_decide_eq_true h)
    | _ => cases h
  | arr _ ih =>
    cases k with
    | arr items => exact congrArg Json.arr (eq_of_equalItems (fun item hitem _ => ih item hitem) h)
    | _ => cases h
  | obj _ ih =>
    cases k with
    | obj members => exact congrArg Json.obj (eq_of_equalMembers (fun m hm _ => ih m hm) h)
    | _ => cases h

theorem NoZero.equals_iff {j k : Json} (h : j.NoZero) : j.equals k = true ↔ j = k :=
  ⟨h.eq_of_equals, fun hjk => hjk ▸ equals_self j⟩

end Json

end DocStore
