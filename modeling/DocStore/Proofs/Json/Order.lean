import DocStore.Json.Basic

/-!
# The order of keys

Every value that is read has its members in the order of their keys, each key
once and at every depth: sorting brings them into it, because inserting a member
keeps it.
-/

set_option autoImplicit false

namespace DocStore

def KeysOrdered {α : Type} (members : List (String × α)) : Prop :=
  members.Pairwise fun m m' => m.1 < m'.1

theorem mem_insertEarlier {α : Type} {key : String} {value : α} {members : List (String × α)}
    {m : String × α} (h : m ∈ insertEarlier key value members) :
    m = (key, value) ∨ m ∈ members := by
  induction members with
  | nil => exact Or.inl (List.mem_singleton.mp h)
  | cons m' members ih =>
    unfold insertEarlier at h
    split at h
    · exact List.mem_cons.mp h
    · split at h
      · exact Or.inr h
      · rcases List.mem_cons.mp h with h | h
        · exact Or.inr (List.mem_cons.mpr (Or.inl h))
        · exact (ih h).imp_right (List.mem_cons_of_mem m')

theorem KeysOrdered.insertEarlier {α : Type} {members : List (String × α)}
    (h : KeysOrdered members) (key : String) (value : α) :
    KeysOrdered (insertEarlier key value members) := by
  induction members with
  | nil => exact List.pairwise_singleton _ _
  | cons m members ih =>
    obtain ⟨hm, hmembers⟩ := List.pairwise_cons.mp h
    unfold DocStore.insertEarlier
    by_cases hlt : key < m.1
    · rw [if_pos hlt]
      refine List.pairwise_cons.mpr ⟨fun m' hm' => ?_, h⟩
      rcases List.mem_cons.mp hm' with rfl | hm'
      · exact hlt
      · exact String.lt_trans hlt (hm m' hm')
    · by_cases heq : key = m.1
      · rw [if_neg hlt, if_pos heq]
        exact h
      · rw [if_neg hlt, if_neg heq]
        refine List.pairwise_cons.mpr ⟨fun m' hm' => ?_, ih hmembers⟩
        rcases mem_insertEarlier hm' with rfl | hm'
        · exact Std.lt_of_le_of_ne (String.not_lt.mp hlt) (Ne.symm heq)
        · exact hm m' hm'

namespace Json

inductive Ordered : Json → Prop
  | null : Ordered null
  | bool (b : Bool) : Ordered (bool b)
  | number (n : JsonNumber) : Ordered (number n)
  | str (s : String) : Ordered (str s)
  | arr {items : List Json} (h : ∀ item ∈ items, Ordered item) : Ordered (arr items)
  | obj {members : List (String × Json)} (hkeys : KeysOrdered members)
      (h : ∀ m ∈ members, Ordered m.2) : Ordered (obj members)

mutual

theorem ordered_sorted : ∀ j : Json, j.sorted.Ordered
  | null => .null
  | bool b => .bool b
  | number n => .number n
  | str s => .str s
  | arr items => .arr (ordered_sortedItems items)
  | obj members => .obj (ordered_sortedMembers members).1 (ordered_sortedMembers members).2

theorem ordered_sortedItems : ∀ items : List Json, ∀ item ∈ sortedItems items, item.Ordered
  | [] => by simp [sortedItems]
  | item :: items => by
    rw [sortedItems]
    exact List.forall_mem_cons.mpr ⟨ordered_sorted item, ordered_sortedItems items⟩

theorem ordered_sortedMembers : ∀ members : List (String × Json),
    KeysOrdered (sortedMembers members) ∧ ∀ m ∈ sortedMembers members, m.2.Ordered
  | [] => ⟨List.Pairwise.nil, by simp [sortedMembers]⟩
  | (key, value) :: members => by
    obtain ⟨hkeys, hvalues⟩ := ordered_sortedMembers members
    rw [sortedMembers]
    refine ⟨hkeys.insertEarlier key value.sorted, fun m hm => ?_⟩
    rcases mem_insertEarlier hm with rfl | hm
    · exact ordered_sorted value
    · exact hvalues m hm

end

theorem Ordered.items {items : List Json} (h : (Json.arr items).Ordered) :
    ∀ item ∈ items, item.Ordered := by
  cases h with
  | arr h => exact h

theorem Ordered.members {members : List (String × Json)} (h : (Json.obj members).Ordered) :
    KeysOrdered members ∧ ∀ m ∈ members, m.2.Ordered := by
  cases h with
  | obj hkeys h => exact ⟨hkeys, h⟩

theorem Ordered.payload {key : String} {payload : Json}
    (h : (Json.obj [(key, payload)]).Ordered) : payload.Ordered :=
  h.members.2 (key, payload) (List.mem_singleton.mpr rfl)

theorem Ordered.of_lookup {members : List (String × Json)} {key : String} {j : Json}
    (h : (Json.obj members).Ordered) (hj : members.lookup key = some j) : j.Ordered := by
  obtain ⟨before, after, rfl, -⟩ := List.lookup_eq_some_iff.mp hj
  exact h.members.2 (key, j) (by simp)

theorem Ordered.of_get? {raw j : Json} {key : String} (h : raw.Ordered)
    (hj : raw.get? key = some j) : j.Ordered := by
  cases raw with
  | obj members => exact h.of_lookup hj
  | _ => cases hj

end Json

end DocStore
