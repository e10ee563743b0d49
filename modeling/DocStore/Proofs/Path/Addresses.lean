import DocStore.Path.Address

/-!
# Addresses read back

The separator is the only character at which paths are cut, so the printed form
of an address determines it. Every address but the root is the child of its
parent under its own id.
-/

set_option autoImplicit false

namespace DocStore

namespace Segment

theorem ofChars?_nil : ofChars? [] = none := by
  simp [ofChars?]

theorem ofChars?_text (s : Segment) : ofChars? s.text.toList = some s := by
  have h : s.text.toList ≠ [] ∧ separator ∉ s.text.toList :=
    ⟨by simpa using s.nonempty, s.unsplit⟩
  rw [ofChars?, dif_pos h]
  simp

theorem ofPath_empty : ofPath "" = [] := by
  simp [ofPath, List.splitOn_nil, ofChars?_nil]

/-- A separator between two paths cuts them apart. -/
theorem ofPath_join (x y : List Char) :
    ofPath (String.ofList (x ++ separator :: y)) =
      ofPath (String.ofList x) ++ ofPath (String.ofList y) := by
  simp [ofPath, List.splitOn_append_cons_self]

theorem ofPath_separator (y : List Char) :
    ofPath (String.ofList (separator :: y)) = ofPath (String.ofList y) := by
  have h := ofPath_join [] y
  rw [List.nil_append] at h
  rw [h, String.ofList_nil, ofPath_empty, List.nil_append]

theorem ofPath_intercalate (ss : List Segment) :
    ofPath (String.ofList (List.intercalate [separator] (ss.map fun s => s.text.toList))) = ss := by
  cases ss with
  | nil => exact ofPath_empty
  | cons s ss =>
    have hs : ∀ l ∈ (s :: ss).map (fun s => s.text.toList), separator ∉ l := by
      intro l hl
      obtain ⟨t, -, rfl⟩ := List.mem_map.mp hl
      exact t.unsplit
    rw [ofPath, String.toList_ofList, List.splitOn_intercalate separator hs (by simp),
      List.filterMap_map]
    have hf : ofChars? ∘ (fun s : Segment => s.text.toList) = some := by
      funext t
      exact ofChars?_text t
    rw [hf, List.filterMap_some]

theorem ofPath_text (s : Segment) : ofPath s.text = [s] := by
  simpa using ofPath_intercalate [s]

end Segment

namespace Address

@[simp] theorem parse_toString (a : Address) : parse a.toString = a := by
  rw [parse, toString, Segment.ofPath_intercalate]

theorem isRoot_iff (a : Address) : a.isRoot = true ↔ a = root := by
  cases a
  simp [isRoot, root]

def suffix (a : Address) : List Char := a.segments.flatMap fun s => separator :: s.text.toList

theorem intercalate_eq_flatMap (l : List Char) (ls : List (List Char)) :
    List.intercalate [separator] (l :: ls) = l ++ ls.flatMap (separator :: ·) := by
  induction ls generalizing l with
  | nil => simp
  | cons m ms ih => simp [List.intercalate_cons_cons, ih]

theorem suffix_eq (a : Address) :
    a.suffix = if a.isRoot then [] else separator :: a.toString.toList := by
  obtain ⟨segments⟩ := a
  cases segments with
  | nil => rfl
  | cons s ss =>
    simp only [suffix, isRoot, toString, List.map_cons, intercalate_eq_flatMap]
    simp [List.flatMap_map]

theorem suffix_starts (a : Address) : a.suffix = [] ∨ a.suffix.head? = some separator := by
  rw [suffix_eq]
  split
  · exact Or.inl rfl
  · exact Or.inr rfl

theorem parse_suffix (a : Address) : parse (String.ofList a.suffix) = a := by
  rw [suffix_eq]
  by_cases h : a.isRoot = true
  · rw [if_pos h, (isRoot_iff a).mp h]
    exact congrArg Address.mk Segment.ofPath_empty
  · rw [if_neg h, parse, Segment.ofPath_separator, String.ofList_toList]
    exact parse_toString a

theorem suffix_injective {a b : Address} (h : a.suffix = b.suffix) : a = b := by
  rw [← parse_suffix a, h, parse_suffix]

theorem child_text_suffix (a : Address) (s : Segment) :
    (a.child s.text).suffix = a.suffix ++ separator :: s.text.toList := by
  simp [suffix, child, Segment.ofPath_text]

theorem isRoot_of_isCollection {a : Address} (h : a.isCollection = true) : a.isRoot = false := by
  cases a with
  | mk segments =>
    cases segments with
    | nil => simp [isCollection, length] at h
    | cons s ss => rfl

theorem isDocument_iff (a : Address) :
    a.isDocument = true ↔ a.length % 2 = 0 ∧ a.segments ≠ [] := by
  simp only [isDocument, isRoot, isCollection, Bool.and_eq_true, Bool.not_eq_true',
    List.isEmpty_eq_false_iff, decide_eq_false_iff_not, Nat.mod_two_not_eq_one, and_comm]

theorem exists_parent {a : Address} (h : a.isRoot = false) :
    ∃ (b : Address) (s : Segment), a.segments = b.segments ++ [s] ∧ a.parent = .ok b ∧
      a.id = s.text := by
  have hne : a.segments ≠ [] := by
    intro hnil
    simp [isRoot, hnil] at h
  have hsplit := List.dropLast_concat_getLast hne
  refine ⟨⟨a.segments.dropLast⟩, a.segments.getLast hne, hsplit.symm, ?_, ?_⟩
  · simp [parent, h]
  · simp [id, List.getLast?_eq_some_getLast hne]

/-- Of all addresses the parent alone leads to the address by its id. -/
theorem child_id_eq_iff {a b c : Address} (h : a.parent = .ok b) : c.child a.id = a ↔ c = b := by
  cases hr : a.isRoot with
  | true => simp [parent, hr] at h
  | false =>
    obtain ⟨d, s, hs, hd, hid⟩ := exists_parent hr
    rw [hd, Except.ok.injEq] at h
    subst h
    obtain ⟨segments⟩ := a
    obtain ⟨above⟩ := c
    obtain ⟨parent⟩ := d
    simp only at hs
    rw [child, hid, Segment.ofPath_text, hs, mk.injEq, mk.injEq, List.append_cancel_right_eq]

end Address

end DocStore
