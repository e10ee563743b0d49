import DocStore.Proofs.Path.Separators

/-!
# The monoid of addresses

Going down from an address appends the pieces of a path, whatever the separators
around them. So going down twice is going down by the joined path, the root and
the paths without pieces do nothing, and nothing is lost: the address and the
pieces can both be told from the result. Main statement: addresses form the free
monoid over their segments, and printing picks one path for each.
-/

set_option autoImplicit false

namespace DocStore

namespace Segment

theorem ofPath_append (x y : String) :
    ofPath (x ++ "/" ++ y) = ofPath x ++ ofPath y := by
  have h := ofPath_join x.toList y.toList
  rw [String.ofList_toList, String.ofList_toList] at h
  rw [← h, ← String.ofList_toList (s := x ++ "/" ++ y)]
  simp [separator]

end Segment

namespace Address

theorem parse_child (x y : String) : (parse x).child y = parse (x ++ "/" ++ y) := by
  rw [parse, parse, child, Segment.ofPath_append]

theorem child_child (a : Address) (x y : String) :
    (a.child x).child y = a.child (x ++ "/" ++ y) := by
  rw [child, child, child, Segment.ofPath_append, List.append_assoc]

theorem child_eq_self_iff (a : Address) (y : String) :
    a.child y = a ↔ ∀ c ∈ y.toList, c = separator := by
  rw [← Segment.ofPath_eq_nil_iff, child]
  constructor
  · intro h
    exact List.append_right_eq_self.mp (congrArg segments h)
  · intro h
    rw [h, List.append_nil]

/-- Below one address, paths count by their pieces. -/
theorem child_left_inj (a : Address) (x y : String) :
    a.child x = a.child y ↔ pieces x = pieces y := by
  rw [child, child, mk.injEq, List.append_cancel_left_eq, Segment.ofPath_eq_iff]

theorem child_right_inj (a b : Address) (x : String) : a.child x = b.child x ↔ a = b := by
  constructor
  · intro h
    rw [child, child, mk.injEq, List.append_cancel_right_eq] at h
    cases a
    cases b
    exact congrArg mk h
  · rintro rfl
    rfl

theorem parse_eq_iff (x y : String) : parse x = parse y ↔ pieces x = pieces y := by
  rw [parse, parse, mk.injEq, Segment.ofPath_eq_iff]

/-- Every address, whatever steps lead to it, has clean segments and is read back from its printed
form, which has no separator but between two segments. A parsed path has its non-empty pieces for
segments and is printed without its leading and its idle separators. Going down is associative,
does nothing exactly by paths of separators alone, and can be cancelled on both sides. -/
theorem paths_form_free_monoid :
    (∀ a : Address, (∀ s ∈ a.segments, s.text ≠ "" ∧ separator ∉ s.text.toList) ∧
      parse a.toString = a ∧ ¬ [separator] <+: a.toString.toList ∧
      ¬ [separator] <:+ a.toString.toList ∧ ¬ [separator, separator] <:+: a.toString.toList) ∧
    (∀ x : String, (parse x).segments.map (fun s => s.text.toList) = pieces x ∧
      (parse x).toString.toList = withoutIdle (x.toList.dropWhile (· = separator)) ∧
      parse (parse x).toString = parse x) ∧
    (∀ x y : String, (parse x).child y = parse (x ++ "/" ++ y)) ∧
    (∀ (a : Address) (x y : String), (a.child x).child y = a.child (x ++ "/" ++ y)) ∧
    (∀ (a : Address) (y : String), a.child y = a ↔ ∀ c ∈ y.toList, c = separator) ∧
    (∀ x y : String, parse x = parse y ↔ pieces x = pieces y) ∧
    (∀ (a : Address) (x y : String), a.child x = a.child y ↔ pieces x = pieces y) ∧
    ∀ (a b : Address) (x : String), a.child x = b.child x ↔ a = b := by
  refine ⟨?printed, ?parsed, parse_child, child_child, child_eq_self_iff, parse_eq_iff,
    child_left_inj, child_right_inj⟩
  case printed =>
    intro a
    exact ⟨fun s _ => ⟨s.nonempty, s.unsplit⟩, parse_toString a, toString_tidy a⟩
  case parsed =>
    intro x
    exact ⟨Segment.texts_ofPath x, toString_parse x, parse_toString _⟩

/-- A path with every kind of idle separator, and one of separators alone. -/
theorem paths_form_free_monoid_idle_separators :
    let a := parse "//users///u1/"
    a.toString = "users/u1" ∧ a = parse "users/u1" ∧ a.child "//" = a ∧
      (a.child "/posts/").child "p1" = a.child "posts//p1" ∧
      a.child "/posts/" ≠ a ∧ ∀ s ∈ a.segments, s.text ≠ "" ∧ separator ∉ s.text.toList := by
  intro a
  obtain ⟨hprinted, hparsed, -, hjoin, hself, hsame, hbelow, -⟩ := paths_form_free_monoid
  have htext : a.toString = "users/u1" := by
    rw [← String.toList_inj, (hparsed _).2.1]
    decide
  refine ⟨htext, (hsame _ _).mpr (by decide), (hself _ _).mpr (by simp [separator]), ?_, ?_,
    (hprinted a).1⟩
  · rw [hjoin]
    exact (hbelow _ _ _).mpr (by decide)
  · rw [Ne, hself]
    simp [separator]

end Address

end DocStore
