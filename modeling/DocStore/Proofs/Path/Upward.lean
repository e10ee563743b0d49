import DocStore.Collect
import DocStore.Proofs.Path.Separators

/-!
# The way up

Going down appends segments and going up drops the last one, so the way up undoes
the way down and ends after as many steps as there are segments. Collections and
documents alternate on it; a step that looks for the collection above skips the
documents. Main statement: these laws hold of addresses, and of references, which
keep their database on the way.
-/

set_option autoImplicit false

namespace DocStore

section Climbing

variable {α β : Type}

def climb (step : α → Except PathError α) : Nat → α → Except PathError α
  | 0, a => .ok a
  | n + 1, a =>
    match step a with
    | .ok b => climb step n b
    | .error e => .error e

inductive Trail (step : α → Except PathError α) : α → List α → Prop
  | top {a : α} {e : PathError} (h : step a = .error e) : Trail step a [a]
  | up {a b : α} {stops : List α} (h : step a = .ok b) (hstops : Trail step b stops) :
      Trail step a (a :: stops)

theorem trail_iff_of_error {step : α → Except PathError α} {a : α} {e : PathError}
    (h : step a = .error e) {stops : List α} : Trail step a stops ↔ stops = [a] := by
  constructor
  · intro ht
    cases ht with
    | top _ => rfl
    | up hb _ =>
      rw [h] at hb
      cases hb
  · rintro rfl
    exact .top h

theorem trail_iff_of_ok {step : α → Except PathError α} {a b : α} (h : step a = .ok b)
    {stops : List α} : Trail step a stops ↔ ∃ rest, Trail step b rest ∧ stops = a :: rest := by
  constructor
  · intro ht
    cases ht with
    | top he =>
      rw [h] at he
      cases he
    | up hb hrest =>
      rw [h, Except.ok.injEq] at hb
      exact ⟨_, hb ▸ hrest, rfl⟩
  · rintro ⟨rest, hrest, rfl⟩
    exact .up h hrest

variable {step : α → Except PathError α} {step' : β → Except PathError β} {f : α → β}

theorem climb_map (h : ∀ a, step' (f a) = (step a).map f) (n : Nat) (a : α) :
    climb step' n (f a) = (climb step n a).map f := by
  induction n generalizing a with
  | zero => rfl
  | succ n ih =>
    rw [climb, climb, h]
    cases step a with
    | ok b => exact ih b
    | error e => rfl

theorem trail_map_iff (h : ∀ a, step' (f a) = (step a).map f) {a : α} {stops : List β} :
    Trail step' (f a) stops ↔ ∃ rest, Trail step a rest ∧ stops = rest.map f := by
  constructor
  · intro ht
    generalize hb : f a = b at ht
    induction ht generalizing a with
    | top he =>
      subst hb
      rw [h, map_eq_error_iff] at he
      exact ⟨[a], .top he, rfl⟩
    | up hstep _ ih =>
      subst hb
      rw [h, map_eq_ok_iff] at hstep
      obtain ⟨c, hc, hfc⟩ := hstep
      obtain ⟨rest, hrest, rfl⟩ := ih hfc
      exact ⟨a :: rest, .up hc hrest, rfl⟩
  · rintro ⟨rest, ht, rfl⟩
    induction ht with
    | top he => exact .top (map_eq_error_iff.mpr he ▸ h _)
    | up hstep _ ih => exact .up ((h _).trans (map_eq_ok_iff.mpr ⟨_, hstep, rfl⟩)) ih

end Climbing

namespace Address

def Above (b a : Address) : Prop := b.segments <+: a.segments ∧ b ≠ a

def IsCollectionAbove (c a : Address) : Prop :=
  (c.isCollection = true ∧ c.Above a ∧
    ∀ b : Address, b.Above a → b.isCollection = true → b.length ≤ c.length) ∨
  (c = root ∧ ∀ b : Address, b.Above a → b.isCollection = false)

end Address

/-- The laws of going up from places of a kind. Each place stands at an address, and around it is
what no step changes. -/
structure UpwardLaws {α β : Type} (address : α → Address) (around : α → β)
    (child : α → String → α) (parent parentCollection : α → Except PathError α) : Prop where
  back : ∀ (p : α) (path : String), climb parent (pieces path).length (child p path) = .ok p
  steps : ∀ (p : α) (n : Nat), n ≤ (address p).length →
    ∃ q, climb parent n p = .ok q ∧ around q = around p ∧
      (address q).segments <+: (address p).segments ∧ (address q).length + n = (address p).length
  ends : ∀ p : α, ∃ q, climb parent (address p).length p = .ok q ∧ around q = around p ∧
    (address q).isRoot = true
  fails : ∀ (p : α) (n : Nat), (address p).length < n →
    climb parent n p = .error .noParentOfRoot
  kinds : ∀ p q : α, parent p = .ok q →
    ((address p).isCollection = true →
      (address q).isDocument = true ∨ (address q).isRoot = true) ∧
    ((address p).isDocument = true → (address q).isCollection = true)
  collection : ∀ p : α, (address p).isRoot = false →
    ∃ q, parentCollection p = .ok q ∧ around q = around p ∧
      (address q).IsCollectionAbove (address p)
  noCollection : ∀ p : α, (address p).isRoot = true → parentCollection p = .error .noParentOfRoot
  collections : ∀ p : α, ∃ (above : List α) (top : α),
    (∀ q, q ∈ above ↔ around q = around p ∧ (address q).isCollection = true ∧
      (address q).Above (address p)) ∧
    above.Pairwise (fun q r => (address r).length < (address q).length) ∧
    around top = around p ∧ (address top).isRoot = true ∧
    ∀ stops, Trail parentCollection p stops ↔
      stops = (if (address p).isRoot then [] else [p]) ++ above ++ [top]

namespace Address

theorem isCollection_iff (a : Address) : a.isCollection = true ↔ a.length % 2 = 1 := by
  rw [isCollection, decide_eq_true_eq]

theorem isRoot_iff_length (a : Address) : a.isRoot = true ↔ a.length = 0 := by
  rw [isRoot, length, List.isEmpty_iff, List.length_eq_zero_iff]

def upTo (a : Address) (n : Nat) : Address := ⟨a.segments.take n⟩

theorem length_upTo {a : Address} {n : Nat} (h : n ≤ a.length) : (a.upTo n).length = n :=
  List.length_take_of_le h

theorem upTo_zero (a : Address) : a.upTo 0 = root := rfl

theorem upTo_length (a : Address) : a.upTo a.length = a := by
  rw [upTo, length, List.take_length]

theorem upTo_upTo {a : Address} {m n : Nat} (h : m ≤ n) : (a.upTo n).upTo m = a.upTo m := by
  rw [upTo, upTo, List.take_take, Nat.min_eq_left h, upTo]

theorem above_iff {a b : Address} : b.Above a ↔ ∃ n < a.length, b = a.upTo n := by
  constructor
  · rintro ⟨hstart, hne⟩
    refine ⟨b.length, ?_, ?_⟩
    · refine Nat.lt_of_le_of_ne hstart.length_le fun hlength => hne ?_
      exact congrArg mk (hstart.eq_of_length hlength)
    · exact congrArg mk (List.prefix_iff_eq_take.mp hstart)
  · rintro ⟨n, hn, rfl⟩
    refine ⟨List.take_prefix _ _, fun h => ?_⟩
    have hlength := congrArg length h
    rw [length_upTo (Nat.le_of_lt hn)] at hlength
    omega

theorem parent_eq (a : Address) :
    a.parent = if a.length = 0 then .error .noParentOfRoot else .ok (a.upTo (a.length - 1)) := by
  rw [parent, List.dropLast_eq_take, upTo]
  by_cases hroot : a.length = 0
  · rw [if_pos hroot, if_pos (a.isRoot_iff_length.mpr hroot)]
  · rw [if_neg hroot, if_neg (mt a.isRoot_iff_length.mp hroot)]
    rfl

def collectionLength (a : Address) : Nat := if a.length % 2 = 1 then a.length - 2 else a.length - 1

theorem parentCollection_eq (a : Address) :
    a.parentCollection =
      if a.length = 0 then .error .noParentOfRoot else .ok (a.upTo a.collectionLength) := by
  have hskip : (⟨a.segments.dropLast.dropLast⟩ : Address) = a.upTo (a.length - 2) := by
    rw [List.dropLast_eq_take, List.dropLast_eq_take, List.length_take, List.take_take, upTo,
      length]
    congr 2
    omega
  rw [parentCollection, hskip, parent_eq]
  by_cases hroot : a.length = 0
  · simp only [if_pos hroot, if_pos (a.isRoot_iff_length.mpr hroot)]
  · simp only [if_neg hroot, if_neg (mt a.isRoot_iff_length.mp hroot), collectionLength]
    by_cases hodd : a.length % 2 = 1
    · simp only [if_pos hodd, if_pos (a.isCollection_iff.mpr hodd)]
    · simp only [if_neg hodd, if_neg (mt a.isCollection_iff.mp hodd)]

/-- So many steps up drop so many segments. -/
theorem climb_parent (a : Address) (n : Nat) :
    climb parent n a =
      if n ≤ a.length then .ok (a.upTo (a.length - n)) else .error .noParentOfRoot := by
  induction n generalizing a with
  | zero => rw [climb, if_pos (Nat.zero_le _), Nat.sub_zero, upTo_length]
  | succ n ih =>
    rw [climb, parent_eq]
    by_cases hroot : a.length = 0
    · rw [if_pos hroot, if_neg (by omega)]
    · rw [if_neg hroot]
      show climb parent n (a.upTo (a.length - 1)) = _
      rw [ih, length_upTo (Nat.sub_le _ _)]
      by_cases hn : n + 1 ≤ a.length
      · rw [if_pos hn, if_pos (by omega), upTo_upTo (Nat.sub_le _ _), Nat.sub_sub, Nat.add_comm 1]
      · rw [if_neg hn, if_neg (by omega)]

theorem kind_of_parent {a b : Address} (h : a.parent = .ok b) :
    (a.isCollection = true → b.isDocument = true ∨ b.isRoot = true) ∧
      (a.isDocument = true → b.isCollection = true) := by
  rw [parent_eq] at h
  by_cases hroot : a.length = 0
  · rw [if_pos hroot] at h
    cases h
  · rw [if_neg hroot, Except.ok.injEq] at h
    have hlength : b.length = a.length - 1 := by
      rw [← h, length_upTo (Nat.sub_le _ _)]
    rw [isDocument_iff, isDocument_iff, isCollection_iff, isCollection_iff, isRoot_iff_length,
      hlength]
    constructor
    · intro hodd
      by_cases hone : a.length = 1
      · exact Or.inr (by omega)
      · refine Or.inl ⟨by omega, fun hnil => ?_⟩
        rw [length, hnil, List.length_nil] at hlength
        omega
    · rintro ⟨heven, -⟩
      omega

theorem length_child (a : Address) (path : String) :
    (a.child path).length = a.length + (pieces path).length := by
  rw [length, child_segments, List.length_append, pieces, ← Segment.texts_ofPath, List.length_map]
  rfl

theorem upTo_child (a : Address) (path : String) : (a.child path).upTo a.length = a := by
  rw [upTo, child_segments, length, List.take_left]

theorem collectionLength_spec {a : Address} (h : a.length ≠ 0) :
    a.collectionLength < a.length ∧ (a.collectionLength = 0 ∨ a.collectionLength % 2 = 1) := by
  unfold collectionLength
  split <;> omega

def collectionAbove (a : Address) : Address := a.upTo a.collectionLength

theorem length_collectionAbove {a : Address} (h : a.length ≠ 0) :
    a.collectionAbove.length = a.collectionLength :=
  length_upTo (Nat.le_of_lt (collectionLength_spec h).1)

theorem isCollection_collectionAbove {a : Address} (h : a.length ≠ 0) :
    a.collectionAbove.isCollection = true ↔ a.collectionAbove.isRoot = false := by
  rw [isCollection_iff, ← Bool.not_eq_true, isRoot_iff_length, length_collectionAbove h]
  obtain ⟨-, hzero | hodd⟩ := collectionLength_spec h <;> omega

theorem collectionAbove_above {a : Address} (h : a.length ≠ 0) : a.collectionAbove.Above a :=
  above_iff.mpr ⟨_, (collectionLength_spec h).1, rfl⟩

/-- The collections above an address are the longest one and those above that. -/
theorem collection_above_iff {a b : Address} (h : a.length ≠ 0) :
    b.isCollection = true ∧ b.Above a ↔
      (a.collectionAbove.isRoot = false ∧ b = a.collectionAbove) ∨
        b.isCollection = true ∧ b.Above a.collectionAbove := by
  have hlt := (collectionLength_spec h).1
  constructor
  · rintro ⟨hcollection, habove⟩
    obtain ⟨n, hn, rfl⟩ := above_iff.mp habove
    have hodd : n % 2 = 1 := by
      rwa [isCollection_iff, length_upTo (Nat.le_of_lt hn)] at hcollection
    have hle : n ≤ a.collectionLength := by
      unfold collectionLength
      split <;> omega
    rcases Nat.lt_or_eq_of_le hle with hlt | rfl
    · refine Or.inr ⟨hcollection, above_iff.mpr ⟨n, ?_, (upTo_upTo hle).symm⟩⟩
      rwa [length_collectionAbove h]
    · exact Or.inl ⟨(isCollection_collectionAbove h).mp hcollection, rfl⟩
  · rintro (⟨hroot, rfl⟩ | ⟨hcollection, habove⟩)
    · exact ⟨(isCollection_collectionAbove h).mpr hroot, collectionAbove_above h⟩
    · obtain ⟨n, hn, rfl⟩ := above_iff.mp habove
      rw [length_collectionAbove h] at hn
      exact ⟨hcollection, above_iff.mpr ⟨n, Nat.lt_trans hn hlt, upTo_upTo (Nat.le_of_lt hn)⟩⟩

theorem isCollectionAbove_collectionAbove {a : Address} (h : a.length ≠ 0) :
    a.collectionAbove.IsCollectionAbove a := by
  cases hroot : a.collectionAbove.isRoot with
  | true =>
    have hnone : ∀ b : Address, ¬ b.Above a.collectionAbove := by
      intro b hb
      obtain ⟨n, hn, -⟩ := above_iff.mp hb
      rw [(isRoot_iff_length _).mp hroot] at hn
      omega
    refine Or.inr ⟨(isRoot_iff _).mp hroot, fun b hb => ?_⟩
    rw [← Bool.not_eq_true]
    intro hcollection
    rcases (collection_above_iff h).mp ⟨hcollection, hb⟩ with ⟨hfalse, -⟩ | ⟨-, habove⟩
    · rw [hroot] at hfalse
      cases hfalse
    · exact hnone b habove
  | false =>
    refine Or.inl ⟨(isCollection_collectionAbove h).mpr hroot, collectionAbove_above h, ?_⟩
    intro b hb hcollection
    rcases (collection_above_iff h).mp ⟨hcollection, hb⟩ with ⟨-, rfl⟩ | ⟨-, habove⟩
    · exact Nat.le_refl _
    · exact habove.1.length_le

/-- From collection to collection one passes all of them, each shorter than the one before. -/
theorem exists_collections_above (a : Address) : ∃ above : List Address,
    (∀ b, b ∈ above ↔ b.isCollection = true ∧ b.Above a) ∧
    above.Pairwise (fun b c => c.length < b.length) ∧
    ∀ stops, Trail parentCollection a stops ↔
      stops = (if a.isRoot then [] else [a]) ++ above ++ [root] := by
  -- By induction on the length: the collections above are the first stop and those above it.
  induction hn : a.length using Nat.strongRecOn generalizing a with
  | ind n ih =>
    subst hn
    by_cases h : a.length = 0
    · have hroot : a = root := (isRoot_iff a).mp ((isRoot_iff_length a).mpr h)
      refine ⟨[], fun b => ?_, .nil, fun stops => ?_⟩
      · refine ⟨fun hb => absurd hb List.not_mem_nil, fun hb => ?_⟩
        obtain ⟨k, hk, -⟩ := above_iff.mp hb.2
        omega
      · rw [if_pos ((isRoot_iff_length a).mpr h), hroot]
        exact trail_iff_of_error (by rw [parentCollection_eq]; rfl)
    · obtain ⟨above, hmem, hsorted, htrail⟩ := ih _
        ((length_collectionAbove h).symm ▸ (collectionLength_spec h).1) a.collectionAbove rfl
      have hstep : a.parentCollection = .ok a.collectionAbove := by
        rw [parentCollection_eq, if_neg h, collectionAbove]
      have hstart : a.isRoot = false := by
        rw [← Bool.not_eq_true, isRoot_iff_length]
        exact h
      refine ⟨(if a.collectionAbove.isRoot then [] else [a.collectionAbove]) ++ above, ?_, ?_, ?_⟩
      · intro b
        rw [collection_above_iff h, List.mem_append, hmem]
        cases a.collectionAbove.isRoot <;> simp
      · rw [List.pairwise_append]
        refine ⟨?_, hsorted, ?_⟩
        · split
          · exact .nil
          · exact List.pairwise_singleton _ _
        · intro b hb c hc
          have hbc : b = a.collectionAbove := by
            split at hb
            · cases hb
            · exact List.mem_singleton.mp hb
          obtain ⟨k, hk, rfl⟩ := above_iff.mp ((hmem c).mp hc).2
          rw [hbc, length_upTo (Nat.le_of_lt hk)]
          exact hk
      · intro stops
        rw [trail_iff_of_ok hstep, hstart]
        constructor
        · rintro ⟨rest, hrest, rfl⟩
          rw [(htrail rest).mp hrest]
          rfl
        · rintro rfl
          exact ⟨_, (htrail _).mpr rfl, rfl⟩

end Address

section Laws

variable {α β : Type} {address : α → Address} {around : α → β} {child : α → String → α}
  {parent parentCollection : α → Except PathError α} (place : β → Address → α)

/-- What carries an address along, in surroundings that no step looks at, goes up like the
address. -/
theorem UpwardLaws.of_address (haddress : ∀ b a, address (place b a) = a)
    (haround : ∀ b a, around (place b a) = b) (hplace : ∀ p, place (around p) (address p) = p)
    (hchild : ∀ b a path, child (place b a) path = place b (a.child path))
    (hparent : ∀ b a, parent (place b a) = a.parent.map (place b))
    (hcollection : ∀ b a, parentCollection (place b a) = a.parentCollection.map (place b)) :
    UpwardLaws address around child parent parentCollection := by
  have hexists : ∀ p, ∃ b a, p = place b a := fun p => ⟨_, _, (hplace p).symm⟩
  have hclimb : ∀ b n a, climb parent n (place b a) =
      if n ≤ a.length then .ok (place b (a.upTo (a.length - n))) else .error .noParentOfRoot := by
    intro b n a
    rw [climb_map (hparent b), Address.climb_parent]
    split <;> rfl
  constructor
  case back =>
    intro p path
    obtain ⟨b, a, rfl⟩ := hexists p
    rw [hchild, hclimb, Address.length_child, if_pos (Nat.le_add_left _ _), Nat.add_sub_cancel,
      Address.upTo_child]
  case steps =>
    intro p n hn
    obtain ⟨b, a, rfl⟩ := hexists p
    rw [haddress] at hn
    refine ⟨place b (a.upTo (a.length - n)), ?_, ?_, ?_, ?_⟩
    · rw [hclimb, if_pos hn]
    · rw [haround, haround]
    · rw [haddress, haddress]
      exact List.take_prefix _ _
    · rw [haddress, haddress, Address.length_upTo (Nat.sub_le _ _), Nat.sub_add_cancel hn]
  case ends =>
    intro p
    obtain ⟨b, a, rfl⟩ := hexists p
    refine ⟨place b Address.root, ?_, ?_, ?_⟩
    · rw [haddress, hclimb, if_pos (Nat.le_refl _), Nat.sub_self, Address.upTo_zero]
    · rw [haround, haround]
    · rw [haddress]
      rfl
  case fails =>
    intro p n hn
    obtain ⟨b, a, rfl⟩ := hexists p
    rw [haddress] at hn
    rw [hclimb, if_neg (Nat.not_le.mpr hn)]
  case kinds =>
    intro p q hpq
    obtain ⟨b, a, rfl⟩ := hexists p
    rw [hparent, map_eq_ok_iff] at hpq
    obtain ⟨c, hc, rfl⟩ := hpq
    rw [haddress, haddress]
    exact Address.kind_of_parent hc
  case collection =>
    intro p hp
    obtain ⟨b, a, rfl⟩ := hexists p
    rw [haddress] at hp ⊢
    have hlength : a.length ≠ 0 := by
      rw [← Bool.not_eq_true, Address.isRoot_iff_length] at hp
      exact hp
    refine ⟨place b a.collectionAbove, ?_, ?_, ?_⟩
    · rw [hcollection, Address.parentCollection_eq, if_neg hlength]
      rfl
    · rw [haround, haround]
    · rw [haddress]
      exact Address.isCollectionAbove_collectionAbove hlength
  case noCollection =>
    intro p hp
    obtain ⟨b, a, rfl⟩ := hexists p
    rw [haddress, Address.isRoot_iff_length] at hp
    rw [hcollection, Address.parentCollection_eq, if_pos hp]
    rfl
  case collections =>
    intro p
    obtain ⟨b, a, rfl⟩ := hexists p
    obtain ⟨above, hmem, hsorted, htrail⟩ := a.exists_collections_above
    refine ⟨above.map (place b), place b Address.root, ?_, ?_, ?_, ?_, ?_⟩
    · intro q
      obtain ⟨b', c, rfl⟩ := hexists q
      rw [List.mem_map, haround, haround, haddress, haddress, ← hmem]
      constructor
      · rintro ⟨d, hd, heq⟩
        have hdc : d = c := by rw [← haddress b d, heq, haddress]
        have hbb : b = b' := by rw [← haround b d, heq, haround]
        exact ⟨hbb.symm, hdc ▸ hd⟩
      · rintro ⟨rfl, hc⟩
        exact ⟨c, hc, rfl⟩
    · rw [List.pairwise_map]
      simpa only [haddress] using hsorted
    · rw [haround, haround]
    · rw [haddress]
      rfl
    · intro stops
      rw [trail_map_iff (hcollection b), haddress]
      constructor
      · rintro ⟨rest, hrest, rfl⟩
        rw [(htrail rest).mp hrest]
        cases a.isRoot <;> simp
      · rintro rfl
        refine ⟨_, (htrail _).mpr rfl, ?_⟩
        cases a.isRoot <;> simp

end Laws

/-- Addresses, and references with their database, go up by the same laws: as many steps as a path
has pieces undo going down by it; there are as many steps as segments, through collections and
documents in turn to the root; and the collections above are passed from the longest to the
shortest. -/
theorem ways_up_undo_ways_down :
    UpwardLaws (fun a : Address => a) (fun _ => ()) Address.child Address.parent
      Address.parentCollection ∧
    UpwardLaws Reference.address Reference.database Reference.child Reference.parent
      Reference.parentCollection := by
  have hmap : ∀ x : Except PathError Address, x = x.map fun a => a := by
    intro x
    cases x <;> rfl
  constructor
  · exact .of_address (fun _ a => a) (fun _ _ => rfl) (fun _ _ => rfl) (fun _ => rfl)
      (fun _ _ _ => rfl) (fun _ a => hmap a.parent) (fun _ a => hmap a.parentCollection)
  · exact .of_address (fun db a => ⟨a, db⟩) (fun _ _ => rfl) (fun _ _ => rfl)
      (fun _ => rfl) (fun _ _ _ => rfl) (fun _ _ => rfl) (fun _ _ => rfl)

/-- Two of four segments lead back, a fifth step fails, and two collections are passed on the way. -/
theorem ways_up_undo_ways_down_four_segments :
    let db := Database.sample
    let r := db.reference "users/u1"
    let s := r.child "/posts//p1/"
    let posts := db.reference "users/u1/posts"
    let users := db.reference "users"
    climb Reference.parent 2 s = .ok r ∧ climb Reference.parent 5 s = .error .noParentOfRoot ∧
      posts.address.IsCollectionAbove s.address ∧
      Trail Reference.parentCollection s [s, posts, users, db.reference ""] ∧
      ∀ q : Reference, q.database = db → q.address.isCollection = true →
        q.address.Above s.address → q = posts ∨ q = users := by
  intro db r s posts users
  obtain ⟨-, laws⟩ := ways_up_undo_ways_down
  have hstep : ∀ t u : Reference, t.address.length ≠ 0 →
      u = ⟨t.address.collectionAbove, t.database⟩ → t.parentCollection = .ok u := by
    rintro t u ht rfl
    rw [Reference.parentCollection, Address.parentCollection_eq, if_neg ht]
    rfl
  have hup := hstep s posts (by decide) (by decide)
  have htrail : Trail Reference.parentCollection s [s, posts, users, db.reference ""] :=
    .up hup (.up (hstep posts users (by decide) (by decide))
      (.up (hstep users _ (by decide) (by decide)) (.top (laws.noCollection _ (by decide)))))
  obtain ⟨q, hq, -, habove⟩ := laws.collection s (by decide)
  rw [hup, Except.ok.injEq] at hq
  subst hq
  obtain ⟨above, top, hmem, -, -, -, hstops⟩ := laws.collections s
  have hlist : [posts, users] ++ [db.reference ""] = above ++ [top] :=
    (List.cons.inj ((hstops _).mp htrail)).2
  obtain ⟨habove', -⟩ := List.append_inj' hlist rfl
  refine ⟨laws.back r "/posts//p1/", laws.fails s 5 (by decide), habove, htrail, ?_⟩
  intro q hdb hcollection hq
  have hq' : q ∈ [posts, users] := habove' ▸ (hmem q).mpr ⟨hdb, hcollection, hq⟩
  simpa using hq'

end DocStore
