/-!
# Collecting results

A function that may fail, applied to each element of a list in turn. The first
failure ends it and is the failure of the whole.
-/

set_option autoImplicit false

namespace DocStore

variable {ε α β : Type}

def collect (f : α → Except ε β) : List α → Except ε (List β)
  | [] => .ok []
  | a :: as =>
    match f a with
    | .error e => .error e
    | .ok b =>
      match collect f as with
      | .error e => .error e
      | .ok bs => .ok (b :: bs)

theorem bind_eq_ok_iff {x : Except ε α} {f : α → Except ε β} {b : β} :
    (x >>= f) = .ok b ↔ ∃ a, x = .ok a ∧ f a = .ok b := by
  cases x with
  | error e =>
    constructor
    · intro h
      cases h
    · rintro ⟨a, h, -⟩
      cases h
  | ok a =>
    constructor
    · intro h
      exact ⟨a, rfl, h⟩
    · rintro ⟨a, h, hf⟩
      cases h
      exact hf

/-- A chain fails where its first part fails, or else its second. -/
theorem bind_eq_error_iff {x : Except ε α} {f : α → Except ε β} {e : ε} :
    (x >>= f) = .error e ↔ x = .error e ∨ ∃ a, x = .ok a ∧ f a = .error e := by
  cases x with
  | error e' => simp [bind, Except.bind]
  | ok a => simp [bind, Except.bind]

theorem map_eq_ok_iff {x : Except ε α} {f : α → β} {b : β} :
    x.map f = .ok b ↔ ∃ a, x = .ok a ∧ f a = b := by
  cases x <;> simp [Except.map]

theorem map_eq_error_iff {x : Except ε α} {f : α → β} {e : ε} :
    x.map f = .error e ↔ x = .error e := by
  cases x <;> simp [Except.map]

/-- Collecting succeeds exactly when every element does, and keeps their order. -/
theorem collect_eq_ok_iff {f : α → Except ε β} {as : List α} {bs : List β} :
    collect f as = .ok bs ↔ as.map f = bs.map .ok := by
  induction as generalizing bs with
  | nil =>
    cases bs <;> simp [collect]
  | cons a as ih =>
    unfold collect
    cases hf : f a with
    | error e => cases bs <;> simp [hf]
    | ok b =>
      cases hc : collect f as with
      | error e =>
        have hn : ∀ cs : List β, as.map f ≠ cs.map .ok := by
          intro cs hcs
          have := ih.mpr hcs
          simp [hc] at this
        cases bs with
        | nil => simp
        | cons c cs => simp [hf, hn cs]
      | ok cs =>
        have hm := ih.mp hc
        cases bs with
        | nil => simp
        | cons c ds =>
          have hinj : ∀ xs ys : List β, (xs.map .ok : List (Except ε β)) = ys.map .ok ↔ xs = ys :=
            fun xs ys => List.map_inj_right fun _ _ h => Except.ok.inj h
          simp [hf, hm, hinj]

theorem collect_eq_ok_length {f : α → Except ε β} {as : List α} {bs : List β}
    (h : collect f as = .ok bs) : bs.length = as.length := by
  simpa using (congrArg List.length (collect_eq_ok_iff.mp h)).symm

theorem mem_of_collect_eq_ok {f : α → Except ε β} {as : List α} {bs : List β}
    (h : collect f as = .ok bs) {b : β} (hb : b ∈ bs) : ∃ a ∈ as, f a = .ok b := by
  have hm : Except.ok b ∈ as.map f := by
    rw [collect_eq_ok_iff.mp h]
    exact List.mem_map_of_mem hb
  exact List.mem_map.mp hm

/-- The first failure decides: everything before it succeeds. -/
theorem collect_eq_error_iff {f : α → Except ε β} {as : List α} {e : ε} :
    collect f as = .error e ↔
      ∃ before a after, as = before ++ a :: after ∧ (∀ b ∈ before, ∃ c, f b = .ok c) ∧
        f a = .error e := by
  induction as with
  | nil => simp [collect]
  | cons a as ih =>
    constructor
    · intro h
      unfold collect at h
      cases ha : f a with
      | error e' =>
        simp only [ha, Except.error.injEq] at h
        exact ⟨[], a, as, rfl, by simp, by rw [ha, h]⟩
      | ok b =>
        have hrest : collect f as = .error e := by
          simp only [ha] at h
          split at h <;> simp_all
        obtain ⟨before, a', after, rfl, hbefore, ha'⟩ := ih.mp hrest
        refine ⟨a :: before, a', after, rfl, ?_, ha'⟩
        exact List.forall_mem_cons.mpr ⟨⟨b, ha⟩, hbefore⟩
    · rintro ⟨before, a', after, hsplit, hbefore, ha'⟩
      cases before with
      | nil =>
        obtain ⟨rfl, rfl⟩ := List.cons.inj hsplit
        simp only [collect, ha']
      | cons b before =>
        obtain ⟨rfl, rfl⟩ := List.cons.inj hsplit
        obtain ⟨⟨c, hc⟩, hbefore⟩ := List.forall_mem_cons.mp hbefore
        simp only [collect, hc, ih.mpr ⟨before, a', after, rfl, hbefore, ha'⟩]

/-- What comes after a failure does not matter. -/
theorem collect_append_of_error {f : α → Except ε β} {before after : List α} {a : α} {e : ε}
    (h : f a = .error e) : collect f (before ++ a :: after) =
      match collect f before with
      | .error e' => .error e'
      | .ok _ => .error e := by
  induction before with
  | nil => simp only [List.nil_append, collect, h]
  | cons b before ih =>
    rw [List.cons_append, collect, collect, ih]
    cases f b with
    | error e' => rfl
    | ok c => cases collect f before <;> rfl

theorem exists_collect_eq_ok_iff {f : α → Except ε β} {as : List α} :
    (∃ bs, collect f as = .ok bs) ↔ ∀ a ∈ as, ∃ b, f a = .ok b := by
  cases h : collect f as with
  | ok bs =>
    have hall : ∀ a ∈ as, ∃ b, f a = .ok b := by
      intro a ha
      have hm : f a ∈ bs.map .ok := by
        rw [← collect_eq_ok_iff.mp h]
        exact List.mem_map_of_mem ha
      obtain ⟨b, -, hb⟩ := List.mem_map.mp hm
      exact ⟨b, hb.symm⟩
    exact ⟨fun _ => hall, fun _ => ⟨bs, rfl⟩⟩
  | error e =>
    obtain ⟨before, a, after, rfl, -, ha⟩ := collect_eq_error_iff.mp h
    constructor
    · rintro ⟨bs, hbs⟩
      cases hbs
    · intro hall
      obtain ⟨b, hb⟩ := hall a (by simp)
      rw [ha] at hb
      cases hb

theorem collect_map {γ : Type} {f : β → Except ε γ} {g : α → β} {as : List α} :
    collect f (as.map g) = collect (fun a => f (g a)) as := by
  induction as with
  | nil => rfl
  | cons a as ih => rw [List.map_cons, collect, collect, ih]

end DocStore
