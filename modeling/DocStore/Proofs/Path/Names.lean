import DocStore.Database.Basic
import DocStore.Proofs.Path.Addresses

/-!
# Resource names read back

A resource name is the name of a database with a printed address behind it, so
inside one database names and addresses correspond to each other. Names of
different databases are not compared here.
-/

set_option autoImplicit false

namespace DocStore

theorem Database.beq_iff {a b : Database} :
    (a == b) = true ↔ a.rootPath = b.rootPath ∧ a.endpoint = b.endpoint := by
  simp only [BEq.beq, Bool.and_eq_true, decide_eq_true_eq]

namespace Reference

theorem toList_below (r : Reference) (start : String) :
    (r.below start).toList = start.toList ++ r.address.suffix := by
  rw [below, Address.suffix_eq, isRoot]
  split <;> simp [path]

theorem below_injective {r s : Reference} {start : String} (h : r.below start = s.below start) :
    r.address = s.address := by
  have hl := congrArg String.toList h
  rw [toList_below, toList_below, List.append_cancel_left_eq] at hl
  exact Address.suffix_injective hl

theorem below_child_text (r : Reference) (s : Segment) (start : String) :
    ((r.child s.text).below start).toList =
      (r.below start).toList ++ separator :: s.text.toList := by
  rw [toList_below, toList_below, child, Address.child_text_suffix, List.append_assoc]

theorem parent_eq_ok_iff {r p : Reference} :
    r.parent = .ok p ↔ r.address.parent = .ok p.address ∧ r.database = p.database := by
  unfold parent
  cases h : r.address.parent with
  | error e => simp [Except.map]
  | ok a =>
    cases p
    simp [Except.map]

theorem child_id_of_parent {r p : Reference} (h : r.parent = .ok p) : p.child r.id = r := by
  obtain ⟨ha, hd⟩ := parent_eq_ok_iff.mp h
  cases r
  simp only at ha hd
  rw [child, id, (Address.child_id_eq_iff ha).mpr rfl, hd]

theorem exists_id_of_parent {r p : Reference} (h : r.parent = .ok p) :
    ∃ s : Segment, r.id = s.text := by
  have ha := (parent_eq_ok_iff.mp h).1
  cases hr : r.address.isRoot with
  | true => simp [Address.parent, hr] at ha
  | false =>
    obtain ⟨-, s, -, -, hid⟩ := Address.exists_parent hr
    exact ⟨s, hid⟩

theorem exists_parent_of_isCollection {r : Reference} (h : r.isCollection = true) :
    ∃ p : Reference, r.parent = .ok p := by
  obtain ⟨b, -, -, hb, -⟩ := Address.exists_parent (Address.isRoot_of_isCollection h)
  exact ⟨⟨b, r.database⟩, parent_eq_ok_iff.mpr ⟨hb, rfl⟩⟩

theorem beq_iff {r s : Reference} :
    (r == s) = true ↔ r.address = s.address ∧ (r.database == s.database) = true := by
  simp only [BEq.beq, Bool.and_eq_true, decide_eq_true_eq]

theorem beq_refl (r : Reference) : (r == r) = true :=
  beq_iff.mpr ⟨rfl, Database.beq_iff.mpr ⟨rfl, rfl⟩⟩

theorem beq_symm {r s : Reference} (h : (r == s) = true) : (s == r) = true := by
  obtain ⟨ha, hd⟩ := beq_iff.mp h
  obtain ⟨hp, he⟩ := Database.beq_iff.mp hd
  exact beq_iff.mpr ⟨ha.symm, Database.beq_iff.mpr ⟨hp.symm, he.symm⟩⟩

theorem beq_trans {r s t : Reference} (h : (r == s) = true) (h' : (s == t) = true) :
    (r == t) = true := by
  obtain ⟨ha, hd⟩ := beq_iff.mp h
  obtain ⟨hp, he⟩ := Database.beq_iff.mp hd
  obtain ⟨ha', hd'⟩ := beq_iff.mp h'
  obtain ⟨hp', he'⟩ := Database.beq_iff.mp hd'
  exact beq_iff.mpr ⟨ha.trans ha', Database.beq_iff.mpr ⟨hp.trans hp', he.trans he'⟩⟩

theorem endpoint_of_beq {r s : Reference} (h : (r == s) = true) : r.endpoint = s.endpoint := by
  obtain ⟨ha, hd⟩ := beq_iff.mp h
  rw [endpoint, endpoint, (Database.beq_iff.mp hd).2, below, below, isRoot, isRoot, path, path, ha]

theorem child_beq {p p' : Reference} (h : (p == p') = true) (path : String) :
    (p.child path == p'.child path) = true := by
  obtain ⟨ha, hd⟩ := beq_iff.mp h
  exact beq_iff.mpr ⟨by simp only [child, ha], hd⟩

/-- An id leads to its reference below the parent of the reference and nowhere else. -/
theorem child_id_beq_iff {r p p' : Reference} (h : r.parent = .ok p) :
    (p'.child r.id == r) = true ↔ (p == p') = true := by
  constructor
  · intro hc
    obtain ⟨ha, hd⟩ := beq_iff.mp hc
    obtain ⟨hpa, hpd⟩ := parent_eq_ok_iff.mp h
    have hp : p'.address = p.address := (Address.child_id_eq_iff hpa).mp ha
    refine beq_symm (beq_iff.mpr ⟨hp, ?_⟩)
    rw [← hpd]
    exact hd
  · intro hp
    have hc := child_beq (beq_symm hp) r.id
    rwa [child_id_of_parent h] at hc

theorem beq_of_endpoint_eq {p q : Reference} (h : p.endpoint = q.endpoint)
    (hd : (p.database == q.database) = true) : (p == q) = true := by
  rw [endpoint, endpoint, (Database.beq_iff.mp hd).2] at h
  exact beq_iff.mpr ⟨below_injective h, hd⟩

end Reference

namespace Database

def sample : Database := ⟨{ projectId := "p" }, 0, by decide⟩

theorem textAfter?_append (start rest : List Char) :
    textAfter? start (start ++ rest) = some rest := by
  simp [textAfter?]

/-- A database reads the names of its own references back. -/
theorem referenceFromName?_name (r : Reference) :
    r.database.referenceFromName? r.name = some r := by
  rw [referenceFromName?, Reference.name, Reference.toList_below, textAfter?_append]
  simp only [r.address.suffix_starts, if_true, reference, r.address.parse_suffix]

end Database

end DocStore
