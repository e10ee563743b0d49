import DocStore.Proofs.Query.Conditions
import Mathlib.Logic.Relation

/-!
# Combined filters

Conditions can be put together in groups, and the groups in groups again. A group
of one filter is that filter and a group of none is nothing at all, so a group
that is left over has two parts at least. Main statements: the leaves of what
comes out are the conditions in their order, however they were grouped; and a
filter is one level deep as long as no conjunction is put together with another
filter, but nothing prevents that.
-/

set_option autoImplicit false

namespace DocStore

namespace Filter

theorem leavesOf_append (fs gs : List Filter) :
    leavesOf (fs ++ gs) = leavesOf fs ++ leavesOf gs := by
  induction fs with
  | nil => rfl
  | cons f fs ih => rw [List.cons_append, leavesOf, leavesOf, ih, List.append_assoc]

theorem mem_leavesOf_iff {leaf : Filter} {fs : List Filter} :
    leaf ∈ leavesOf fs ↔ ∃ f ∈ fs, leaf ∈ f.leaves := by
  induction fs with
  | nil => simp [leavesOf]
  | cons f fs ih => simp [leavesOf, ih]

mutual

theorem size_eq_length_leaves : (f : Filter) → f.size = f.leaves.length
  | field _ _ _ => rfl
  | unary _ _ => rfl
  | conjunction fs => totalSize_eq_length_leavesOf fs

theorem totalSize_eq_length_leavesOf : (fs : List Filter) → totalSize fs = (leavesOf fs).length
  | [] => rfl
  | f :: fs => by
    rw [totalSize, leavesOf, List.length_append, size_eq_length_leaves f,
      totalSize_eq_length_leavesOf fs]

end

inductive Branches : Filter → Prop
  | field (path : String) (op : Operator) (operand : Operand) : Branches (.field path op operand)
  | unary (path : String) (op : UnaryOperator) : Branches (.unary path op)
  | conjunction {fs : List Filter} (hlen : 2 ≤ fs.length) (h : ∀ f ∈ fs, Branches f) :
      Branches (.conjunction fs)

theorem Branches.leaves_ne_nil {f : Filter} (h : f.Branches) : f.leaves ≠ [] := by
  induction h with
  | field => exact List.cons_ne_nil _ _
  | unary => exact List.cons_ne_nil _ _
  | @conjunction fs hlen _ ih =>
    obtain ⟨f, hf⟩ := List.exists_mem_of_length_pos (Nat.lt_of_lt_of_le Nat.zero_lt_two hlen)
    obtain ⟨leaf, hleaf⟩ := List.exists_mem_of_ne_nil _ (ih f hf)
    exact List.ne_nil_of_mem (mem_leavesOf_iff.mpr ⟨f, hf, hleaf⟩)

theorem IsCondition.branches {f : Filter} (h : f.IsCondition) : f.Branches := by
  cases h with
  | unary => exact .unary _ _
  | scalar | list => exact .field _ _ _

theorem all_of_two {fs : List Filter} (h : 2 ≤ fs.length) : all fs = some (.conjunction fs) := by
  match fs, h with
  | _ :: _ :: _, _ => rfl

theorem all_toList (f : Option Filter) : all f.toList = f := by
  cases f <;> rfl

theorem all_eq_some_iff {fs : List Filter} {f : Filter} :
    all fs = some f ↔ fs = [f] ∨ 2 ≤ fs.length ∧ f = .conjunction fs := by
  match fs with
  | [] => simp [all]
  | [g] => simp [all]
  | g :: g' :: gs =>
    rw [all_of_two (by simp), Option.some.injEq, eq_comm]
    simp

theorem branches_all {fs : List Filter} {f : Filter} (hfs : ∀ g ∈ fs, g.Branches)
    (h : all fs = some f) : f.Branches := by
  rcases all_eq_some_iff.mp h with rfl | ⟨hlen, rfl⟩
  · exact hfs f (List.mem_singleton_self f)
  · exact .conjunction hlen hfs

structure Clause where
  path : Value
  op : Value
  value : Value

def Clause.filter? (c : Clause) : Option Filter := (condition c.path c.op c.value).toOption

inductive Combination where
  | clause (c : Clause)
  | all (parts : List Combination)

namespace Combination

mutual

def result : Combination → Option Filter
  | clause c => c.filter?
  | all parts => Filter.all (results parts)

def results : List Combination → List Filter
  | [] => []
  | part :: parts => part.result.toList ++ results parts

end

mutual

def clauses : Combination → List Clause
  | clause c => [c]
  | all parts => clausesOf parts

def clausesOf : List Combination → List Clause
  | [] => []
  | part :: parts => part.clauses ++ clausesOf parts

end

def conditions (t : Combination) : List Filter := t.clauses.filterMap Clause.filter?

theorem results_append (before after : List Combination) :
    results (before ++ after) = results before ++ results after := by
  induction before with
  | nil => rfl
  | cons part before ih => rw [List.cons_append, results, results, ih, List.append_assoc]

mutual

theorem leaves_result : (t : Combination) → t.result.elim [] leaves = t.conditions
  | clause c => by
    rw [result, conditions, clauses]
    cases h : condition c.path c.op c.value with
    | error e => simp [Clause.filter?, h, Except.toOption]
    | ok f =>
      have hleaves := leaves_of_makes (condition_eq_ok_iff.mp h)
      simp [Clause.filter?, h, Except.toOption, hleaves]
  | all parts => (leaves_all (results parts)).trans (leavesOf_results parts)

theorem leavesOf_results : (parts : List Combination) →
    leavesOf (results parts) = (clausesOf parts).filterMap Clause.filter?
  | [] => rfl
  | part :: parts => by
    have hpart : leavesOf part.result.toList = part.result.elim [] leaves := by
      rw [← leaves_all, all_toList]
    rw [results, leavesOf_append, hpart, leaves_result part, leavesOf_results parts, clausesOf,
      List.filterMap_append, conditions]

end

mutual

theorem branches_result : (t : Combination) → ∀ f, t.result = some f → f.Branches
  | clause c => by
    intro f h
    have hcondition : condition c.path c.op c.value = .ok f := by
      rw [result, Clause.filter?] at h
      cases hc : condition c.path c.op c.value with
      | error e => simp [hc, Except.toOption] at h
      | ok g => simpa [hc, Except.toOption] using h
    exact (isCondition_of_condition hcondition).branches
  | all parts => fun _ h => branches_all (branches_results parts) h

theorem branches_results : (parts : List Combination) → ∀ f ∈ results parts, f.Branches
  | [] => by simp [results]
  | part :: parts => by
    intro f hf
    rw [results, List.mem_append, Option.mem_toList] at hf
    rcases hf with hf | hf
    · exact branches_result part f hf
    · exact branches_results parts f hf

end

theorem result_eq_none_iff {t : Combination} : t.result = none ↔ t.conditions = [] := by
  rw [← leaves_result]
  cases h : t.result with
  | none => simp
  | some f => simp [(branches_result t f h).leaves_ne_nil]

/-- The second combination has one group more, around one part or around none, at any place. -/
inductive Inserts : Combination → Combination → Prop
  | around (t : Combination) : Inserts t (.all [t])
  | empty (before after : List Combination) :
      Inserts (.all (before ++ after)) (.all (before ++ .all [] :: after))
  | within (before after : List Combination) {t u : Combination} (h : Inserts t u) :
      Inserts (.all (before ++ t :: after)) (.all (before ++ u :: after))

theorem Inserts.result_eq {t u : Combination} (h : Inserts t u) : u.result = t.result := by
  induction h with
  | around t =>
    rw [result, results, results, List.append_nil, all_toList]
  | empty before after =>
    rw [result, result, results_append, results_append]
    rfl
  | within before after _ ih =>
    rw [result, result, results_append, results_append, results, results, ih]

/-- Of clauses combined in any way nothing comes out exactly if none of them makes a condition.
Otherwise the leaves of the filter are the conditions from left to right, so many are counted, and
at every depth a conjunction has two parts or more. Groups around one part or around none can be put
in and taken out, any number of them and anywhere, without a change. -/
theorem combining_keeps_conditions (t : Combination) :
    (t.result = none ↔ ∀ c ∈ t.clauses, ∀ f, condition c.path c.op c.value ≠ .ok f) ∧
    (∀ f, t.result = some f →
      f.leaves = t.conditions ∧ f.size = t.conditions.length ∧ 1 ≤ f.size ∧ f.Branches) ∧
    ∀ u, Relation.EqvGen Inserts t u → u.result = t.result := by
  refine ⟨?none, ?some, ?groups⟩
  case none =>
    rw [result_eq_none_iff, conditions, List.filterMap_eq_nil_iff]
    refine forall₂_congr fun c _ => ?_
    rw [Clause.filter?]
    cases condition c.path c.op c.value <;> simp [Except.toOption]
  case some =>
    intro f h
    have hleaves := leaves_result t
    rw [h, Option.elim_some] at hleaves
    have hbranches := branches_result t f h
    have hpos := List.length_pos_iff.mpr hbranches.leaves_ne_nil
    rw [size_eq_length_leaves, ← hleaves]
    exact ⟨rfl, rfl, hpos, hbranches⟩
  case groups =>
    intro u h
    induction h with
    | rel t u h => exact h.result_eq
    | refl t => rfl
    | symm t u _ ih => exact ih.symm
    | trans t u v _ _ ih ih' => exact ih'.trans ih

/-- Tests for null and NaN and one comparison; a clause with a bad operator makes no condition. -/
theorem combining_keeps_conditions_refused_between :
    let a : Clause := ⟨.string "a", .string "==", .null⟩
    let b : Clause := ⟨.string "b", .string "==", .double .nan⟩
    let c : Clause := ⟨.string "c", .string "<", .integer 1⟩
    let refused : Clause := ⟨.string "d", .string "===", .null⟩
    let inner : Combination := .all [.clause b, .clause refused, .clause c]
    let plain : Combination := .all [.clause a, inner, .clause refused]
    let padded : Combination := .all [.clause a, .all [], .all [inner], .clause refused]
    let leaves : List Filter :=
      [.unary "a" .isNull, .unary "b" .isNaN, .field "c" .less (.scalar (.integer 1))]
    (∃ f, plain.result = some f ∧ f.leaves = leaves ∧ f.size = 3 ∧ f.Branches ∧
      padded.result = some f) ∧
    Combination.result (.all [.all [], .clause refused]) = none := by
  intro a b c refused inner plain padded leaves
  obtain ⟨-, hsome, hgroups⟩ := combining_keeps_conditions plain
  have hplain : plain.result =
      some (.conjunction [.unary "a" .isNull,
        .conjunction [.unary "b" .isNaN, .field "c" .less (.scalar (.integer 1))]]) := rfl
  obtain ⟨hleaves, hsize, -, hbranches⟩ := hsome _ hplain
  -- First a group around the inner one, then an empty one in front of it.
  have haround : Inserts plain (.all [.clause a, .all [inner], .clause refused]) :=
    .within [.clause a] [.clause refused] (.around inner)
  have hempty : Inserts (.all [.clause a, .all [inner], .clause refused]) padded :=
    .empty [.clause a] [.all [inner], .clause refused]
  have hpadded := hgroups padded (.trans _ _ _ (.rel _ _ haround) (.rel _ _ hempty))
  refine ⟨⟨_, hplain, hleaves, hsize, hbranches, hpadded.trans hplain⟩, ?_⟩
  rw [(combining_keeps_conditions _).1]
  have hrefused : condition refused.path refused.op refused.value =
      .error (.invalidArgument .filter .badOperator) := rfl
  intro clause hclause f hf
  rw [List.mem_singleton.mp hclause, hrefused] at hf
  cases hf

end Combination

def isComposite : Filter → Bool
  | conjunction _ => true
  | _ => false

def OneLevel : Filter → Prop
  | conjunction fs => ∀ f ∈ fs, f.isComposite = false
  | _ => True

inductive Constructed : Filter → Prop
  | condition {path op v : Value} {f : Filter} (h : Filter.condition path op v = .ok f) :
      Constructed f
  | all {fs : List Filter} {f : Filter} (hfs : ∀ g ∈ fs, Constructed g)
      (h : Filter.all fs = some f) : Constructed f
  | parse {v : Value} {f : Filter} (h : Filter.parse v = .ok (some f)) : Constructed f

theorem IsCondition.isComposite_eq {f : Filter} (h : f.IsCondition) : f.isComposite = false := by
  cases h <;> rfl

theorem oneLevel_of_not_composite {f : Filter} (h : f.isComposite = false) : f.OneLevel := by
  cases f with
  | conjunction fs => cases h
  | _ => trivial

theorem IsFlat.oneLevel {f : Filter} (h : f.IsFlat) : f.OneLevel := by
  cases h with
  | condition h => exact oneLevel_of_not_composite h.isComposite_eq
  | conjunction _ h => exact fun g hg => (h g hg).isComposite_eq

theorem IsFlat.branches {f : Filter} (h : f.IsFlat) : f.Branches := by
  cases h with
  | condition h => exact h.branches
  | conjunction hlen h => exact .conjunction hlen fun g hg => (h g hg).branches

/-- A group is one level deep if its only part is, or if none of several parts is a conjunction. -/
theorem oneLevel_all_iff {fs : List Filter} {f : Filter} (h : all fs = some f) :
    f.OneLevel ↔ (∀ g, fs = [g] → g.OneLevel) ∧
      (2 ≤ fs.length → ∀ g ∈ fs, g.isComposite = false) := by
  rcases all_eq_some_iff.mp h with rfl | ⟨hlen, rfl⟩
  · simp
  · constructor
    · intro hone
      refine ⟨?_, fun _ => hone⟩
      rintro g rfl
      exact oneLevel_of_not_composite (hone g (List.mem_singleton_self g))
    · exact fun hparts => hparts.2 hlen

def Makeable (f : Filter) : Prop := ∀ leaf ∈ f.leaves, ∃ path op v, Makes path op v leaf

theorem Constructed.makeable {f : Filter} (h : f.Constructed) : f.Makeable := by
  induction h with
  | condition h =>
    have hmakes := condition_eq_ok_iff.mp h
    intro leaf hleaf
    rw [leaves_of_makes hmakes, List.mem_singleton] at hleaf
    exact ⟨_, _, _, hleaf ▸ hmakes⟩
  | @all fs f _ h ih =>
    have hleaves := leaves_all fs
    rw [h, Option.elim_some] at hleaves
    intro leaf hleaf
    rw [hleaves] at hleaf
    obtain ⟨g, hg, hleaf⟩ := mem_leavesOf_iff.mp hleaf
    exact ih g hg leaf hleaf
  | parse h => exact fun leaf hleaf => makes_of_parse h hleaf

theorem Constructed.branches {f : Filter} (h : f.Constructed) : f.Branches := by
  induction h with
  | condition h => exact (isCondition_of_condition h).branches
  | all _ h ih => exact branches_all ih h
  | parse h => exact (isFlat_of_parse h).branches

/-- The constructors reach every depth: any tree of conjunctions can be put together. -/
theorem constructed_of_branches {f : Filter} (h : f.Branches) (hleaves : f.Makeable) :
    f.Constructed := by
  induction h with
  | field =>
    obtain ⟨_, _, _, hmakes⟩ := hleaves _ (List.mem_singleton_self _)
    exact .condition (condition_of_makes hmakes)
  | unary =>
    obtain ⟨_, _, _, hmakes⟩ := hleaves _ (List.mem_singleton_self _)
    exact .condition (condition_of_makes hmakes)
  | @conjunction fs hlen _ ih =>
    refine .all (fun g hg => ih g hg fun leaf hleaf => hleaves leaf ?_) (all_of_two hlen)
    exact mem_leavesOf_iff.mpr ⟨g, hg, hleaf⟩

/-- A single condition, what is read from an option and the filter of a query are one level deep.
What is put together is so as long as no conjunction is put together with another filter. There is
no other limit: the constructors give all the conjunctions of two parts or more, at any depth, over
conditions that can be made. -/
theorem conjunctions_nest_by_combining (f : Filter) :
    (∀ path op v, condition path op v = .ok f → f.OneLevel) ∧
    (∀ v, parse v = .ok (some f) → f.OneLevel) ∧
    (∀ q : Query, q.Reachable → q.filter = some f → f.OneLevel) ∧
    (∀ fs, all fs = some f → (f.OneLevel ↔
      (∀ g, fs = [g] → g.OneLevel) ∧ (2 ≤ fs.length → ∀ g ∈ fs, g.isComposite = false))) ∧
    (f.Constructed ↔ f.Branches ∧ f.Makeable) :=
  ⟨fun _ _ _ h => oneLevel_of_not_composite (isCondition_of_condition h).isComposite_eq,
    fun _ h => (isFlat_of_parse h).oneLevel,
    fun _ hq hf => (hq.wellFormed.filter f hf).oneLevel,
    fun _ h => oneLevel_all_iff h,
    ⟨fun h => ⟨h.branches, h.makeable⟩, fun h => constructed_of_branches h.1 h.2⟩⟩

/-- A query over two conditions, and its filter put together with a third condition. -/
theorem conjunctions_nest_by_combining_third :
    let isNull (s : String) : Value := .array [.string s, .string "==", .null]
    let flat : Filter := .conjunction [.unary "a" .isNull, .unary "b" .isNull]
    let nested : Filter := .conjunction [flat, .unary "c" .isNull]
    let q : Query :=
      { Query.ofCollections [Database.sample.reference "users"] with filter := some flat }
    parse (.array [isNull "a", isNull "b"]) = .ok (some flat) ∧ q.Reachable ∧ flat.OneLevel ∧
      all [flat, .unary "c" .isNull] = some nested ∧ nested.Constructed ∧ ¬ nested.OneLevel := by
  intro isNull flat nested q
  obtain ⟨-, -, hquery, -, hflatConstructed⟩ := conjunctions_nest_by_combining flat
  obtain ⟨-, -, -, hall, hconstructed⟩ := conjunctions_nest_by_combining nested
  have hflat : parse (.array [isNull "a", isNull "b"]) = .ok (some flat) := rfl
  have hq : q.Reachable :=
    @Query.Reachable.new
      { source := some (.reference (Database.sample.reference "users"))
        filter := some (.array [isNull "a", isNull "b"]) } ⟨.warn, fun _ => .ok .null⟩ q rfl
  have hnested : all [flat, .unary "c" .isNull] = some nested := rfl
  have hdeep : nested.Branches := by
    refine .conjunction (by decide) (List.forall_mem_cons.mpr ⟨?_, ?_⟩)
    · exact (hflatConstructed.mp (.parse hflat)).1
    · exact List.forall_mem_singleton.mpr (.unary "c" .isNull)
  have hmakeable : nested.Makeable := by
    intro leaf hleaf
    have hleaves : nested.leaves =
        [.unary "a" .isNull, .unary "b" .isNull, .unary "c" .isNull] := rfl
    rw [hleaves] at hleaf
    simp only [List.mem_cons, List.not_mem_nil, or_false] at hleaf
    rcases hleaf with rfl | rfl | rfl
    · exact ⟨_, _, _, .null "a"⟩
    · exact ⟨_, _, _, .null "b"⟩
    · exact ⟨_, _, _, .null "c"⟩
  refine ⟨hflat, hq, hquery q hq rfl, hnested, hconstructed.mpr ⟨hdeep, hmakeable⟩, ?_⟩
  rw [hall _ hnested]
  rintro ⟨-, hparts⟩
  cases hparts (by decide) flat (List.mem_cons_self ..)

/-- Three conditions, the first two of which are put together before the third is added. -/
theorem nested_conjunction_constructed :
    let nested : Filter :=
      .conjunction [.conjunction [.unary "a" .isNull, .unary "b" .isNull], .unary "c" .isNull]
    nested.Constructed ∧ ¬ nested.OneLevel := by
  intro nested
  have hcondition : ∀ s, Constructed (.unary s .isNull) := fun s =>
    .condition (condition_of_makes (.null s))
  have hpair : Constructed (.conjunction [.unary "a" .isNull, .unary "b" .isNull]) :=
    @Constructed.all [.unary "a" .isNull, .unary "b" .isNull] _ (by simp [hcondition]) rfl
  refine ⟨@Constructed.all [.conjunction _, .unary "c" .isNull] _ (by simp [hcondition, hpair]) rfl,
    ?_⟩
  intro hone
  cases hone _ (List.mem_cons_self ..)

end Filter

end DocStore
