import DocStore.Proofs.Query.Grammar

/-!
# Which options make a query

The options are checked one after the other, each by itself. Main statement: a
query is made exactly when every option is in its grammar, and otherwise the
error blames the first one that is not. The error depends on that option alone,
and each part of a query on its own option.
-/

set_option autoImplicit false

namespace DocStore

section Forget

variable {ε α β γ : Type}

def forget (x : Except ε α) : Except ε Unit := x.map fun _ => ()

theorem forget_eq_error_iff {x : Except ε α} {e : ε} : forget x = .error e ↔ x = .error e := by
  cases x <;> simp [forget, Except.map]

theorem exists_ok_iff_of_forget_eq {x : Except ε α} {y : Except ε β} (h : forget x = forget y) :
    (∃ a, x = .ok a) ↔ ∃ b, y = .ok b := by
  cases x <;> cases y <;> simp_all [forget, Except.map]

/-- A chain of checks goes as the checks collected do. -/
theorem forget_bind_eq_collect {x : Except ε α} {k : α → Except ε β} {f : γ → Except ε Unit}
    {c : γ} {cs : List γ} (hx : forget x = f c)
    (hk : ∀ a, forget (k a) = forget (collect f cs)) :
    forget (x >>= k) = forget (collect f (c :: cs)) := by
  rw [collect, ← hx]
  cases x with
  | error e => rfl
  | ok a =>
    have hbind : forget (Except.ok a >>= k) = forget (collect f cs) := hk a
    rw [hbind]
    simp only [forget, Except.map]
    cases collect f cs <;> rfl

end Forget

namespace Options

def checkOrder : List Argument :=
  [.select, .source, .filter, .order, .startAt, .endAt, .offset, .limit]

def value? (o : Options) : Argument → Option Value
  | .select => o.select
  | .source => o.source
  | .filter => o.filter
  | .order => o.order
  | .startAt => o.startAt
  | .endAt => o.endAt
  | .offset => o.offset
  | .limit => o.limit
  | .options => none
  | .allDescendants => none

end Options

open Options

namespace Argument

def Takes : Argument → Value → Prop
  | select => Value.IsArrayOf Value.IsPath
  | source => Value.IsSource
  | filter => Value.IsFilter
  | order => Value.IsOrdering
  | startAt => Value.IsDocument
  | endAt => Value.IsDocument
  | offset => Value.IsCount
  | limit => Value.IsCount
  | options => fun _ => False
  | allDescendants => fun _ => False

def Accepts (a : Argument) (given : Option Value) : Prop :=
  (∀ v, given = some v → a.Takes v) ∧ (a = source → given ≠ none)

def earlier (a : Argument) : List Argument := checkOrder.takeWhile fun b => b ≠ a

def check (a : Argument) (given : Option Value) : Except QueryError Unit :=
  match a with
  | select => forget (Query.optional Query.parseSelect given)
  | source => forget (Query.parseSources none given)
  | filter => forget (Query.optional Filter.parse given)
  | order => forget (Query.optional Order.parse given)
  | startAt => forget (Query.optional (Cursor.parse startAt) given)
  | endAt => forget (Query.optional (Cursor.parse endAt) given)
  | offset => forget (Query.optional (Query.parseCount offset) given)
  | limit => forget (Query.optional (Query.parseCount limit) given)
  | options => .ok ()
  | allDescendants => .ok ()

theorem earlier_eq {before after : List Argument} {a : Argument}
    (h : checkOrder = before ++ a :: after) : a.earlier = before := by
  have hnodup : (before ++ a :: after).Nodup := by
    rw [← h]
    decide
  have hmem : ∀ b ∈ before, b ≠ a := by
    intro b hb
    exact (List.nodup_append.mp hnodup).2.2 b hb a (List.mem_cons_self ..)
  rw [earlier, h, List.takeWhile_append_of_pos (by simpa using hmem)]
  simp

theorem judges_check {a : Argument} (ha : a ∈ checkOrder) : Judges a.check a a.Accepts := by
  have hoptional : ∀ {β : Type} {read : Value → Except QueryError β}, a ≠ source →
      Judges read a a.Takes → Judges (fun o => forget (Query.optional read o)) a a.Accepts := by
    intro β read hne h
    exact ((Query.judges_optional h).map _).congr fun o => by simp [Accepts, hne]
  simp only [checkOrder, List.mem_cons, List.not_mem_nil, or_false] at ha
  rcases ha with rfl | rfl | rfl | rfl | rfl | rfl | rfl | rfl
  · exact hoptional (by decide) Query.judges_parseSelect
  · refine ((Query.judges_parseSources none).map _).congr fun o => ?_
    cases o <;> simp [Accepts, Takes]
  · exact hoptional (by decide) Filter.judges_parse
  · exact hoptional (by decide) Order.judges_parse
  · exact hoptional (by decide) (Cursor.judges_parse _)
  · exact hoptional (by decide) (Cursor.judges_parse _)
  · exact hoptional (by decide) (Query.judges_parseCount _)
  · exact hoptional (by decide) (Query.judges_parseCount _)

end Argument

namespace Query

/-- Sources are refused for one reason only, whatever the flag for descendants. -/
theorem parseSources_error {all : Option Bool} {given : Option Value} {e : QueryError}
    (h : parseSources all given = .error e) : e = .invalidArgument .source .notCollection := by
  have hone : ∀ v e, parseSource all v = .error e →
      e = .invalidArgument .source .notCollection := by
    intro v e hv
    unfold parseSource at hv
    split at hv
    · split at hv
      · cases hv
      · exact (Except.error.inj hv).symm
    · exact (Except.error.inj hv).symm
  unfold parseSources at h
  split at h
  · obtain ⟨-, v, -, -, -, hv⟩ := collect_eq_error_iff.mp h
    exact hone v e hv
  · obtain ⟨-, v, -, -, -, hv⟩ := collect_eq_error_iff.mp h
    exact hone v e hv
  · exact (Except.error.inj h).symm

theorem forget_parseSources (all : Option Bool) (given : Option Value) :
    forget (parseSources all given) = forget (parseSources none given) := by
  rcases judges_parseSources all given with ⟨h, ss, hss⟩ | ⟨h, refusal, he⟩
  · obtain ⟨ss', hss'⟩ := ((judges_parseSources none).exists_ok_iff given).mpr h
    rw [hss, hss']
    rfl
  · rcases judges_parseSources none given with ⟨h', -⟩ | ⟨-, refusal', he'⟩
    · exact absurd h' h
    · rw [he, he', parseSources_error he, parseSources_error he']

theorem forget_ofOptions (o : Options) :
    forget (ofOptions o) = forget (collect (fun a => a.check (o.value? a)) checkOrder) := by
  refine forget_bind_eq_collect rfl fun _ => ?_
  -- The flag for descendants goes into the sources and has no part in their check.
  refine forget_bind_eq_collect (forget_parseSources _ _) fun _ => ?_
  refine forget_bind_eq_collect rfl fun _ => ?_
  refine forget_bind_eq_collect rfl fun _ => ?_
  refine forget_bind_eq_collect rfl fun _ => ?_
  refine forget_bind_eq_collect rfl fun _ => ?_
  refine forget_bind_eq_collect rfl fun _ => ?_
  exact forget_bind_eq_collect rfl fun _ => rfl

/-- Making a query fails at the first argument that does not accept what it is given. -/
theorem ofOptions_eq_error_iff {o : Options} {e : QueryError} :
    ofOptions o = .error e ↔
      ∃ a ∈ checkOrder, (∀ b ∈ a.earlier, b.Accepts (o.value? b)) ∧
        a.check (o.value? a) = .error e := by
  rw [← forget_eq_error_iff, forget_ofOptions, forget_eq_error_iff, collect_eq_error_iff]
  constructor
  · rintro ⟨before, a, after, hsplit, hbefore, ha⟩
    have hmem : ∀ b ∈ before, b ∈ checkOrder := fun b hb => by rw [hsplit]; simp [hb]
    refine ⟨a, by rw [hsplit]; simp, ?_, ha⟩
    rw [Argument.earlier_eq hsplit]
    intro b hb
    exact ((Argument.judges_check (hmem b hb)).exists_ok_iff _).mp (hbefore b hb)
  · rintro ⟨a, hmem, hearlier, ha⟩
    obtain ⟨before, after, hsplit⟩ := List.append_of_mem hmem
    rw [Argument.earlier_eq hsplit] at hearlier
    refine ⟨before, a, after, hsplit, ?_, ha⟩
    intro b hb
    have hb' : b ∈ checkOrder := by rw [hsplit]; simp [hb]
    exact ((Argument.judges_check hb').exists_ok_iff _).mpr (hearlier b hb)

theorem exists_ofOptions_iff {o : Options} :
    (∃ q, ofOptions o = .ok q) ↔ ∀ a ∈ checkOrder, a.Accepts (o.value? a) := by
  have hforget : (∃ q, ofOptions o = .ok q) ↔
      ∃ us, collect (fun a => a.check (o.value? a)) checkOrder = .ok us := by
    rw [← exists_ok_iff_of_forget_eq (forget_ofOptions o)]
  rw [hforget, exists_collect_eq_ok_iff]
  exact forall₂_congr fun a ha => (Argument.judges_check ha).exists_ok_iff _

def SamePart (q r : Query) : Argument → Prop
  | .select => q.select = r.select
  | .source => q.sources = r.sources
  | .filter => q.filter = r.filter
  | .order => q.orders = r.orders
  | .startAt => q.startAt = r.startAt
  | .endAt => q.endAt = r.endAt
  | .offset => q.offset = r.offset
  | .limit => q.limit = r.limit
  | .options => True
  | .allDescendants => True

theorem samePart_of_value?_eq {o p : Options} {q r : Query} {a : Argument}
    (hq : ofOptions o = .ok q) (hr : ofOptions p = .ok r) (hvalue : p.value? a = o.value? a)
    (hflag : a = .source → p.allDescendants = o.allDescendants) : q.SamePart r a := by
  obtain ⟨⟨select, hse, hqse⟩, hso, ⟨filter, hfi, hqfi⟩, ⟨orders, hor, hqor⟩, hst, hen, hof, hli⟩ :=
    ofOptions_eq_ok_iff.mp hq
  obtain ⟨⟨select', hse', hrse⟩, hso', ⟨filter', hfi', hrfi⟩, ⟨orders', hor', hror⟩, hst', hen',
    hof', hli'⟩ := ofOptions_eq_ok_iff.mp hr
  cases a <;> simp only [value?] at hvalue <;> simp only [SamePart]
  case select =>
    rw [hvalue, hse, Except.ok.injEq] at hse'
    rw [hqse, hrse, hse']
  case source =>
    rw [hvalue, hflag rfl, hso, Except.ok.injEq] at hso'
    exact hso'
  case filter =>
    rw [hvalue, hfi, Except.ok.injEq] at hfi'
    rw [hqfi, hrfi, hfi']
  case order =>
    rw [hvalue, hor, Except.ok.injEq] at hor'
    rw [hqor, hror, hor']
  case startAt =>
    rw [hvalue, hst, Except.ok.injEq] at hst'
    exact hst'
  case endAt =>
    rw [hvalue, hen, Except.ok.injEq] at hen'
    exact hen'
  case offset =>
    rw [hvalue, hof, Except.ok.injEq] at hof'
    exact hof'
  case limit =>
    rw [hvalue, hli, Except.ok.injEq] at hli'
    exact hli'

/-- A query is made exactly when every argument accepts what it is given. Otherwise the first one
that does not is blamed, and no option but that one has a part in the error, as long as the earlier
ones are accepted. An option that two accepted sets of options share makes the same part of both
queries. -/
theorem new_accepts_grammar (o : Options) (env : Environment) :
    ((∃ q, (Query.new o env).1 = .ok q) ↔ ∀ a ∈ checkOrder, a.Accepts (o.value? a)) ∧
    (∀ e, (Query.new o env).1 = .error e →
      ∃ a refusal, a ∈ checkOrder ∧ (∀ b ∈ a.earlier, b.Accepts (o.value? b)) ∧
        ¬ a.Accepts (o.value? a) ∧ e = .invalidArgument a refusal ∧
        ∀ p env', p.value? a = o.value? a → (∀ b ∈ a.earlier, b.Accepts (p.value? b)) →
          (Query.new p env').1 = .error e) ∧
    ∀ q p r env', (Query.new o env).1 = .ok q → (Query.new p env').1 = .ok r →
      ∀ a, p.value? a = o.value? a → (a = .source → p.allDescendants = o.allDescendants) →
        q.SamePart r a := by
  simp only [new_result]
  refine ⟨exists_ofOptions_iff, ?_, ?_⟩
  · intro e he
    obtain ⟨a, ha, hearlier, hcheck⟩ := ofOptions_eq_error_iff.mp he
    have hjudges := Argument.judges_check ha
    obtain ⟨refusal, rfl⟩ := hjudges.error hcheck
    refine ⟨a, refusal, ha, hearlier, ?_, rfl, ?_⟩
    · rw [← hjudges.exists_ok_iff]
      rintro ⟨u, hu⟩
      rw [hcheck] at hu
      cases hu
    · -- The check of `a` sees its own value alone, so it fails for `p` in the same words.
      intro p _ hvalue hp
      rw [← hvalue] at hcheck
      exact ofOptions_eq_error_iff.mpr ⟨a, ha, hp, hcheck⟩
  · intro q p r _ hq hr a hvalue hflag
    exact samePart_of_value?_eq hq hr hvalue hflag

def mistakenOptions : Options :=
  { select := some (.array [.string "a"])
    source := some (.reference (Database.sample.reference "users"))
    filter := some (.array [.array [.string "n", .string "==", .null],
      .array [.string "n", .string "===", .integer 1]])
    limit := some (.integer (-1)) }

/-- The bad operator is blamed, and it is blamed in the same words without the select and with
another mistake behind it. Without it and without the limit there is a query, and its select is the
one of a query that has nothing else in common with it. -/
theorem new_accepts_grammar_two_mistakes :
    let env : Environment := ⟨.warn, fun _ => .ok .null⟩
    let other : Options :=
      { source := some (.array [.reference (Database.sample.reference "posts")])
        filter := mistakenOptions.filter
        order := some .null }
    let mended : Options := { mistakenOptions with filter := none, limit := none }
    let plain : Options :=
      { select := mistakenOptions.select
        source := some (.reference (Database.sample.reference "posts"))
        limit := some (.integer 0) }
    (Query.new mistakenOptions env).1 = .error (.invalidArgument .filter .badOperator) ∧
      ¬ Argument.filter.Accepts mistakenOptions.filter ∧
      (Query.new other env).1 = .error (.invalidArgument .filter .badOperator) ∧
      (∀ a ∈ checkOrder, a.Accepts (mended.value? a)) ∧
      ∃ q r, (Query.new mended env).1 = .ok q ∧ (Query.new plain env).1 = .ok r ∧
        q.SamePart r .select := by
  intro env other mended plain
  have herror : (Query.new mistakenOptions env).1 =
      .error (.invalidArgument .filter .badOperator) := rfl
  have hmended : (Query.new mended env).1 =
      .ok ⟨["a"], [⟨Database.sample.reference "users", none⟩], none, [], none, none, none, none⟩ :=
    rfl
  have hplain : (Query.new plain env).1 =
      .ok ⟨["a"], [⟨Database.sample.reference "posts", none⟩], none, [], none, none, none,
        some 0⟩ :=
    rfl
  obtain ⟨a, refusal, -, hearlier, hnot, heq, hother⟩ :=
    (new_accepts_grammar mistakenOptions env).2.1 _ herror
  cases heq
  have hgiven : ∀ b ∈ Argument.filter.earlier, b.Accepts (other.value? b) := by
    have hlist : Argument.filter.earlier = [.select, .source] := rfl
    rw [hlist, List.forall_mem_cons, List.forall_mem_singleton]
    exact ⟨((Argument.judges_check (by decide)).exists_ok_iff _).mp ⟨(), rfl⟩,
      ((Argument.judges_check (by decide)).exists_ok_iff _).mp ⟨(), rfl⟩⟩
  obtain ⟨hiff, -, hparts⟩ := new_accepts_grammar mended env
  exact ⟨herror, hnot, hother other env rfl hgiven, hiff.mp ⟨_, hmended⟩, _, _, hmended, hplain,
    hparts _ plain _ env hmended hplain .select rfl (by simp)⟩

end Query

end DocStore
