import DocStore.Proofs.Query.Invariant
import DocStore.Proofs.Value.Encoding

/-!
# The grammar of options

What each option may be is written down here apart from the functions that read
it. A reader judges its grammar when it accepts the values of the grammar, and
answers every other value by blaming its own argument. Judging passes through
lists and through options that may be absent, so the reader of an option judges
its grammar as soon as the readers of its parts do.
-/

set_option autoImplicit false

namespace DocStore

namespace Value

def IsArrayOf (P : Value → Prop) (v : Value) : Prop :=
  ∃ items, v = .array items ∧ ∀ item ∈ items, P item

def IsPath (v : Value) : Prop := ∃ path, v = .string path

def IsCollection (v : Value) : Prop := ∃ r : Reference, v = .reference r ∧ r.isCollection = true

def IsDocument (v : Value) : Prop := ∃ r : Reference, v = .reference r ∧ r.isDocument = true

def IsSource (v : Value) : Prop := v.IsCollection ∨ v.IsArrayOf IsCollection ∧ v ≠ .array []

def scalarSymbols : List String := ["<", "<=", ">", ">=", "==", "!=", "array-contains"]

def listSymbols : List String := ["in", "array-contains-any", "not-in"]

inductive IsOperand : String → Value → Prop
  | test {v : Value} (h : v = .null ∨ v = .double .nan) : IsOperand "==" v
  | scalar {op : String} {v : Value} (hop : op ∈ scalarSymbols) (hv : v.IsScalar)
      (hnull : v ≠ .null) (hnan : v ≠ .double .nan) : IsOperand op v
  | list {op : String} {items : List Value} (hop : op ∈ listSymbols) (hne : items ≠ [])
      (h : ∀ item ∈ items, item.IsScalar) : IsOperand op (.array items)

def IsTriple (triple : List Value) : Prop :=
  ∃ path op v, triple = [.string path, .string op, v] ∧ IsOperand op v

def IsCondition (v : Value) : Prop := ∃ triple, v = .array triple ∧ IsTriple triple

def IsFilter (v : Value) : Prop := v.IsCondition ∨ v.IsArrayOf IsCondition

inductive IsOrder : Value → Prop
  | path (path : String) : IsOrder (.string path)
  | object {entries : List (String × Value)} {path : String}
      (hfield : entries.lookup "field" = some (.string path))
      (hdirection : ∀ d, entries.lookup "direction" = some d →
        d = .string "asc" ∨ d = .string "desc") :
      IsOrder (.map entries)

def IsOrdering (v : Value) : Prop := v.IsOrder ∨ v.IsArrayOf IsOrder

inductive IsCount : Value → Prop
  | integer {n : Int64} (h : 0 ≤ n.toInt ∧ n.toInt ≤ 2147483647) : IsCount (.integer n)
  | double {x : FiniteDouble} {n : Nat} (hx : x.units = n * unitsPerOne) (h : n ≤ 2147483647) :
      IsCount (.double (.finite x))

end Value

open Value

section Judges

variable {α β γ : Type}

def Judges (read : α → Except QueryError β) (argument : Argument) (P : α → Prop) : Prop :=
  ∀ a, (P a ∧ ∃ b, read a = .ok b) ∨
    (¬ P a ∧ ∃ refusal, read a = .error (.invalidArgument argument refusal))

variable {read : α → Except QueryError β} {argument : Argument} {P Q : α → Prop}

theorem Judges.exists_ok_iff (h : Judges read argument P) (a : α) :
    (∃ b, read a = .ok b) ↔ P a := by
  rcases h a with ⟨ha, hok⟩ | ⟨ha, refusal, herror⟩
  · exact ⟨fun _ => ha, fun _ => hok⟩
  · constructor
    · rintro ⟨b, hb⟩
      rw [herror] at hb
      cases hb
    · intro hp
      exact absurd hp ha

theorem Judges.error (h : Judges read argument P) {a : α} {e : QueryError}
    (he : read a = .error e) : ∃ refusal, e = .invalidArgument argument refusal := by
  rcases h a with ⟨-, b, hok⟩ | ⟨-, refusal, herror⟩
  · rw [hok] at he
    cases he
  · rw [herror] at he
    exact ⟨refusal, (Except.error.inj he).symm⟩

theorem judges_of (hok : ∀ a, (∃ b, read a = .ok b) ↔ P a)
    (herror : ∀ a e, read a = .error e → ∃ refusal, e = .invalidArgument argument refusal) :
    Judges read argument P := by
  intro a
  cases hr : read a with
  | ok b => exact Or.inl ⟨(hok a).mp ⟨b, hr⟩, b, rfl⟩
  | error e =>
    obtain ⟨refusal, rfl⟩ := herror a e hr
    refine Or.inr ⟨?_, refusal, rfl⟩
    intro hp
    obtain ⟨b, hb⟩ := (hok a).mpr hp
    rw [hr] at hb
    cases hb

theorem Judges.congr (h : Judges read argument P) (hpq : ∀ a, P a ↔ Q a) :
    Judges read argument Q := by
  intro a
  rw [← hpq a]
  exact h a

theorem Judges.map (h : Judges read argument P) (f : β → γ) :
    Judges (fun a => (read a).map f) argument P := by
  intro a
  rcases h a with ⟨ha, b, hb⟩ | ⟨ha, refusal, he⟩
  · exact Or.inl ⟨ha, f b, by simp only [hb, Except.map]⟩
  · exact Or.inr ⟨ha, refusal, by simp only [he, Except.map]⟩

theorem Judges.collect (h : Judges read argument P) :
    Judges (collect read) argument fun as => ∀ a ∈ as, P a := by
  apply judges_of
  · intro as
    rw [exists_collect_eq_ok_iff]
    exact forall₂_congr fun a _ => h.exists_ok_iff a
  · intro as e he
    obtain ⟨-, a, -, -, -, ha⟩ := collect_eq_error_iff.mp he
    exact h.error ha

end Judges

namespace Operator

theorem ofSymbol?_eq_some_iff {s : String} {op : Operator} :
    ofSymbol? s = some op ↔ op.symbol = s := by
  constructor
  · intro h
    simpa using List.find?_some h
  · rintro rfl
    exact ofSymbol?_symbol op

theorem symbols_eq : scalarSymbols ++ listSymbols = all.map symbol := rfl

theorem symbol_mem_scalarSymbols (op : Operator) :
    op.symbol ∈ scalarSymbols ↔ op.takesList = false := by
  cases op <;> decide

theorem symbol_mem_listSymbols (op : Operator) :
    op.symbol ∈ listSymbols ↔ op.takesList = true := by
  cases op <;> decide

theorem exists_symbol_of_isOperand {s : String} {v : Value} (h : IsOperand s v) :
    ∃ op : Operator, op.symbol = s := by
  have hall : s ∈ all.map symbol := by
    rw [← symbols_eq, List.mem_append]
    cases h with
    | test _ => exact Or.inl (by decide)
    | scalar hop _ _ _ => exact Or.inl hop
    | list hop _ _ => exact Or.inr hop
  obtain ⟨op, -, hop⟩ := List.mem_map.mp hall
  exact ⟨op, hop⟩

end Operator

namespace Value

theorem string?_eq_some_iff {v : Value} {s : String} : v.string? = some s ↔ v = .string s := by
  cases v <;> simp [string?]

end Value

namespace Filter

theorem test_of_unaryOf? {v : Value} {test : UnaryOperator} (h : unaryOf? v = some test) :
    v = .null ∨ v = .double .nan := by
  cases v with
  | null => exact Or.inl rfl
  | double x =>
    cases x with
    | nan => exact Or.inr rfl
    | _ => cases h
  | _ => cases h

theorem isOperand_list_iff {op : Operator} {v : Value} (hop : op.takesList = true)
    (hv : unaryOf? v = none) :
    IsOperand op.symbol v ↔
      ∃ items, v = .array items ∧ items ≠ [] ∧ ∀ item ∈ items, item.IsScalar := by
  constructor
  · intro h
    generalize hs : op.symbol = s at h
    cases h with
    | test htest =>
      obtain ⟨hnull, hnan⟩ := unaryOf?_eq_none hv
      exact absurd htest (by simp [hnull, hnan])
    | scalar hscalar _ _ _ =>
      rw [← hs, op.symbol_mem_scalarSymbols, hop] at hscalar
      cases hscalar
    | @list _ items _ hne hitems => exact ⟨items, rfl, hne, hitems⟩
  · rintro ⟨items, rfl, hne, hitems⟩
    exact .list (op.symbol_mem_listSymbols.mpr hop) hne hitems

theorem isOperand_scalar_iff {op : Operator} {v : Value} (hop : op.takesList = false)
    (hv : unaryOf? v = none) : IsOperand op.symbol v ↔ v.IsScalar := by
  obtain ⟨hnull, hnan⟩ := unaryOf?_eq_none hv
  constructor
  · intro h
    generalize hs : op.symbol = s at h
    cases h with
    | test htest => exact absurd htest (by simp [hnull, hnan])
    | scalar _ hscalar _ _ => exact hscalar
    | list hlist _ _ =>
      rw [← hs, op.symbol_mem_listSymbols, hop] at hlist
      cases hlist
  · intro hscalar
    exact .scalar (op.symbol_mem_scalarSymbols.mpr hop) hscalar hnull hnan

theorem exists_operand_iff {op : Operator} {v : Value} (hv : unaryOf? v = none) :
    (∃ o, operand op v = .ok o) ↔ IsOperand op.symbol v := by
  cases hop : op.takesList with
  | false =>
    rw [isOperand_scalar_iff hop hv, ← exists_encode_iff]
    simp only [operand, hop]
    cases v.encode <;> simp
  | true =>
    rw [isOperand_list_iff hop hv]
    simp only [operand, hop, if_true]
    split
    · rename_i item items
      have hitems : (∃ items', Value.array (item :: items) = .array items' ∧ items' ≠ [] ∧
          ∀ v ∈ items', v.IsScalar) ↔ ∃ ss, encodeArray (item :: items) = .ok ss := by
        rw [exists_encodeArray_iff]
        simp
      rw [hitems]
      cases encodeArray (item :: items) <;> simp
    · rename_i hnot
      simp only [reduceCtorEq, exists_false, false_iff, not_exists, not_and]
      rintro (_ | ⟨item, items⟩) rfl hne
      · exact absurd rfl hne
      · exact absurd rfl (hnot item items)

/-- With a field and an operator that are known, the operand decides. -/
theorem exists_condition_symbol_iff {path : String} {op : Operator} {v : Value} :
    (∃ f, condition (.string path) (.string op.symbol) v = .ok f) ↔ IsOperand op.symbol v := by
  have hop : (Value.string op.symbol).string?.bind Operator.ofSymbol? = some op :=
    op.ofSymbol?_symbol
  rw [condition, hop]
  simp only [Value.string?]
  cases hv : unaryOf? v with
  | some test =>
    have hequal : IsOperand op.symbol v ↔ op = .equal := by
      have hnull := test_of_unaryOf? hv
      constructor
      · intro h
        generalize hs : op.symbol = s at h
        cases h with
        | test _ => exact Option.some.inj (by rw [← op.ofSymbol?_symbol, hs]; rfl)
        | scalar _ _ hnull' hnan => exact absurd hnull (by simp [hnull', hnan])
        | list _ _ _ => exact absurd hnull (by simp)
      · rintro rfl
        exact .test hnull
    rw [hequal]
    by_cases h : op = .equal <;> simp [h]
  | none =>
    rw [← exists_operand_iff hv]
    cases operand op v <;> simp

theorem exists_condition_iff {path op v : Value} :
    (∃ f, condition path op v = .ok f) ↔ IsTriple [path, op, v] := by
  constructor
  · rintro ⟨f, hf⟩
    have hread := hf
    unfold condition at hread
    split at hread
    · cases hread
    rename_i p hp
    split at hread
    · cases hread
    rename_i o ho
    obtain ⟨s, hs, hsymbol⟩ := Option.bind_eq_some_iff.mp ho
    obtain rfl := string?_eq_some_iff.mp hp
    obtain rfl := string?_eq_some_iff.mp hs
    obtain rfl := Operator.ofSymbol?_eq_some_iff.mp hsymbol
    exact ⟨p, o.symbol, v, rfl, exists_condition_symbol_iff.mp ⟨f, hf⟩⟩
  · rintro ⟨p, s, w, htriple, h⟩
    simp only [List.cons.injEq, and_true] at htriple
    obtain ⟨rfl, rfl, rfl⟩ := htriple
    obtain ⟨o, rfl⟩ := Operator.exists_symbol_of_isOperand h
    exact exists_condition_symbol_iff.mpr h

theorem condition_error {path op v : Value} {e : QueryError} (h : condition path op v = .error e) :
    ∃ refusal, e = .invalidArgument .filter refusal := by
  unfold condition at h
  split at h
  · exact ⟨_, (Except.error.inj h).symm⟩
  split at h
  · exact ⟨_, (Except.error.inj h).symm⟩
  split at h
  · split at h
    · cases h
    · exact ⟨_, (Except.error.inj h).symm⟩
  · split at h
    · cases h
    · exact ⟨_, (Except.error.inj h).symm⟩

theorem judges_ofTriple : Judges ofTriple .filter IsTriple := by
  apply judges_of
  · intro triple
    match triple with
    | [path, op, v] => exact exists_condition_iff
    | [] => simp [ofTriple, notFilter, IsTriple]
    | [_] => simp [ofTriple, notFilter, IsTriple]
    | [_, _] => simp [ofTriple, notFilter, IsTriple]
    | _ :: _ :: _ :: _ :: _ => simp [ofTriple, notFilter, IsTriple]
  · intro triple e he
    unfold ofTriple at he
    split at he
    · exact condition_error he
    · exact ⟨_, (Except.error.inj he).symm⟩

theorem judges_arrayOf : Judges arrayOf .filter fun v => ∃ items, v = .array items := by
  intro v
  cases v with
  | array items => exact Or.inl ⟨⟨items, rfl⟩, items, rfl⟩
  | _ => exact Or.inr ⟨by simp, _, rfl⟩

theorem collect_arrayOf_eq_ok_iff {items : List Value} {triples : List (List Value)} :
    collect arrayOf items = .ok triples ↔ items = triples.map .array := by
  rw [collect_eq_ok_iff]
  induction items generalizing triples with
  | nil => cases triples <;> simp
  | cons item items ih =>
    cases triples with
    | nil => simp
    | cons triple triples => cases item <;> simp [arrayOf, notFilter, ih]

theorem isFilter_nested_iff {first rest : List Value} :
    IsFilter (.array (.array first :: rest)) ↔
      (Value.array (.array first :: rest)).IsArrayOf Value.IsCondition := by
  rw [IsFilter, or_iff_right]
  rintro ⟨triple, htriple, path, op, v, rfl, -⟩
  cases htriple

theorem isFilter_plain_iff {first : Value} {rest : List Value}
    (h : ∀ items, first ≠ .array items) :
    IsFilter (.array (first :: rest)) ↔ IsTriple (first :: rest) := by
  rw [IsFilter, or_iff_left]
  · simp [Value.IsCondition]
  · rintro ⟨items, hitems, hall⟩
    obtain ⟨triple, htriple, -⟩ := hall first (by cases hitems; simp)
    exact h triple htriple

theorem parse_plain {first : Value} {rest : List Value} (h : ∀ items, first ≠ .array items) :
    parse (.array (first :: rest)) = (ofTriple (first :: rest)).map some := by
  cases first with
  | array items => exact absurd rfl (h items)
  | _ => rfl

theorem judges_parse_array (items : List Value) :
    (IsFilter (.array items) ∧ ∃ f, parse (.array items) = .ok f) ∨
      (¬ IsFilter (.array items) ∧
        ∃ refusal, parse (.array items) = .error (.invalidArgument .filter refusal)) := by
  rcases items with _ | ⟨first, rest⟩
  · exact Or.inl ⟨Or.inr ⟨[], rfl, by simp⟩, none, rfl⟩
  -- The first element decides how the whole array is read.
  by_cases hfirst : ∃ triple, first = .array triple
  · obtain ⟨triple, rfl⟩ := hfirst
    rw [isFilter_nested_iff, parse]
    rcases judges_arrayOf.collect (.array triple :: rest) with
      ⟨-, triples, h⟩ | ⟨hnot, refusal, h⟩
    · have hconditions : (Value.array (triples.map .array)).IsArrayOf Value.IsCondition ↔
          ∀ t ∈ triples, IsTriple t := by
        simp [IsArrayOf, Value.IsCondition]
      simp only [h]
      rw [collect_arrayOf_eq_ok_iff.mp h, hconditions]
      exact (judges_ofTriple.collect.map all) triples
    · refine Or.inr ⟨?_, refusal, by simp only [h]⟩
      rintro ⟨items, hitems, hall⟩
      cases hitems
      apply hnot
      intro item hitem
      obtain ⟨t, ht, -⟩ := hall item hitem
      exact ⟨t, ht⟩
  · have hplain : ∀ triple, first ≠ .array triple := not_exists.mp hfirst
    rw [isFilter_plain_iff hplain, parse_plain hplain]
    exact (judges_ofTriple.map some) (first :: rest)

theorem judges_parse : Judges parse .filter IsFilter := by
  intro v
  cases v with
  | array items => exact judges_parse_array items
  | _ => exact Or.inr ⟨by simp [IsFilter, Value.IsCondition, IsArrayOf], _, rfl⟩

end Filter

namespace Query

theorem judges_parsePaths (index : Nat) :
    Judges (parsePaths index) .select fun items => ∀ item ∈ items, item.IsPath := by
  intro items
  induction items generalizing index with
  | nil => exact Or.inl ⟨by simp, [], rfl⟩
  | cons item items ih =>
    cases item with
    | string path =>
      simp only [List.forall_mem_cons, parsePaths]
      rcases ih (index + 1) with ⟨hall, paths, hpaths⟩ | ⟨hnot, refusal, herror⟩
      · exact Or.inl ⟨⟨⟨path, rfl⟩, hall⟩, path :: paths, by rw [hpaths]; rfl⟩
      · exact Or.inr ⟨fun h => hnot h.2, refusal, by rw [herror]; rfl⟩
    | _ =>
      refine Or.inr ⟨?_, _, rfl⟩
      intro h
      obtain ⟨path, hpath⟩ := h _ (List.mem_cons_self ..)
      cases hpath

theorem judges_parseSelect : Judges parseSelect .select (IsArrayOf IsPath) := by
  intro v
  cases v with
  | array items =>
    have hiff : (Value.array items).IsArrayOf IsPath ↔ ∀ item ∈ items, item.IsPath := by
      simp [IsArrayOf]
    rw [hiff]
    exact judges_parsePaths 0 items
  | _ => exact Or.inr ⟨by simp [IsArrayOf], _, rfl⟩

theorem judges_parseSource (all : Option Bool) :
    Judges (parseSource all) .source IsCollection := by
  intro v
  cases v with
  | reference r =>
    cases hr : r.isCollection with
    | true => exact Or.inl ⟨⟨r, rfl, hr⟩, ⟨r, all⟩, by simp [parseSource, hr]⟩
    | false =>
      exact Or.inr ⟨by simp [IsCollection, hr], .notCollection, by simp [parseSource, hr]⟩
  | _ => exact Or.inr ⟨by simp [IsCollection], _, rfl⟩

theorem judges_parseSources (all : Option Bool) :
    Judges (parseSources all) .source fun o => ∃ v, o = some v ∧ v.IsSource := by
  intro o
  match o with
  | none => exact Or.inr ⟨by simp, _, rfl⟩
  | some v =>
    simp only [Option.some.injEq, exists_eq_left']
    cases v with
    | array items =>
      cases items with
      | nil => exact Or.inr ⟨by simp [IsSource, IsCollection], _, rfl⟩
      | cons item items =>
        have hiff : (Value.array (item :: items)).IsSource ↔
            ∀ v ∈ item :: items, v.IsCollection := by
          simp [IsSource, IsCollection, IsArrayOf]
        rw [hiff]
        exact (judges_parseSource all).collect (item :: items)
    | reference r =>
      have hiff : (Value.reference r).IsSource ↔ ∀ v ∈ [Value.reference r], v.IsCollection := by
        simp [IsSource, IsArrayOf]
      rw [hiff]
      exact (judges_parseSource all).collect [.reference r]
    | _ => exact Or.inr ⟨by simp [IsSource, IsCollection, IsArrayOf], _, rfl⟩

theorem isCount_iff {v : Value} :
    v.IsCount ↔ ∃ n : Nat, v.whole? = some (n : Int) ∧ n ≤ maxCount := by
  constructor
  · intro h
    cases h with
    | @integer n h =>
      refine ⟨n.toInt.toNat, congrArg some (Int.toNat_of_nonneg h.1).symm, ?_⟩
      rw [maxCount]
      omega
    | @double x n hx h => exact ⟨n, FiniteDouble.toInt?_eq_some_iff.mpr hx, h⟩
  · rintro ⟨n, hn, h⟩
    cases v with
    | integer i =>
      have hi : i.toInt = n := Option.some.inj hn
      rw [maxCount] at h
      exact .integer (by omega)
    | double x =>
      cases x with
      | finite x => exact .double (FiniteDouble.toInt?_eq_some_iff.mp hn) h
      | _ => cases hn
    | _ => cases hn

theorem error_of_parseCount {argument : Argument} {v : Value} {e : QueryError}
    (h : parseCount argument v = .error e) : e = .invalidArgument argument .notCount := by
  rw [parseCount] at h
  split at h
  · split at h
    · cases h
    · exact (Except.error.inj h).symm
  · exact (Except.error.inj h).symm

theorem judges_parseCount (argument : Argument) :
    Judges (parseCount argument) argument IsCount := by
  apply judges_of
  · intro v
    rw [isCount_iff]
    exact exists_congr fun n => parseCount_eq_ok_iff
  · intro v e he
    exact ⟨_, error_of_parseCount he⟩

theorem judges_optional {β : Type} {read : Value → Except QueryError β} {argument : Argument}
    {P : Value → Prop} (h : Judges read argument P) :
    Judges (optional read) argument fun o => ∀ v, o = some v → P v := by
  intro o
  cases o with
  | none => exact Or.inl ⟨by simp, none, rfl⟩
  | some v =>
    simp only [Option.some.injEq, forall_eq']
    exact (h.map some) v

end Query

namespace Order

theorem exists_direction_iff {d : Value} :
    (∃ direction, d.string?.bind Direction.ofSymbol? = some direction) ↔
      d = .string "asc" ∨ d = .string "desc" := by
  cases d with
  | string s =>
    simp only [string?, Option.bind_some, Direction.ofSymbol?, Value.string.injEq]
    split
    · simp_all
    · split <;> simp_all
  | _ => simp [string?]

theorem judges_directionOf :
    Judges directionOf .order fun entries =>
      ∀ d, entries.lookup "direction" = some d → d = .string "asc" ∨ d = .string "desc" := by
  intro entries
  unfold directionOf
  cases hd : entries.lookup "direction" with
  | none => exact Or.inl ⟨by simp [hd], .ascending, rfl⟩
  | some d =>
    simp only [hd, Option.some.injEq, forall_eq']
    rw [← exists_direction_iff]
    cases d.string?.bind Direction.ofSymbol? with
    | some direction => exact Or.inl ⟨⟨direction, rfl⟩, direction, rfl⟩
    | none => exact Or.inr ⟨by simp, .badDirection, rfl⟩

theorem isOrder_map_iff {entries : List (String × Value)} :
    IsOrder (.map entries) ↔
      (∃ path, (entries.lookup "field").bind string? = some path) ∧
        ∀ d, entries.lookup "direction" = some d → d = .string "asc" ∨ d = .string "desc" := by
  constructor
  · intro h
    cases h with
    | @object _ path hfield hdirection =>
      exact ⟨⟨path, by rw [hfield]; rfl⟩, hdirection⟩
  · rintro ⟨⟨path, hpath⟩, hdirection⟩
    obtain ⟨v, hv, hstring⟩ := Option.bind_eq_some_iff.mp hpath
    rw [string?_eq_some_iff.mp hstring] at hv
    exact .object hv hdirection

theorem judges_parseOne : Judges parseOne .order IsOrder := by
  intro v
  cases v with
  | string path => exact Or.inl ⟨.path path, _, rfl⟩
  | map entries =>
    rw [isOrder_map_iff, parseOne]
    cases hpath : (entries.lookup "field").bind string? with
    | none => exact Or.inr ⟨by simp, .notOrder, rfl⟩
    | some path =>
      simp only [Option.some.injEq, exists_eq', true_and]
      exact (judges_directionOf.map (Order.mk path)) entries
  | _ => exact Or.inr ⟨(nomatch ·), _, rfl⟩

theorem judges_parse : Judges parse .order IsOrdering := by
  intro v
  cases v with
  | array items =>
    have hiff : (Value.array items).IsOrdering ↔ ∀ item ∈ items, item.IsOrder := by
      constructor
      · rintro (h | ⟨items', hitems, hall⟩)
        · cases h
        · cases hitems
          exact hall
      · intro h
        exact Or.inr ⟨items, rfl, h⟩
    rw [hiff]
    exact judges_parseOne.collect items
  | _ =>
    have hiff : ∀ w : Value, (∀ items, w ≠ .array items) → (w.IsOrdering ↔ w.IsOrder) := by
      intro w hw
      rw [IsOrdering, or_iff_left]
      rintro ⟨items, rfl, -⟩
      exact hw items rfl
    rw [hiff _ (by simp)]
    exact (judges_parseOne.map fun order => [order]) _

end Order

theorem Cursor.judges_parse (argument : Argument) :
    Judges (parse argument) argument IsDocument := by
  intro v
  cases v with
  | reference r =>
    cases hr : r.isDocument with
    | true => exact Or.inl ⟨⟨r, rfl, hr⟩, ⟨[.reference r.name], true⟩, by simp [parse, hr]⟩
    | false => exact Or.inr ⟨by simp [IsDocument, hr], .notDocument, by simp [parse, hr]⟩
  | _ => exact Or.inr ⟨by simp [IsDocument], _, rfl⟩

end DocStore
