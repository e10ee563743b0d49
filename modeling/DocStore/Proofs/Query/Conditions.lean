import DocStore.Proofs.Query.Grammar
import Mathlib.Data.List.Forall2

/-!
# How conditions are read

Three values make a condition or are refused for the first check that fails, and
both are written down here apart from the reader. A filter is one condition or a
list of them, told apart by the first element alone. Main statement: the short
form is read as the list of that one condition; of a list the first triple that
is refused decides, after every element has been found to be an array; and the
leaves of what is read are the conditions in their order.
-/

set_option autoImplicit false

namespace DocStore

namespace Filter

inductive Makes : Value → Value → Value → Filter → Prop
  | null (s : String) : Makes (.string s) (.string "==") .null (.unary s .isNull)
  | nan (s : String) : Makes (.string s) (.string "==") (.double .nan) (.unary s .isNaN)
  | scalar {s : String} {op : Operator} {v : Value} {x : Scalar}
      (hv : v ≠ .null ∧ v ≠ .double .nan) (hop : op.takesList = false) (hx : v.encode = .ok x) :
      Makes (.string s) (.string op.symbol) v (.field s op (.scalar x))
  | list {s : String} {op : Operator} {items : List Value} {xs : List Scalar}
      (hop : op.takesList = true) (hne : items ≠ []) (hxs : items.map Value.encode = xs.map .ok) :
      Makes (.string s) (.string op.symbol) (.array items) (.field s op (.list xs))

inductive Refused : Value → Value → Value → Refusal → Prop
  | field {path op v : Value} (h : ∀ s, path ≠ .string s) : Refused path op v .badField
  | operator {s : String} {op v : Value} (h : ∀ o : Operator, op ≠ .string o.symbol) :
      Refused (.string s) op v .badOperator
  | test {s : String} {op : Operator} {v : Value} (hv : v = .null ∨ v = .double .nan)
      (hop : op ≠ .equal) : Refused (.string s) (.string op.symbol) v .nullWithOperator
  | list {s : String} {op : Operator} {v : Value} (hv : v ≠ .null ∧ v ≠ .double .nan)
      (hop : op.takesList = true) (h : ∀ items, v = .array items → items = []) :
      Refused (.string s) (.string op.symbol) v (.noList op.symbol)
  | element {s : String} {op : Operator} {before after : List Value} {item : Value}
      (hop : op.takesList = true) (hbefore : ∀ b ∈ before, b.IsScalar) (h : ¬ item.IsScalar) :
      Refused (.string s) (.string op.symbol) (.array (before ++ item :: after))
        (.unencodable (.unsupported item.kind))
  | operand {s : String} {op : Operator} {v : Value} (hop : op.takesList = false)
      (h : ¬ v.IsScalar) :
      Refused (.string s) (.string op.symbol) v (.unencodable (.unsupported v.kind))

theorem unaryOf?_eq_none_of {v : Value} (h : v ≠ .null ∧ v ≠ .double .nan) :
    unaryOf? v = none := by
  cases hv : unaryOf? v with
  | none => rfl
  | some test =>
    rcases test_of_unaryOf? hv with rfl | rfl
    · exact absurd rfl h.1
    · exact absurd rfl h.2

theorem condition_symbol (s : String) (op : Operator) (v : Value) :
    condition (.string s) (.string op.symbol) v =
      match unaryOf? v with
      | some test =>
        if op = .equal then .ok (.unary s test)
        else .error (.invalidArgument .filter .nullWithOperator)
      | none =>
        match operand op v with
        | .ok o => .ok (.field s op o)
        | .error refusal => .error (.invalidArgument .filter refusal) := by
  have hop : (Value.string op.symbol).string?.bind Operator.ofSymbol? = some op :=
    op.ofSymbol?_symbol
  rw [condition, hop]
  rfl

theorem condition_of_operand {s : String} {op : Operator} {v : Value}
    (hv : v ≠ .null ∧ v ≠ .double .nan) :
    condition (.string s) (.string op.symbol) v =
      match operand op v with
      | .ok o => .ok (.field s op o)
      | .error refusal => .error (.invalidArgument .filter refusal) := by
  rw [condition_symbol, unaryOf?_eq_none_of hv]

theorem operand_scalar {op : Operator} (hop : op.takesList = false) (v : Value) :
    operand op v =
      match v.encode with
      | .ok x => .ok (.scalar x)
      | .error e => .error (.unencodable e) := by
  have hscalar : ¬ op.takesList = true := by rw [hop]; decide
  unfold operand
  refine (if_neg hscalar).trans ?_
  cases v.encode <;> rfl

theorem operand_list {op : Operator} (hop : op.takesList = true) {items : List Value}
    (hne : items ≠ []) :
    operand op (.array items) =
      match Value.encodeArray items with
      | .ok xs => .ok (.list xs)
      | .error e => .error (.unencodable e) := by
  obtain ⟨item, rest, rfl⟩ := List.exists_cons_of_ne_nil hne
  unfold operand
  exact (if_pos hop).trans rfl

theorem condition_of_makes {path op v : Value} {f : Filter} (h : Makes path op v f) :
    condition path op v = .ok f := by
  cases h with
  | null s => exact condition_symbol s .equal .null
  | nan s => exact condition_symbol s .equal (.double .nan)
  | scalar hv hop hx => rw [condition_of_operand hv, operand_scalar hop, hx]
  | list hop hne hxs =>
    rw [condition_of_operand (by simp), operand_list hop hne, Value.encodeArray,
      collect_eq_ok_iff.mpr hxs]

theorem condition_of_refused {path op v : Value} {refusal : Refusal}
    (h : Refused path op v refusal) :
    condition path op v = .error (.invalidArgument .filter refusal) := by
  cases h with
  | field h =>
    cases path with
    | string s => exact absurd rfl (h s)
    | _ => rfl
  | operator h =>
    have hnone : op.string?.bind Operator.ofSymbol? = none := by
      rw [Option.eq_none_iff_forall_ne_some]
      intro o ho
      obtain ⟨s, hs, hsymbol⟩ := Option.bind_eq_some_iff.mp ho
      apply h o
      rw [Operator.ofSymbol?_eq_some_iff.mp hsymbol, ← Value.string?_eq_some_iff, hs]
    rw [condition, hnone]
    rfl
  | @test s op v hv hop =>
    rcases hv with rfl | rfl <;> rw [condition_symbol] <;> exact if_neg hop
  | @list s op v hv hop h =>
    have hlist : operand op v = .error (.noList op.symbol) := by
      unfold operand
      rw [if_pos hop]
      split
      · exact absurd (h _ rfl) (by simp)
      · rfl
    rw [condition_of_operand hv, hlist]
  | element hop hbefore h =>
    rw [condition_of_operand (by simp), operand_list hop (by simp),
      Value.encodeArray_eq_error_iff.mpr ⟨_, _, _, rfl, hbefore, h, rfl⟩]
  | operand hop h =>
    have hv : v ≠ .null ∧ v ≠ .double .nan := by
      constructor
      · rintro rfl
        exact h trivial
      · rintro rfl
        exact h trivial
    rw [condition_of_operand hv, operand_scalar hop, Value.encode_eq_error_iff.mpr ⟨h, rfl⟩]

theorem makes_or_refused (path op v : Value) :
    (∃ f, Makes path op v f) ∨ ∃ refusal, Refused path op v refusal := by
  by_cases hpath : ∃ s, path = .string s
  swap
  · exact Or.inr ⟨_, .field (not_exists.mp hpath)⟩
  obtain ⟨s, rfl⟩ := hpath
  by_cases hop : ∃ o : Operator, op = .string o.symbol
  swap
  · exact Or.inr ⟨_, .operator (not_exists.mp hop)⟩
  obtain ⟨o, rfl⟩ := hop
  by_cases hv : v = .null ∨ v = .double .nan
  · by_cases hequal : o = .equal
    · subst hequal
      rcases hv with rfl | rfl
      · exact Or.inl ⟨_, .null s⟩
      · exact Or.inl ⟨_, .nan s⟩
    · exact Or.inr ⟨_, .test hv hequal⟩
  have hne : v ≠ .null ∧ v ≠ .double .nan := not_or.mp hv
  cases hlist : o.takesList with
  | false =>
    cases hx : v.encode with
    | ok x => exact Or.inl ⟨_, .scalar hne hlist hx⟩
    | error e => exact Or.inr ⟨_, .operand hlist (Value.encode_eq_error_iff.mp hx).1⟩
  | true =>
    by_cases hitems : ∃ items, v = .array items ∧ items ≠ []
    swap
    · refine Or.inr ⟨_, .list hne hlist fun items hv => ?_⟩
      by_contra hnil
      exact hitems ⟨items, hv, hnil⟩
    obtain ⟨items, rfl, hnil⟩ := hitems
    cases hxs : Value.encodeArray items with
    | ok xs => exact Or.inl ⟨_, .list hlist hnil (collect_eq_ok_iff.mp hxs)⟩
    | error e =>
      obtain ⟨before, item, after, rfl, hbefore, hitem, -⟩ := Value.encodeArray_eq_error_iff.mp hxs
      exact Or.inr ⟨_, .element hlist hbefore hitem⟩

theorem condition_eq_ok_iff {path op v : Value} {f : Filter} :
    condition path op v = .ok f ↔ Makes path op v f := by
  refine ⟨fun h => ?_, condition_of_makes⟩
  rcases makes_or_refused path op v with ⟨g, hg⟩ | ⟨refusal, hr⟩
  · rw [condition_of_makes hg, Except.ok.injEq] at h
    exact h ▸ hg
  · rw [condition_of_refused hr] at h
    cases h

theorem condition_eq_error_iff {path op v : Value} {e : QueryError} :
    condition path op v = .error e ↔
      ∃ refusal, Refused path op v refusal ∧ e = .invalidArgument .filter refusal := by
  constructor
  · intro h
    rcases makes_or_refused path op v with ⟨g, hg⟩ | ⟨refusal, hr⟩
    · rw [condition_of_makes hg] at h
      cases h
    · rw [condition_of_refused hr, Except.error.injEq] at h
      exact ⟨refusal, hr, h.symm⟩
  · rintro ⟨refusal, hr, rfl⟩
    exact condition_of_refused hr

inductive Reads : List Value → Filter → Prop
  | triple {path op v : Value} {f : Filter} (h : Makes path op v f) : Reads [path, op, v] f

inductive Faulty : List Value → Refusal → Prop
  | count {items : List Value} (h : items.length ≠ 3) : Faulty items .notFilter
  | refused {path op v : Value} {refusal : Refusal} (h : Refused path op v refusal) :
      Faulty [path, op, v] refusal

theorem ofTriple_of_length {items : List Value} (h : items.length ≠ 3) :
    ofTriple items = notFilter := by
  match items with
  | [_, _, _] => exact absurd rfl h
  | [] => rfl
  | [_] => rfl
  | [_, _] => rfl
  | _ :: _ :: _ :: _ :: _ => rfl

theorem ofTriple_eq_ok_iff {items : List Value} {f : Filter} :
    ofTriple items = .ok f ↔ Reads items f := by
  constructor
  · intro h
    by_cases hlen : items.length = 3
    · obtain ⟨path, op, v, rfl⟩ := List.length_eq_three.mp hlen
      exact .triple (condition_eq_ok_iff.mp h)
    · rw [ofTriple_of_length hlen] at h
      cases h
  · rintro ⟨h⟩
    exact condition_of_makes h

theorem ofTriple_eq_error_iff {items : List Value} {e : QueryError} :
    ofTriple items = .error e ↔
      ∃ refusal, Faulty items refusal ∧ e = .invalidArgument .filter refusal := by
  constructor
  · intro h
    by_cases hlen : items.length = 3
    · obtain ⟨path, op, v, rfl⟩ := List.length_eq_three.mp hlen
      obtain ⟨refusal, hr, rfl⟩ := condition_eq_error_iff.mp h
      exact ⟨refusal, .refused hr, rfl⟩
    · rw [ofTriple_of_length hlen] at h
      exact ⟨.notFilter, .count hlen, (Except.error.inj h).symm⟩
  · rintro ⟨refusal, hlen | h, rfl⟩
    · exact ofTriple_of_length hlen
    · exact condition_of_refused h

theorem collect_ofTriple_eq_ok_iff {triples : List (List Value)} {fs : List Filter} :
    collect ofTriple triples = .ok fs ↔ List.Forall₂ Reads triples fs := by
  rw [collect_eq_ok_iff]
  induction triples generalizing fs with
  | nil => cases fs <;> simp
  | cons triple triples ih =>
    cases fs with
    | nil => simp
    | cons f fs => simp [ih, ofTriple_eq_ok_iff]

theorem parse_arrays (triples : List (List Value)) :
    parse (.array (triples.map .array)) = (collect ofTriple triples).map all := by
  cases triples with
  | nil => rfl
  | cons triple triples =>
    have h : collect arrayOf (.array triple :: triples.map .array) = .ok (triple :: triples) :=
      collect_arrayOf_eq_ok_iff.mpr rfl
    simp only [List.map_cons, parse, h]

theorem parse_short {first : Value} {rest : List Value} (h : ∀ items, first ≠ .array items) :
    parse (.array (first :: rest)) = parse (.array [.array (first :: rest)]) := by
  have hone := parse_arrays [first :: rest]
  rw [parse_plain h, List.map_singleton] at *
  rw [hone, collect, collect]
  cases ofTriple (first :: rest) <;> rfl

/-- The elements are looked at for being arrays before any of them is read. -/
theorem parse_of_not_array {first rest : List Value} {item : Value} (hitem : item ∈ rest)
    (h : ∀ items, item ≠ .array items) :
    parse (.array (.array first :: rest)) = notFilter := by
  rcases judges_arrayOf.collect (.array first :: rest) with ⟨hall, -⟩ | ⟨-, refusal, herror⟩
  · obtain ⟨items, hitems⟩ := hall item (List.mem_cons_of_mem _ hitem)
    exact absurd hitems (h items)
  · obtain ⟨-, v, -, -, -, hv⟩ := collect_eq_error_iff.mp herror
    simp only [parse, herror]
    cases v with
    | array items => cases hv
    | _ => exact congrArg Except.error (Except.error.inj hv).symm

mutual

def leaves : Filter → List Filter
  | field path op operand => [field path op operand]
  | unary path op => [unary path op]
  | conjunction filters => leavesOf filters

def leavesOf : List Filter → List Filter
  | [] => []
  | filter :: filters => filter.leaves ++ leavesOf filters

end

theorem leaves_of_makes {path op v : Value} {f : Filter} (h : Makes path op v f) :
    f.leaves = [f] := by
  cases h <;> rfl

theorem leavesOf_of_reads {triples : List (List Value)} {fs : List Filter}
    (h : List.Forall₂ Reads triples fs) : leavesOf fs = fs := by
  induction h with
  | nil => rfl
  | cons hf _ ih =>
    obtain ⟨hf⟩ := hf
    rw [leavesOf, leaves_of_makes hf, ih]
    rfl

theorem leaves_all (fs : List Filter) : (all fs).elim [] leaves = leavesOf fs := by
  match fs with
  | [] => rfl
  | [f] => exact (List.append_nil f.leaves).symm
  | _ :: _ :: _ => rfl

/-- Whatever filter is read, it is read from a list of conditions. -/
theorem arrays_of_parse {v : Value} {f : Filter} (h : parse v = .ok (some f)) :
    ∃ triples : List (List Value), parse (.array (triples.map .array)) = .ok (some f) := by
  cases v with
  | array items =>
    cases items with
    | nil => cases h
    | cons first rest =>
      by_cases hfirst : ∀ items, first ≠ .array items
      · rw [parse_short hfirst] at h
        exact ⟨[first :: rest], h⟩
      simp only [ne_eq, not_forall, not_not] at hfirst
      obtain ⟨items, rfl⟩ := hfirst
      cases hall : collect arrayOf (.array items :: rest) with
      | error e => simp [parse, hall] at h
      | ok triples =>
        rw [collect_arrayOf_eq_ok_iff.mp hall] at h
        exact ⟨triples, h⟩
  | _ => cases h

theorem makes_of_parse {v : Value} {f : Filter} (h : parse v = .ok (some f)) {leaf : Filter}
    (hleaf : leaf ∈ f.leaves) : ∃ path op value, Makes path op value leaf := by
  obtain ⟨triples, htriples⟩ := arrays_of_parse h
  rw [parse_arrays] at htriples
  obtain ⟨fs, hfs, hall⟩ := map_eq_ok_iff.mp htriples
  have hreads := collect_ofTriple_eq_ok_iff.mp hfs
  have hleaves := leaves_all fs
  rw [hall, Option.elim_some, leavesOf_of_reads hreads] at hleaves
  rw [hleaves] at hleaf
  obtain ⟨triple, -, htriple⟩ := mem_of_collect_eq_ok hfs hleaf
  obtain ⟨hmakes⟩ := ofTriple_eq_ok_iff.mp htriple
  exact ⟨_, _, _, hmakes⟩

/-- Three values make a condition or are refused for the first check that fails. A filter is an
array and is read as a list of conditions if its first element is an array, else as one condition. A
list without conditions is no filter. Of a list with another element than an array nothing is read;
otherwise the first triple that is refused decides, and if there is none the conditions are put
together in their order, as the leaves of the result show. -/
theorem parse_reads_conditions :
    (∀ path op v f, condition path op v = .ok f ↔ Makes path op v f) ∧
    (∀ path op v e, condition path op v = .error e ↔
      ∃ refusal, Refused path op v refusal ∧ e = .invalidArgument .filter refusal) ∧
    (∀ v, (∀ items, v ≠ .array items) → parse v = .error (.invalidArgument .filter .notFilter)) ∧
    parse (.array []) = .ok none ∧
    (∀ first rest, (∀ items, first ≠ .array items) →
      parse (.array (first :: rest)) = parse (.array [.array (first :: rest)])) ∧
    (∀ first rest item, item ∈ rest → (∀ items, item ≠ .array items) →
      parse (.array (.array first :: rest)) = .error (.invalidArgument .filter .notFilter)) ∧
    (∀ triples r, parse (.array (triples.map .array)) = .ok r ↔
      ∃ fs, List.Forall₂ Reads triples fs ∧ r = all fs ∧ r.elim [] leaves = fs) ∧
    ∀ triples e, parse (.array (triples.map .array)) = .error e ↔
      ∃ before triple after refusal, triples = before ++ triple :: after ∧
        (∀ b ∈ before, ∃ f, Reads b f) ∧ Faulty triple refusal ∧
        e = .invalidArgument .filter refusal := by
  refine ⟨fun _ _ _ _ => condition_eq_ok_iff, fun _ _ _ _ => condition_eq_error_iff, ?notArray, rfl,
    fun _ _ h => parse_short h, fun _ _ _ => parse_of_not_array, ?conditions, ?firstFault⟩
  case notArray =>
    intro v h
    cases v with
    | array items => exact absurd rfl (h items)
    | _ => rfl
  case conditions =>
    intro triples r
    rw [parse_arrays, map_eq_ok_iff]
    constructor
    · rintro ⟨fs, hfs, rfl⟩
      have hreads := collect_ofTriple_eq_ok_iff.mp hfs
      exact ⟨fs, hreads, rfl, (leaves_all fs).trans (leavesOf_of_reads hreads)⟩
    · rintro ⟨fs, hreads, rfl, -⟩
      exact ⟨fs, collect_ofTriple_eq_ok_iff.mpr hreads, rfl⟩
  case firstFault =>
    intro triples e
    have hmap : (collect ofTriple triples).map all = .error e ↔
        collect ofTriple triples = .error e := by
      cases collect ofTriple triples <;> simp [Except.map]
    rw [parse_arrays, hmap, collect_eq_error_iff]
    simp only [ofTriple_eq_ok_iff, ofTriple_eq_error_iff]
    constructor
    · rintro ⟨before, triple, after, hsplit, hbefore, refusal, hfault, he⟩
      exact ⟨before, triple, after, refusal, hsplit, hbefore, hfault, he⟩
    · rintro ⟨before, triple, after, refusal, hsplit, hbefore, hfault, he⟩
      exact ⟨before, triple, after, hsplit, hbefore, refusal, hfault, he⟩

/-- Three values wrong in every place; a pair behind a condition and before a bad operator; a text
behind a bad operator; one condition in the short form; two conditions, the second of them on a
whole double. -/
theorem parse_reads_conditions_mixed :
    let isNull : List Value := [.string "n", .string "==", .null]
    let badOperator : List Value := [.string "n", .string "===", .integer 1]
    let isOne : List Value :=
      [.string "a", .string "in", .array [.string "x", .double (.finite (.zero true))]]
    let leafNull : Filter := .unary "n" .isNull
    let leafOne : Filter := .field "a" .isIn (.list [.string "x", .integer 0])
    condition (.integer 1) (.string "===") (.map []) =
        .error (.invalidArgument .filter .badField) ∧
      parse (.string "n == 1") = .error (.invalidArgument .filter .notFilter) ∧
      parse (.array isNull) = parse (.array [.array isNull]) ∧
      parse (.array [.array badOperator, .string "n"]) =
        .error (.invalidArgument .filter .notFilter) ∧
      parse (.array [.array isNull, .array [.string "n"], .array badOperator]) =
        .error (.invalidArgument .filter .notFilter) ∧
      parse (.array [.array isNull, .array badOperator, .array [.string "n"]]) =
        .error (.invalidArgument .filter .badOperator) ∧
      parse (.array [.array isNull, .array isOne]) = .ok (some (.conjunction [leafNull, leafOne])) ∧
      (Filter.conjunction [leafNull, leafOne]).leaves = [leafNull, leafOne] := by
  intro isNull badOperator isOne leafNull leafOne
  obtain ⟨-, hrefused, hnotArray, -, hshort, hnotArrays, hconditions, hfault⟩ :=
    parse_reads_conditions
  have hnull : Reads isNull leafNull := .triple (.null "n")
  have hone : Reads isOne leafOne := by
    refine .triple (@Makes.list "a" .isIn _ _ rfl (by simp) ?_)
    have hzero : (Value.double (.finite (.zero true))).encode = .ok (.integer 0) := by
      have hwhole : (Double.finite (.zero true)).toInt64? = some 0 := by
        rw [Double.toInt64?_finite_eq_some_iff, FiniteDouble.units_zero]
        exact (Int.zero_mul _).symm
      simp only [Value.encode, hwhole]
    rw [List.map_cons, List.map_singleton, hzero]
    rfl
  have hboth := (hconditions [isNull, isOne] (some (.conjunction [leafNull, leafOne]))).mpr
    ⟨[leafNull, leafOne], .cons hnull (.cons hone .nil), rfl, rfl⟩
  refine ⟨(hrefused ..).mpr ⟨.badField, .field (by simp), rfl⟩, hnotArray _ (by simp),
    hshort (.string "n") _ (by simp), hnotArrays _ [.string "n"] (.string "n") (by simp) (by simp),
    ?_, ?_, hboth, rfl⟩
  · exact (hfault [isNull, [.string "n"], badOperator] _).mpr
      ⟨[isNull], [.string "n"], [badOperator], .notFilter, rfl,
        List.forall_mem_singleton.mpr ⟨_, hnull⟩, .count (by decide), rfl⟩
  · have hbad : Refused (.string "n") (.string "===") (.integer 1) .badOperator := by
      refine .operator fun o => ?_
      rw [ne_eq, Value.string.injEq]
      cases o <;> decide
    exact (hfault [isNull, badOperator, [.string "n"]] _).mpr
      ⟨[isNull], badOperator, [[.string "n"]], .badOperator, rfl,
        List.forall_mem_singleton.mpr ⟨_, hnull⟩, .refused hbad, rfl⟩

end Filter

end DocStore
