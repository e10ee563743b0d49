import DocStore.Proofs.Path.Separators
import DocStore.Query.Run
import Mathlib.Data.List.Forall2

/-!
# Ways to write sources

The collections of a query can be given as references or by their paths, in
values or in JSON, and a path counts by its non-empty pieces alone. Main
statement: whatever way is taken for each of them, a database makes the same
query of it, or refuses it with the same error; and where no path is written as
text, the database, its references and the query itself read options alike.
-/

set_option autoImplicit false

namespace DocStore

theorem Database.reference_eq_of_pieces {db : Database} {s t : String}
    (h : pieces s = pieces t) : db.reference s = db.reference t := by
  rw [reference, reference, Address.parse, Address.parse, Segment.ofPath_eq_iff.mpr h]

def Database.references (db : Database) (paths : List String) : List Value :=
  paths.map fun path => .reference (db.reference path)

namespace Value

inductive SpellsPath (db : Database) (path : String) : Value → Prop
  | text {s : String} (h : pieces s = pieces path) : SpellsPath db path (.string s)
  | reference {s : String} (h : pieces s = pieces path) :
      SpellsPath db path (.reference (db.reference s))

inductive Spells (db : Database) : List String → Value → Prop
  | array {paths : List String} {items : List Value}
      (h : List.Forall₂ (SpellsPath db) paths items) : Spells db paths (.array items)
  | single {path : String} {v : Value} (h : SpellsPath db path v) : Spells db [path] v

inductive PathFree : Value → Prop
  | array {items : List Value} (h : ∀ item ∈ items, PathFree item) : PathFree (.array items)
  | other {v : Value} (hstring : ∀ s, v ≠ .string s) (harray : ∀ items, v ≠ .array items) :
      PathFree v

theorem SpellsPath.resolvePaths {db : Database} {path : String} {v : Value}
    (h : SpellsPath db path v) : v.resolvePaths db = .reference (db.reference path) := by
  cases h with
  | text h => rw [Value.resolvePaths, Database.reference_eq_of_pieces h]
  | reference h => rw [Value.resolvePaths, Database.reference_eq_of_pieces h]

theorem resolveItems_of_spells {db : Database} {paths : List String} {items : List Value}
    (h : List.Forall₂ (SpellsPath db) paths items) :
    resolveItems db items = db.references paths := by
  induction h with
  | nil => rfl
  | cons hitem _ ih =>
    rw [resolveItems, hitem.resolvePaths, ih]
    rfl

theorem resolveItems_of_pathFree {db : Database} {items : List Value}
    (h : ∀ item ∈ items, item.resolvePaths db = item) : resolveItems db items = items := by
  induction items with
  | nil => rfl
  | cons item items ih =>
    rw [resolveItems, h item (List.mem_cons_self ..),
      ih fun item hitem => h item (List.mem_cons_of_mem _ hitem)]

theorem PathFree.resolvePaths {db : Database} {v : Value} (h : v.PathFree) :
    v.resolvePaths db = v := by
  induction h with
  | array _ ih => rw [Value.resolvePaths, resolveItems_of_pathFree ih]
  | @other v hstring harray =>
    cases v with
    | string s => exact absurd rfl (hstring s)
    | array items => exact absurd rfl (harray items)
    | _ => rfl

end Value

namespace Json

inductive SpellsPath (path : String) : Json → Prop
  | text {s : String} (h : pieces s = pieces path) : SpellsPath path (.str s)
  | reference {s : String} (h : pieces s = pieces path) :
      SpellsPath path (.obj [("$ref", .str s)])

inductive Spells : List String → Json → Prop
  | array {paths : List String} {items : List Json} (h : List.Forall₂ SpellsPath paths items) :
      Spells paths (.arr items)
  | single {path : String} {j : Json} (h : SpellsPath path j) : Spells [path] j

theorem SpellsPath.ofJson {path : String} {j : Json} (h : SpellsPath path j) (db : Database) :
    Value.SpellsPath db path (Value.ofJson db j) := by
  cases h with
  | text h => exact .text h
  | reference h => exact .reference h

theorem Spells.ofJson {paths : List String} {j : Json} (h : Spells paths j) (db : Database) :
    Value.Spells db paths (Value.ofJson db j) := by
  cases h with
  | single h => exact .single (h.ofJson db)
  | @array _ items h =>
    apply Value.Spells.array
    induction h with
    | nil => exact .nil
    | cons hitem _ ih => exact .cons (hitem.ofJson db) ih

end Json

namespace Query

theorem parseSources_of_spells {db : Database} {paths : List String} {v : Value}
    (h : v.Spells db paths) (all : Option Bool) :
    parseSources all (some (v.resolvePaths db)) =
      parseSources all (some (.array (db.references paths))) := by
  cases h with
  | array h => rw [Value.resolvePaths, Value.resolveItems_of_spells h]
  | single h =>
    rw [h.resolvePaths]
    rfl

theorem new_congr_source {o : Options} {s s' : Option Value}
    (h : parseSources o.allDescendants s = parseSources o.allDescendants s') :
    Query.new { o with source := s } = Query.new { o with source := s' } := by
  have hsame : ofOptions { o with source := s } = ofOptions { o with source := s' } := by
    simp only [ofOptions, h]
  unfold Query.new
  rw [hsame]

/-- A spelling makes the query that the array of the references makes. -/
theorem query_of_spells {db : Database} {paths : List String} {v : Value}
    (h : v.Spells db paths) (rest : Options) :
    db.query { rest with source := some v } =
      Query.new { rest with source := some (.array (db.references paths)) } :=
  new_congr_source (parseSources_of_spells h rest.allDescendants)

end Query

namespace Options

theorem source_of_ofJson {db : Database} {raw : Json} {o : Options}
    (h : ofJson db raw = .ok o) : o.source = (raw.get? "from").map (Value.ofJson db) := by
  cases raw with
  | obj members =>
    rw [ofJson] at h
    cases hflag : flagOf members with
    | error e => simp [hflag] at h
    | ok all =>
      simp only [hflag, Except.ok.injEq] at h
      rw [← h]
      rfl
  | _ => cases h

theorem ofJson_congr {db : Database} {members members' : List (String × Json)}
    (h : ∀ key, key ≠ "from" → members.lookup key = members'.lookup key) :
    ofJson db (.obj members') = (ofJson db (.obj members)).map fun o =>
      { o with source := (members'.lookup "from").map (Value.ofJson db) } := by
  have hlookup : ∀ a : Argument, a ≠ .source → members.lookup a.name = members'.lookup a.name := by
    intro a ha
    apply h
    cases a <;> first | decide | exact absurd rfl ha
  have hflag : flagOf members = flagOf members' := by
    rw [flagOf, flagOf, hlookup .allDescendants (by decide)]
  rw [ofJson, ofJson, hflag]
  cases flagOf members' with
  | error e => rfl
  | ok all =>
    simp only [hlookup .select (by decide), hlookup .filter (by decide),
      hlookup .order (by decide), hlookup .startAt (by decide), hlookup .endAt (by decide),
      hlookup .offset (by decide), hlookup .limit (by decide)]
    rfl

end Options

/-- Options that were read from JSON make the query of any other spelling of their source. -/
theorem Query.query_of_ofJson {db : Database} {paths : List String} {raw j : Json} {o : Options}
    {v : Value} (ho : Options.ofJson db raw = .ok o) (hj : raw.get? "from" = some j)
    (hspells : j.Spells paths) (hv : v.Spells db paths) :
    db.query o = db.query { o with source := some v } := by
  have hsource : o.source = some (Value.ofJson db j) := by
    rw [Options.source_of_ofJson ho, hj]
    rfl
  have hown : o = { o with source := some (Value.ofJson db j) } := by
    rw [← hsource]
  rw [hown, query_of_spells (hspells.ofJson db), query_of_spells hv]

/-- However the sources of a query are written, a database makes the same query of the options or
refuses them with the same error, and that is what the references themselves would make. A
reference of the database stands for its path, and options without paths as text are read by the
database and by references as they are. -/
theorem Database.spellings_make_same_query (db : Database) (paths : List String)
    (rest : Options) :
    (∀ v w, Value.Spells db paths v → Value.Spells db paths w →
      db.query { rest with source := some v } = db.query { rest with source := some w } ∧
        db.query { rest with source := some v } =
          Query.new { rest with source := some (.array (db.references paths)) }) ∧
    (∀ raw o j v, Options.ofJson db raw = .ok o → raw.get? "from" = some j → j.Spells paths →
      Value.Spells db paths v → db.query o = db.query { o with source := some v }) ∧
    (∀ members members' j j', (∀ key, key ≠ "from" → members.lookup key = members'.lookup key) →
      members.lookup "from" = some j → j.Spells paths →
      members'.lookup "from" = some j' → j'.Spells paths →
      (Options.ofJson db (.obj members)).map db.query =
        (Options.ofJson db (.obj members')).map db.query) ∧
    (∀ r : Reference, r.database = db → rest.source = none →
      r.query rest = db.query { rest with source := some (.string r.path) }) ∧
    ∀ (r : Reference) (v : Value), rest.source = some v → v.PathFree →
      r.query rest = Query.new rest ∧ db.query rest = Query.new rest := by
  refine ⟨?values, ?json, ?members, ?reference, ?plain⟩
  case values =>
    intro v w hv hw
    rw [Query.query_of_spells hv, Query.query_of_spells hw]
    exact ⟨rfl, rfl⟩
  case json =>
    intro raw o j v ho hj hspells hv
    exact Query.query_of_ofJson ho hj hspells hv
  case members =>
    intro members members' j j' hother hj hspells hj' hspells'
    rw [Options.ofJson_congr hother, hj']
    cases ho : Options.ofJson db (.obj members) with
    | error e => rfl
    | ok o =>
      have hsame : db.query o = db.query { o with source := some (Value.ofJson db j') } :=
        Query.query_of_ofJson ho hj hspells (hspells'.ofJson db)
      exact congrArg Except.ok hsame
  case reference =>
    intro r hr hsource
    subst hr
    have hfill : r.fillOptions rest = { rest with source := some (.reference r) } := by
      rw [Reference.fillOptions, hsource]
      rfl
    have hresolve : r.database.resolveOptions { rest with source := some (.string r.path) } =
        { rest with source := some (.reference r) } := by
      rw [Database.resolveOptions, Option.map_some, Value.resolvePaths, r.reference_path]
    rw [Reference.query, hfill, Database.query, hresolve]
  case plain =>
    intro r v hv hfree
    have hfill : r.fillOptions rest = rest := by
      rw [Reference.fillOptions, hv, Option.getD_some, ← hv]
    have hresolve : db.resolveOptions rest = rest := by
      rw [Database.resolveOptions, hv, Option.map_some, hfree.resolvePaths, ← hv]
    rw [Reference.query, hfill, Database.query, hresolve]
    exact ⟨rfl, rfl⟩

/-- Two paths with idle separators, as text, as references and in JSON. -/
theorem Database.spellings_make_same_query_idle_separators :
    let db := Database.sample
    let texts : Value := .array [.string "//users/", .string "a/b//c"]
    let references : Value := .array (db.references ["users", "a/b/c"])
    let mixed : Json := .arr [.str "users", .obj [("$ref", .str "a/b/c/")]]
    let plain : Json := .arr [.str "/users", .str "a/b/c"]
    let members (source : Json) : List (String × Json) := [("from", source), ("limit", .ofInt 5)]
    let limited : Options := { limit := some (.integer 5) }
    db.query { limited with source := some texts } =
        db.query { limited with source := some references } ∧
      db.query { limited with source := some (Value.ofJson db mixed) } =
        db.query { limited with source := some texts } ∧
      (Options.ofJson db (.obj (members mixed))).map db.query =
        (Options.ofJson db (.obj (members plain))).map db.query ∧
      (db.reference "users").query limited =
        db.query { limited with source := some (.string (db.reference "users").path) } ∧
      (db.reference "posts").query { limited with source := some references } =
        Query.new { limited with source := some references } := by
  intro db texts references mixed plain members limited
  have hpieces : pieces "//users/" = pieces "users" ∧ pieces "a/b//c" = pieces "a/b/c" ∧
      pieces "a/b/c/" = pieces "a/b/c" ∧ pieces "/users" = pieces "users" := by decide
  obtain ⟨husers, habc, habc', husers'⟩ := hpieces
  have htexts : Value.Spells db ["users", "a/b/c"] texts :=
    .array (.cons (.text husers) (.cons (.text habc) .nil))
  have hreferences : Value.Spells db ["users", "a/b/c"] references :=
    .array (.cons (.reference rfl) (.cons (.reference rfl) .nil))
  have hmixed : mixed.Spells ["users", "a/b/c"] :=
    .array (.cons (.text rfl) (.cons (.reference habc') .nil))
  have hplain : plain.Spells ["users", "a/b/c"] :=
    .array (.cons (.text husers') (.cons (.text rfl) .nil))
  have hfree : references.PathFree := by
    apply Value.PathFree.array
    intro item hitem
    obtain ⟨path, -, rfl⟩ := List.mem_map.mp hitem
    exact .other nofun nofun
  obtain ⟨hvalues, hjson, hmembers, hreference, -⟩ :=
    spellings_make_same_query db ["users", "a/b/c"] limited
  obtain ⟨-, -, -, -, halike⟩ :=
    spellings_make_same_query db ["users", "a/b/c"] { limited with source := some references }
  refine ⟨(hvalues _ _ htexts hreferences).1, ?_, ?_, hreference _ rfl rfl,
    (halike _ _ rfl hfree).1⟩
  · exact hjson (.obj (members mixed)) _ mixed texts rfl rfl hmixed htexts
  · apply hmembers _ _ _ _ _ rfl hmixed rfl hplain
    intro key hkey
    have hne : (key == "from") = false := beq_false_of_ne hkey
    simp only [members, List.lookup_cons, hne]

end DocStore
