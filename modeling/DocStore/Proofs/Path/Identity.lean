import DocStore.Collect
import DocStore.Proofs.Path.Names

/-!
# Names as identities

A database knows exactly the names that begin with its own and go on, if at all,
with a separator. What follows is cut at the separators, and empty pieces are
lost; so a name comes back as it was unless it has a separator at its end or two
in a row. Main statement: inside one database names, URLs and references stand
for each other.
-/

set_option autoImplicit false

namespace DocStore

namespace Segment

theorem toList_ofChars {cs : List Char} (hcs : cs ≠ []) (hs : separator ∉ cs) :
    (ofChars? cs).map (fun s => s.text.toList) = some cs := by
  rw [ofChars?, dif_pos ⟨hcs, hs⟩]
  simp

theorem separator_not_mem_piece {xs piece : List Char} (h : piece ∈ xs.splitOn separator) :
    separator ∉ piece := by
  induction xs generalizing piece with
  | nil =>
    rw [List.splitOn_nil, List.mem_singleton] at h
    rw [h]
    exact List.not_mem_nil
  | cons x xs ih =>
    rw [List.splitOn_cons_eq_if_modifyHead] at h
    by_cases hx : (x == separator) = true
    · rw [if_pos hx, List.mem_cons] at h
      rcases h with rfl | h
      · exact List.not_mem_nil
      · exact ih h
    · rw [if_neg hx] at h
      cases hps : xs.splitOn separator with
      | nil => exact absurd hps (List.splitOn_ne_nil _ _)
      | cons p ps =>
        rw [hps, List.modifyHead_cons, List.mem_cons] at h
        rcases h with rfl | h
        · have hp : separator ∉ p := ih (hps ▸ List.mem_cons_self)
          simp only [beq_iff_eq] at hx
          exact List.not_mem_cons_of_ne_of_not_mem (Ne.symm hx) hp
        · exact ih (hps ▸ List.mem_cons_of_mem _ h)

theorem texts_of_pieces {pieces : List (List Char)} (h : ∀ piece ∈ pieces, separator ∉ piece) :
    (pieces.filterMap ofChars?).map (fun s => s.text.toList) =
      pieces.filter (fun piece => piece ≠ []) := by
  induction pieces with
  | nil => rfl
  | cons piece pieces ih =>
    obtain ⟨hpiece, hrest⟩ := List.forall_mem_cons.mp h
    by_cases hne : piece = []
    · subst hne
      rw [List.filterMap_cons_none ofChars?_nil, ih hrest]
      rfl
    · obtain ⟨s, hs, htext⟩ := Option.map_eq_some_iff.mp (toList_ofChars hne hpiece)
      rw [List.filterMap_cons_some hs, List.map_cons, htext, ih hrest,
        List.filter_cons_of_pos (by simpa using hne)]

theorem texts_ofPath (raw : String) :
    (ofPath raw).map (fun s => s.text.toList) =
      (raw.toList.splitOn separator).filter (fun piece => piece ≠ []) :=
  texts_of_pieces fun _ => separator_not_mem_piece

theorem piece_append_pieces {xs piece : List Char} {pieces : List (List Char)}
    (h : xs.splitOn separator = piece :: pieces) :
    xs = piece ++ pieces.flatMap (separator :: ·) := by
  rw [← Address.intercalate_eq_flatMap, ← h, List.intercalate_splitOn]

/-- A piece behind the first is empty where a separator is the last character or has another one
right behind it. -/
theorem nil_mem_pieces_iff {xs piece : List Char} {pieces : List (List Char)}
    (h : xs.splitOn separator = piece :: pieces) :
    [] ∈ pieces ↔ [separator] <:+ xs ∨ [separator, separator] <:+: xs := by
  -- Whatever stands before a separator has a first piece of its own.
  have hbehind : ∀ before after : List Char, xs = before ++ separator :: after →
      ∃ between, pieces = between ++ after.splitOn separator := by
    intro before after hxs
    cases hb : before.splitOn separator with
    | nil => exact absurd hb (List.splitOn_ne_nil _ _)
    | cons first between =>
      rw [hxs, List.splitOn_append_cons_self, hb, List.cons_append, List.cons.injEq] at h
      exact ⟨between, h.2.symm⟩
  constructor
  · intro hmem
    obtain ⟨left, right, rfl⟩ := List.append_of_mem hmem
    have hxs := piece_append_pieces h
    rw [List.flatMap_append, List.flatMap_cons, ← List.append_assoc] at hxs
    cases right with
    | nil => exact Or.inl ⟨_, hxs.symm⟩
    | cons next right =>
      rw [List.flatMap_cons] at hxs
      refine Or.inr ⟨piece ++ left.flatMap (separator :: ·),
        next ++ right.flatMap (separator :: ·), ?_⟩
      rw [hxs]
      simp
  · rintro (⟨before, hxs⟩ | ⟨before, after, hxs⟩)
    · obtain ⟨between, rfl⟩ := hbehind before [] hxs.symm
      simp [List.splitOn_nil]
    · obtain ⟨between, rfl⟩ := hbehind before (separator :: after) (by simpa using hxs.symm)
      have hcut := List.splitOn_append_cons_self (a := separator) [] after
      rw [List.nil_append, List.splitOn_nil] at hcut
      simp [hcut]

theorem length_flatMap_filter_le (pieces : List (List Char)) :
    ((pieces.filter (fun piece => piece ≠ [])).flatMap (separator :: ·)).length ≤
      (pieces.flatMap (separator :: ·)).length := by
  induction pieces with
  | nil => exact Nat.le_refl _
  | cons piece pieces ih =>
    by_cases h : piece = []
    · rw [List.filter_cons_of_neg (by simpa using h), List.flatMap_cons, List.length_append]
      omega
    · rw [List.filter_cons_of_pos (by simpa using h), List.flatMap_cons, List.flatMap_cons,
        List.length_append, List.length_append]
      omega

theorem flatMap_filter_eq_iff (pieces : List (List Char)) :
    (pieces.filter (fun piece => piece ≠ [])).flatMap (separator :: ·) =
        pieces.flatMap (separator :: ·) ↔ [] ∉ pieces := by
  constructor
  · intro h hmem
    obtain ⟨left, right, rfl⟩ := List.append_of_mem hmem
    have hlength := congrArg List.length h
    rw [List.filter_append, List.filter_cons_of_neg (by simp)] at hlength
    simp only [List.flatMap_append, List.flatMap_cons, List.length_append, List.length_cons,
      List.length_nil] at hlength
    have hleft := length_flatMap_filter_le left
    have hright := length_flatMap_filter_le right
    omega
  · intro h
    rw [List.filter_eq_self.mpr]
    intro piece hpiece
    simpa using fun hnil : piece = [] => h (hnil ▸ hpiece)

end Segment

namespace Address

theorem suffix_parse (raw : String) :
    (parse raw).suffix =
      ((raw.toList.splitOn separator).filter (fun piece => piece ≠ [])).flatMap
        (separator :: ·) := by
  rw [← Segment.texts_ofPath, List.flatMap_map]
  rfl

/-- A text that may stand behind a name comes back from its segments if every separator has a
segment behind it. -/
theorem suffix_parse_eq_iff {rest : List Char} (h : rest = [] ∨ rest.head? = some separator) :
    (parse (String.ofList rest)).suffix = rest ↔
      ¬ [separator] <:+ rest ∧ ¬ [separator, separator] <:+: rest := by
  rcases h with rfl | h
  · simp [suffix_parse, List.splitOn_nil]
  · obtain ⟨y, rfl⟩ : ∃ y, rest = separator :: y := by
      cases rest with
      | nil => cases h
      | cons c y => exact ⟨y, by rw [List.head?_cons, Option.some.injEq] at h; rw [h]⟩
    have hcut : (separator :: y).splitOn separator = [] :: y.splitOn separator := by
      have h := List.splitOn_append_cons_self (a := separator) [] y
      rwa [List.nil_append, List.splitOn_nil] at h
    have hrest := Segment.piece_append_pieces hcut
    rw [List.nil_append] at hrest
    rw [suffix_parse, String.toList_ofList, hcut, List.filter_cons_of_neg (by simp), ← not_or,
      ← Segment.nil_mem_pieces_iff hcut, ← Segment.flatMap_filter_eq_iff, ← hrest]

end Address

namespace Reference

theorem reference_path (r : Reference) : r.database.reference r.path = r := by
  rw [Database.reference, path, Address.parse_toString]

inductive ReachedIn (db : Database) : Reference → Prop
  | reference (path : String) : ReachedIn db (db.reference path)
  | child {r : Reference} (h : ReachedIn db r) (path : String) : ReachedIn db (r.child path)
  | parent {r p : Reference} (h : ReachedIn db r) (hp : r.parent = .ok p) : ReachedIn db p
  | parentCollection {r p : Reference} (h : ReachedIn db r) (hp : r.parentCollection = .ok p) :
      ReachedIn db p

theorem reachedIn_database (r : Reference) : r.ReachedIn r.database := by
  have h := @ReachedIn.reference r.database r.path
  rwa [reference_path] at h

theorem ReachedIn.database {db : Database} {r : Reference} (h : ReachedIn db r) :
    r.database = db := by
  induction h with
  | reference path => rfl
  | child _ path ih => exact ih
  | parent _ hp ih => exact (parent_eq_ok_iff.mp hp).2.symm.trans ih
  | parentCollection _ hp ih =>
    obtain ⟨a, -, rfl⟩ := map_eq_ok_iff.mp hp
    exact ih

end Reference

namespace Database

theorem textAfter?_eq_some_iff {start text rest : List Char} :
    textAfter? start text = some rest ↔ text = start ++ rest := by
  constructor
  · intro h
    unfold textAfter? at h
    split at h
    · next hstart =>
      cases h
      exact (List.prefix_iff_eq_append.mp (List.isPrefixOf_iff_prefix.mp hstart)).symm
    · cases h
  · rintro rfl
    exact textAfter?_append start rest

/-- What a name may have behind that of the database, and what it then refers to. -/
theorem referenceFromName?_eq_some_iff {db : Database} {n : String} {r : Reference} :
    db.referenceFromName? n = some r ↔ ∃ rest : List Char,
      n.toList = db.rootPath.toList ++ rest ∧ (rest = [] ∨ rest.head? = some separator) ∧
        r = db.reference (String.ofList rest) := by
  rw [referenceFromName?]
  constructor
  · intro h
    split at h
    · cases h
    · next rest hrest =>
      split at h
      · next hstart =>
        exact ⟨rest, textAfter?_eq_some_iff.mp hrest, hstart, (Option.some.inj h).symm⟩
      · cases h
  · rintro ⟨rest, hn, hstart, rfl⟩
    rw [hn, textAfter?_append]
    exact if_pos hstart

theorem exists_referenceFromName?_iff {db : Database} {n : String} :
    (∃ r, db.referenceFromName? n = some r) ↔
      n = db.rootPath ∨ (db.rootPath.toList ++ [separator]) <+: n.toList := by
  constructor
  · rintro ⟨r, h⟩
    obtain ⟨rest, hn, rfl | hstart, -⟩ := referenceFromName?_eq_some_iff.mp h
    · rw [List.append_nil] at hn
      exact Or.inl (String.toList_inj.mp hn)
    · cases rest with
      | nil => cases hstart
      | cons c rest =>
        rw [List.head?_cons, Option.some.injEq] at hstart
        exact Or.inr ⟨rest, by simp [hn, hstart]⟩
  · rintro (rfl | ⟨rest, hn⟩)
    · exact ⟨_, referenceFromName?_eq_some_iff.mpr ⟨[], by simp, Or.inl rfl, rfl⟩⟩
    · exact ⟨_, referenceFromName?_eq_some_iff.mpr
        ⟨separator :: rest, by simpa using hn.symm, Or.inr rfl, rfl⟩⟩

end Database

namespace Reference

theorem name_reference (db : Database) (path : String) :
    (db.reference path).name.toList =
      db.rootPath.toList ++ (Address.parse path).suffix :=
  toList_below _ _

theorem beq_iff_name_eq {r s : Reference} (h : (r.database == s.database) = true) :
    (r == s) = true ↔ r.name = s.name := by
  rw [beq_iff, name, name, (Database.beq_iff.mp h).1]
  constructor
  · rintro ⟨ha, -⟩
    rw [below, below, isRoot, isRoot, path, path, ha]
  · intro hn
    exact ⟨below_injective hn, h⟩

theorem beq_iff_endpoint_eq {r s : Reference} (h : (r.database == s.database) = true) :
    (r == s) = true ↔ r.endpoint = s.endpoint :=
  ⟨endpoint_of_beq, fun hu => beq_of_endpoint_eq hu h⟩

end Reference

namespace Database

/-- Inside a database, names, URLs and references stand for each other. A name is known exactly if
it is that of the database or goes on behind it with a separator; its reference has the non-empty
pieces of the rest for segments, and the name back if no separator of the rest is idle. What is
reached by steps through the database is found again by its name. -/
theorem names_identify_references (db : Database) :
    (∀ n : String, (∃ r, db.referenceFromName? n = some r) ↔
      n = db.rootPath ∨ (db.rootPath.toList ++ [separator]) <+: n.toList) ∧
    (∀ (n : String) (r : Reference), db.referenceFromName? n = some r →
      ∃ rest : List Char, n.toList = db.rootPath.toList ++ rest ∧ r.database = db ∧
        r.address.segments.map (fun s => s.text.toList) =
          (rest.splitOn separator).filter (fun piece => piece ≠ []) ∧
        r.name.toList = db.rootPath.toList ++
          r.address.segments.flatMap (fun s => separator :: s.text.toList) ∧
        (r.name = n ↔ ¬ [separator] <:+ rest ∧ ¬ [separator, separator] <:+: rest)) ∧
    (∀ r : Reference, r.ReachedIn db → r.database = db ∧ db.referenceFromName? r.name = some r) ∧
    ∀ r s : Reference, (r.database == db) = true → (s.database == db) = true →
      ((r == s) = true ↔ r.name = s.name) ∧ (r.name = s.name ↔ r.endpoint = s.endpoint) := by
  refine ⟨fun n => exists_referenceFromName?_iff, ?_, ?_, ?_⟩
  · intro n r h
    obtain ⟨rest, hn, hstart, rfl⟩ := referenceFromName?_eq_some_iff.mp h
    have hname := Reference.name_reference db (String.ofList rest)
    refine ⟨rest, hn, rfl, ?_, hname, ?_⟩
    · exact (Segment.texts_ofPath (String.ofList rest)).trans (by rw [String.toList_ofList])
    · rw [← Address.suffix_parse_eq_iff hstart, ← String.toList_inj, hname, hn,
        List.append_cancel_left_eq]
  · intro r hr
    have hdb := hr.database
    subst hdb
    exact ⟨rfl, referenceFromName?_name r⟩
  · intro r s hr hs
    have hdatabases : (r.database == s.database) = true := by
      obtain ⟨hrp, hre⟩ := beq_iff.mp hr
      obtain ⟨hsp, hse⟩ := beq_iff.mp hs
      exact beq_iff.mpr ⟨hrp.trans hsp.symm, hre.trans hse.symm⟩
    have hname := Reference.beq_iff_name_eq hdatabases
    exact ⟨hname, hname.symm.trans (Reference.beq_iff_endpoint_eq hdatabases)⟩

/-- A name with idle separators, and one that begins with the name of the database only by
accident. -/
theorem names_identify_references_idle_separators :
    let db := Database.sample
    let n := "projects/p/databases/(default)/documents//users/u1/"
    let r := (db.reference "/users/").child "u1"
    let s := db.reference "users//u1"
    r.ReachedIn db ∧ db.referenceFromName? n = some r ∧ r.name ≠ n ∧
      db.referenceFromName? r.name = some r ∧ (r == s) = true ∧ r.endpoint = s.endpoint ∧
      ¬ ∃ t, db.referenceFromName? "projects/p/databases/(default)/documentsX/users" = some t := by
  intro db n r s
  obtain ⟨hknown, hread, hreached, hsame⟩ := names_identify_references db
  have hr : r.ReachedIn db := .child (.reference "/users/") "u1"
  have hn : db.referenceFromName? n = some r := by decide
  have hrs := hsame r s (by decide) (by decide)
  have hname : r.name = s.name := by decide
  refine ⟨hr, hn, ?_, (hreached r hr).2, hrs.1.mpr hname, hrs.2.mp hname, ?_⟩
  · obtain ⟨rest, hrest, -, -, -, hback⟩ := hread n r hn
    intro h
    have hidle : rest = "//users/u1/".toList :=
      List.append_cancel_left (hrest.symm.trans (by decide))
    exact (hback.mp h).1 (by rw [hidle]; decide)
  · intro h
    rcases (hknown _).mp h with h | h
    · exact absurd h (by decide)
    · exact absurd (List.isPrefixOf_iff_prefix.mpr h) (by decide)

end Database

end DocStore
