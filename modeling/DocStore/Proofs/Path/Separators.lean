import DocStore.Proofs.Path.Identity

/-!
# Idle separators

A separator counts only where a segment stands behind it. The others, those that
have another one right behind them or stand at the end, are idle: a path is cut
into the same pieces without them, and printing an address writes none. Main
statement: printing what a path was parsed to gives the path back, but for its
leading and its idle separators.
-/

set_option autoImplicit false

namespace DocStore

def pieces (path : String) : List (List Char) :=
  (path.toList.splitOn separator).filter fun piece => piece ≠ []

def withoutIdle : List Char → List Char
  | [] => []
  | c :: cs =>
    if c = separator ∧ (cs = [] ∨ cs.head? = some separator) then withoutIdle cs
    else c :: withoutIdle cs

theorem withoutIdle_append {piece : List Char} (h : separator ∉ piece) (rest : List Char) :
    withoutIdle (piece ++ rest) = piece ++ withoutIdle rest := by
  induction piece with
  | nil => rfl
  | cons c piece ih =>
    rw [List.mem_cons, not_or] at h
    rw [List.cons_append, withoutIdle, if_neg fun hidle => h.1 hidle.1.symm, ih h.2,
      List.cons_append]

theorem flatMap_separator_starts (pieces : List (List Char)) :
    pieces.flatMap (separator :: ·) = [] ∨
      (pieces.flatMap (separator :: ·)).head? = some separator := by
  cases pieces with
  | nil => exact Or.inl rfl
  | cons piece pieces => exact Or.inr rfl

/-- The idle separators are those in front of empty pieces. -/
theorem withoutIdle_flatMap {pieces : List (List Char)}
    (h : ∀ piece ∈ pieces, separator ∉ piece) :
    withoutIdle (pieces.flatMap (separator :: ·)) =
      (pieces.filter fun piece => piece ≠ []).flatMap (separator :: ·) := by
  induction pieces with
  | nil => rfl
  | cons piece pieces ih =>
    obtain ⟨hpiece, hpieces⟩ := List.forall_mem_cons.mp h
    have hrest := ih hpieces
    cases piece with
    | nil =>
      rw [List.flatMap_cons, List.filter_cons_of_neg (by simp), ← hrest]
      exact if_pos ⟨rfl, flatMap_separator_starts pieces⟩
    | cons c piece =>
      have hkept : ¬ (c :: piece ++ pieces.flatMap (separator :: ·) = [] ∨
          (c :: piece ++ pieces.flatMap (separator :: ·)).head? = some separator) := by
        rintro (hnil | hhead)
        · cases hnil
        · exact hpiece (Option.some.inj hhead ▸ List.mem_cons_self ..)
      rw [List.flatMap_cons, List.filter_cons_of_pos (by simp), List.flatMap_cons, ← hrest,
        List.cons_append, withoutIdle, if_neg fun hidle => hkept hidle.2,
        withoutIdle_append hpiece]
      rfl

theorem withoutIdle_separator (cs : List Char) :
    (withoutIdle (separator :: cs)).tail = withoutIdle (cs.dropWhile (· = separator)) := by
  induction cs with
  | nil => rfl
  | cons c cs ih =>
    by_cases hc : c = separator
    · subst hc
      have hidle : withoutIdle (separator :: separator :: cs) = withoutIdle (separator :: cs) :=
        if_pos ⟨rfl, Or.inr rfl⟩
      rw [hidle, ih, List.dropWhile_cons_of_pos (by simp)]
    · have hkept : withoutIdle (separator :: c :: cs) = separator :: withoutIdle (c :: cs) := by
        rw [withoutIdle, if_neg]
        rintro ⟨-, hnil | hhead⟩
        · cases hnil
        · exact hc (Option.some.inj hhead)
      rw [hkept, List.tail_cons, List.dropWhile_cons_of_neg (by simpa using hc)]

namespace Segment

theorem text_injective {ss ts : List Segment}
    (h : ss.map (fun s => s.text.toList) = ts.map fun t => t.text.toList) : ss = ts := by
  refine (List.map_inj_right fun s t hst => ?_).mp h
  cases s
  cases t
  simpa using String.toList_inj.mp hst

theorem ofPath_eq_iff {x y : String} : ofPath x = ofPath y ↔ pieces x = pieces y := by
  rw [pieces, pieces, ← texts_ofPath, ← texts_ofPath]
  exact ⟨congrArg _, text_injective⟩

theorem ofPath_eq_nil_iff {y : String} : ofPath y = [] ↔ ∀ c ∈ y.toList, c = separator := by
  constructor
  · intro h c hc
    cases hpieces : y.toList.splitOn separator with
    | nil => exact absurd hpieces (List.splitOn_ne_nil _ _)
    | cons piece rest =>
      have hempty : (piece :: rest).filter (fun piece => piece ≠ []) = [] := by
        rw [← hpieces, ← texts_ofPath, h]
        rfl
      have hall : ∀ piece' ∈ piece :: rest, piece' = [] := by
        simpa using List.filter_eq_nil_iff.mp hempty
      rw [piece_append_pieces hpieces, hall piece (List.mem_cons_self ..), List.nil_append] at hc
      obtain ⟨piece', hpiece', hc⟩ := List.mem_flatMap.mp hc
      rw [hall piece' (List.mem_cons_of_mem _ hpiece')] at hc
      exact List.mem_singleton.mp hc
  · intro h
    obtain ⟨n, hn⟩ : ∃ n, y.toList = List.replicate n separator :=
      ⟨_, List.eq_replicate_of_mem h⟩
    have hseparators : ∀ n, ofPath (String.ofList (List.replicate n separator)) = [] := by
      intro n
      induction n with
      | zero => exact ofPath_empty
      | succ n ih => rw [List.replicate_succ, ofPath_separator, ih]
    rw [← String.ofList_toList (s := y), hn, hseparators]

end Segment

namespace Address

/-- A text that may stand behind a name comes back from its segments without its idle
separators. -/
theorem suffix_parse_eq_withoutIdle {rest : List Char}
    (h : rest = [] ∨ rest.head? = some separator) :
    (parse (String.ofList rest)).suffix = withoutIdle rest := by
  cases hpieces : rest.splitOn separator with
  | nil => exact absurd hpieces (List.splitOn_ne_nil _ _)
  | cons piece pieces =>
    have hseparator : ∀ piece' ∈ piece :: pieces, separator ∉ piece' :=
      fun piece' hmem => Segment.separator_not_mem_piece (hpieces ▸ hmem)
    have hrest := Segment.piece_append_pieces hpieces
    -- The first piece is empty: the text is, or it begins with a separator.
    have hfirst : piece = [] := by
      cases piece with
      | nil => rfl
      | cons c piece =>
        rw [hrest, List.cons_append, List.head?_cons, Option.some.injEq] at h
        rcases h with hnil | rfl
        · cases hnil
        · exact absurd (List.mem_cons_self ..) (hseparator _ (List.mem_cons_self ..))
    rw [suffix_parse, String.toList_ofList, hpieces, hfirst, List.filter_cons_of_neg (by simp),
      hrest, hfirst, List.nil_append]
    exact (withoutIdle_flatMap fun piece' hmem =>
      hseparator piece' (List.mem_cons_of_mem _ hmem)).symm

theorem toList_toString (a : Address) : a.toString.toList = a.suffix.tail := by
  rw [suffix_eq]
  split
  · next h =>
    rw [(isRoot_iff a).mp h]
    rfl
  · rfl

theorem toString_parse (x : String) :
    (parse x).toString.toList = withoutIdle (x.toList.dropWhile (· = separator)) := by
  have hsame : parse x = parse (String.ofList (separator :: x.toList)) := by
    rw [parse, parse, Segment.ofPath_separator, String.ofList_toList]
  rw [hsame, toList_toString, suffix_parse_eq_withoutIdle (Or.inr rfl), withoutIdle_separator]

/-- A printed address has no separator but between two segments. -/
theorem toString_tidy (a : Address) :
    ¬ [separator] <+: a.toString.toList ∧ ¬ [separator] <:+ a.toString.toList ∧
      ¬ [separator, separator] <:+: a.toString.toList := by
  obtain ⟨hend, hdouble⟩ := (suffix_parse_eq_iff a.suffix_starts).mp (by rw [parse_suffix])
  rw [suffix_eq] at hend hdouble
  by_cases hroot : a.isRoot = true
  · have htext : a.toString.toList = [] := by
      rw [(isRoot_iff a).mp hroot]
      rfl
    rw [htext]
    simp
  · rw [if_neg hroot] at hend hdouble
    have htail : a.toString.toList <:+ separator :: a.toString.toList := List.suffix_cons _ _
    refine ⟨?_, fun h => hend (h.trans htail), fun h => hdouble (h.trans htail.isInfix)⟩
    rintro ⟨rest, hrest⟩
    refine hdouble ⟨[], rest, ?_⟩
    rw [← hrest]
    rfl

end Address

end DocStore
