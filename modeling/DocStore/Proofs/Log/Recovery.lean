import DocStore.Log.Line
import DocStore.Json.Reader
import Mathlib.Data.List.Sort

/-!
# Log lines are read back

Inside quotes everything that could end a text or a line is escaped, so the reader of
JSON meets the characters of the text and no others. Main statement: a line is one
JSON object and ends with its only line break; reading it gives back the event, the
severity and the fields, and so two lines are the same exactly if these are.
-/

set_option autoImplicit false

namespace DocStore

namespace Token

def unit? : List Char → Option Nat
  | [a, b, c, d] => hexQuad? a b c d
  | _ => none

theorem scanText_unit {digits : List Char} {unit : Nat} (h : unit? digits = some unit)
    (done : Partial) (rest : List Char) :
    scanText done (['\\', 'u'] ++ digits ++ rest) = scanText (done.pushUnit unit) rest := by
  match digits, h with
  | [a, b, c, d], h =>
    show scanText done ('\\' :: 'u' :: a :: b :: c :: d :: rest) = _
    rw [scanText, show hexQuad? a b c d = some unit from h]

theorem scanText_plain {c : Char} (hquote : c ≠ '"') (hbackslash : c ≠ '\\')
    (hprinted : ¬ c.toNat < 0x20) (done : Partial) (rest : List Char) :
    scanText done (c :: rest) = scanText (done.push c) rest := by
  rw [scanText]
  · exact if_neg fun h => h.elim hbackslash hprinted
  · simpa using hquote
  · simp [hbackslash]
  · simp [hbackslash]

end Token

theorem Severity.parse?_name (s : Severity) : parse? s.name = some s := by
  cases s <;> rfl

theorem Severity.name_injective {s t : Severity} (h : s.name = t.name) : s = t := by
  have hparse := parse?_name s
  rw [h, parse?_name, Option.some.injEq] at hparse
  exact hparse.symm

namespace Line

open Token

theorem isControl_iff {c : Char} :
    isControl c = true ↔ c.toNat < 0x20 ∨ 0x7f ≤ c.toNat ∧ c.toNat < 0xa0 := by
  simp [isControl]

/-- There are few control characters, so their codes can be gone through. -/
theorem of_isControl {P : Nat → Prop} (hlow : ∀ n < 0x20, P n) (hhigh : ∀ n < 0x21, P (0x7f + n))
    {c : Char} (h : isControl c = true) : P c.toNat := by
  rcases isControl_iff.mp h with h | ⟨hle, hlt⟩
  · exact hlow _ h
  · rw [← Nat.add_sub_cancel' hle]
    exact hhigh _ (by omega)

theorem unit?_hexPadded {c : Char} (h : isControl c = true) :
    unit? (hexPadded 4 c.toNat) = some c.toNat :=
  of_isControl (P := fun n => unit? (hexPadded 4 n) = some n) (by decide) (by decide) h

theorem pushUnit_of_isControl {c : Char} (h : isControl c = true) (done : Partial) :
    done.pushUnit c.toNat = done.push c := by
  have hcode := isControl_iff.mp h
  rw [Partial.pushUnit, if_neg (by omega), if_neg (by omega), Char.ofNat_toNat]

/-- The step lemma: however a character is written, the reader adds that character. -/
theorem scanText_escapeChar (done : Partial) (c : Char) (rest : List Char) :
    scanText done (escapeChar c ++ rest) = scanText (done.push c) rest := by
  unfold escapeChar
  split_ifs with hquote hbackslash hnewline hreturn htab hcontrol
  · subst hquote
    rfl
  · subst hbackslash
    rfl
  · subst hnewline
    rfl
  · subst hreturn
    rfl
  · subst htab
    rfl
  · rw [scanText_unit (unit?_hexPadded hcontrol), pushUnit_of_isControl hcontrol]
  · refine scanText_plain hquote hbackslash ?_ done rest
    intro hlt
    exact hcontrol (isControl_iff.mpr (Or.inl hlt))

theorem scanText_escaped (cs done rest : List Char) :
    scanText ⟨some done, none⟩ (cs.flatMap escapeChar ++ rest) =
      scanText ⟨some (cs.reverse ++ done), none⟩ rest := by
  -- What has been read is kept in reverse, so it grows with each character of the induction.
  induction cs generalizing done with
  | nil => rfl
  | cons c cs ih =>
    rw [List.flatMap_cons, List.append_assoc, scanText_escapeChar, Partial.push, Option.map_some,
      ih, List.reverse_cons, List.append_assoc, List.singleton_append]

theorem scan_renderText (s : String) (rest : List Char) :
    scan (renderText s ++ rest) = .text (some s) :: scan rest := by
  show scanText .empty (s.toList.flatMap escapeChar ++ ['"'] ++ rest) = _
  rw [List.append_assoc, Partial.empty, scanText_escaped]
  show Token.text (some (String.ofList (s.toList.reverse ++ []).reverse)) :: scan rest = _
  rw [List.append_nil, List.reverse_reverse, String.ofList_toList]

def members (line : Line) : List (String × Json) :=
  ("event", .str line.event) :: ("severity", .str line.severity.name) ::
    line.sortedFields.map fun field => (field.1, .str field.2)

theorem scan_fields (fields : List (String × String)) :
    scan (fields.flatMap renderField ++ ['\x7d']) =
      Json.memberTokens (fields.map fun field => (field.1, .str field.2)) := by
  induction fields with
  | nil => rfl
  | cons field fields ih =>
    -- Comma and colon are taken by computing, a text by its lemma, whatever is behind it.
    rw [List.flatMap_cons, List.append_assoc]
    show Token.comma :: scan (renderText field.1 ++ ':' :: renderText field.2 ++ _) = _
    rw [List.append_assoc, scan_renderText]
    show Token.comma :: .text _ :: .colon :: scan (renderText field.2 ++ _) = _
    rw [scan_renderText, ih]
    rfl

theorem renderChars_eq (line : Line) :
    line.renderChars = '\x7b' :: (renderText "event" ++ ':' :: (renderText line.event ++
      ((("severity", line.severity.name) :: line.sortedFields).flatMap renderField ++
        ['\x7d']))) := by
  simp [renderChars, renderField]

theorem scan_renderChars (line : Line) :
    scan line.renderChars = (Json.obj line.members).tokens := by
  rw [renderChars_eq]
  show Token.openObject :: scan (renderText "event" ++ _) = _
  rw [scan_renderText]
  show Token.openObject :: .text _ :: .colon :: scan (renderText line.event ++ _) = _
  rw [scan_renderText, scan_fields]
  rfl

end Line

namespace Json

theorem closeFrom_memberTokens (done : List (String × Json)) (key value : String)
    (fields : List (String × String)) :
    closeFrom [.members done key] (str value)
        (memberTokens (fields.map fun field => (field.1, str field.2))) =
      some (obj (((key, str value) :: done).reverse ++
        fields.map fun field => (field.1, str field.2))) := by
  induction fields generalizing done key value with
  | nil =>
    rw [List.map_nil, List.append_nil]
    rfl
  | cons field fields ih =>
    show closeFrom [.members ((key, str value) :: done) field.1] (str field.2) _ = _
    refine (ih _ _ _).trans ?_
    rw [List.reverse_cons, List.append_assoc]
    rfl

end Json

namespace Line

theorem readWritten?_renderChars (line : Line) :
    Json.readWritten? (String.ofList line.renderChars) = some (.obj line.members) := by
  rw [Json.readWritten?, String.toList_ofList, scan_renderChars]
  exact Json.closeFrom_memberTokens [] "event" line.event
    (("severity", line.severity.name) :: line.sortedFields)

def Clean (cs : List Char) : Prop := ∀ c ∈ cs, isControl c = false

instance (cs : List Char) : Decidable (Clean cs) := List.decidableBAll _ cs

namespace Clean

@[simp] theorem cons_iff {c : Char} {cs : List Char} :
    Clean (c :: cs) ↔ isControl c = false ∧ Clean cs :=
  List.forall_mem_cons

@[simp] theorem append_iff {cs ds : List Char} : Clean (cs ++ ds) ↔ Clean cs ∧ Clean ds :=
  List.forall_mem_append

@[simp] theorem nil : Clean [] := nofun

theorem flatMap {α : Type} {f : α → List Char} (h : ∀ a, Clean (f a)) (as : List α) :
    Clean (as.flatMap f) := by
  intro c hc
  obtain ⟨a, -, ha⟩ := List.mem_flatMap.mp hc
  exact h a c ha

end Clean

theorem clean_hexPadded {c : Char} (h : isControl c = true) : Clean (hexPadded 4 c.toNat) :=
  of_isControl (P := fun n => Clean (hexPadded 4 n)) (by decide) (by decide) h

theorem clean_escapeChar (c : Char) : Clean (escapeChar c) := by
  unfold escapeChar
  split_ifs with _ _ _ _ _ hcontrol
  · decide
  · decide
  · decide
  · decide
  · decide
  · exact Clean.append_iff.mpr ⟨by decide, clean_hexPadded hcontrol⟩
  · exact Clean.cons_iff.mpr ⟨Bool.not_eq_true _ ▸ hcontrol, Clean.nil⟩

theorem clean_renderText (s : String) : Clean (renderText s) := by
  simp only [renderText, Clean.append_iff, Clean.cons_iff]
  exact ⟨⟨by decide, Clean.flatMap clean_escapeChar _⟩, by decide, Clean.nil⟩

theorem clean_renderField (field : String × String) : Clean (renderField field) := by
  simp only [renderField, Clean.append_iff, Clean.cons_iff]
  exact ⟨⟨by decide, clean_renderText _⟩, by decide, clean_renderText _⟩

theorem clean_renderChars (line : Line) : Clean line.renderChars := by
  rw [renderChars_eq]
  simp only [Clean.append_iff, Clean.cons_iff]
  exact ⟨by decide, clean_renderText _, by decide, clean_renderText _,
    Clean.flatMap clean_renderField _, by decide, Clean.nil⟩

theorem sortedFields_perm (line : Line) : line.sortedFields.Perm line.fields :=
  List.mergeSort_perm _ _

def ordered (f g : String × String) : Bool := f.1 ≤ g.1

theorem ordered_trans (f g h : String × String) (hfg : ordered f g = true)
    (hgh : ordered g h = true) : ordered f h = true := by
  simp only [ordered, decide_eq_true_eq] at *
  exact String.le_trans hfg hgh

theorem ordered_total (f g : String × String) : (ordered f g || ordered g f) = true := by
  simpa [ordered] using String.le_total f.1 g.1

theorem pairwise_sortedFields (line : Line) :
    line.sortedFields.Pairwise fun f g => f.1 ≤ g.1 := by
  have h := List.pairwise_mergeSort ordered_trans ordered_total line.fields
  exact h.imp fun h => of_decide_eq_true h

theorem filter_sortedFields (line : Line) (key : String) :
    line.sortedFields.filter (fun f => f.1 = key) = line.fields.filter fun f => f.1 = key := by
  have hequal : (line.fields.filter fun f => f.1 = key).Pairwise fun f g => ordered f g = true := by
    apply List.pairwise_of_forall_mem_list
    intro f hf g hg
    have hf := (List.mem_filter.mp hf).2
    have hg := (List.mem_filter.mp hg).2
    simp only [decide_eq_true_eq] at hf hg
    rw [ordered, hf, hg]
    exact decide_eq_true (String.le_refl key)
  -- Fields with one key are in order already: sorting keeps them, and brings no others.
  have hsublist : (line.fields.filter fun f => f.1 = key).Sublist line.sortedFields :=
    List.sublist_mergeSort ordered_trans ordered_total hequal List.filter_sublist
  have hkept : (line.fields.filter fun f => f.1 = key).Sublist
      (line.sortedFields.filter fun f => f.1 = key) := by
    simpa [List.filter_filter] using hsublist.filter fun f => decide (f.1 = key)
  exact (hkept.eq_of_length (line.sortedFields_perm.filter _).length_eq.symm).symm

theorem sortedFields_congr {line other : Line} (h : other.fields.Perm line.fields)
    (hkeys : (line.fields.map Prod.fst).Nodup) : other.sortedFields = line.sortedFields := by
  have hperm : other.sortedFields.Perm line.sortedFields :=
    other.sortedFields_perm.trans (h.trans line.sortedFields_perm.symm)
  refine hperm.eq_of_pairwise ?_ other.pairwise_sortedFields line.pairwise_sortedFields
  intro f g hf hg hfg hgf
  have hf : f ∈ line.fields := h.mem_iff.mp (other.sortedFields_perm.mem_iff.mp hf)
  have hg : g ∈ line.fields := line.sortedFields_perm.mem_iff.mp hg
  exact List.inj_on_of_nodup_map hkeys hf hg (String.le_antisymm hfg hgf)

theorem render_eq_iff (line other : Line) :
    other.render = line.render ↔ other.severity = line.severity ∧ other.event = line.event ∧
      other.sortedFields = line.sortedFields := by
  constructor
  · intro h
    have hchars : other.renderChars = line.renderChars :=
      List.append_cancel_right (String.ofList_inj.mp h)
    have hread := other.readWritten?_renderChars
    rw [hchars, line.readWritten?_renderChars, Option.some.injEq, Json.obj.injEq] at hread
    simp only [members, List.cons.injEq, Prod.mk.injEq, Json.str.injEq, true_and] at hread
    obtain ⟨hevent, hseverity, hfields⟩ := hread
    refine ⟨Severity.name_injective hseverity.symm, hevent.symm, ?_⟩
    refine ((List.map_inj_right fun f g hfg => ?_).mp hfields).symm
    simpa [Prod.ext_iff] using hfg
  · rintro ⟨hseverity, hevent, hfields⟩
    rw [render, render, renderChars, renderChars, hseverity, hevent, hfields]

/-- A line is one JSON object on one line: the event, the severity, and then the fields in the order
of their keys, fields with one key in the order in which they were given; reading it gives all texts
back. Two lines are the same exactly if all of this is, and fields with distinct keys can be given
in any order. -/
theorem lines_are_recoverable (line : Line) :
    (∃ body : String, line.render = body ++ "\n" ∧ Clean body.toList ∧
      Json.readWritten? body = some (.obj line.members)) ∧
    (line.sortedFields.Pairwise (fun f g => f.1 ≤ g.1) ∧
      ∀ key : String, line.sortedFields.filter (fun f => f.1 = key) =
        line.fields.filter fun f => f.1 = key) ∧
    (∀ other : Line, other.render = line.render ↔
      other.severity = line.severity ∧ other.event = line.event ∧
        other.sortedFields = line.sortedFields) ∧
    ∀ fields : List (String × String), (line.fields.map Prod.fst).Nodup →
      fields.Perm line.fields → { line with fields := fields }.render = line.render := by
  refine ⟨⟨String.ofList line.renderChars, ?ends, ?clean, line.readWritten?_renderChars⟩,
    ⟨line.pairwise_sortedFields, line.filter_sortedFields⟩, line.render_eq_iff, ?order⟩
  case ends =>
    rw [render, String.ofList_append]
  case clean =>
    rw [String.toList_ofList]
    exact line.clean_renderChars
  case order =>
    intro fields hkeys hperm
    exact (line.render_eq_iff _).mpr ⟨rfl, rfl, sortedFields_congr hperm hkeys⟩

/-- A message that would end the line and begin another one, and fields with one key. -/
theorem lines_are_recoverable_forgery :
    let forged := "x\\\"\x7d\n\x7b\"event\":\"QUERY_RUN_COMPLETE\"\x7d"
    let line : Line := ⟨.error, "QUERY_RUN_FAILED", [("message", forged), ("code", "E\x85")]⟩
    let twice : Line := { line with fields := [("k", "1"), ("k", "2")] }
    (∃ body : String, line.render = body ++ "\n" ∧ Clean body.toList ∧
      Json.readWritten? body = some (.obj [("event", .str "QUERY_RUN_FAILED"),
        ("severity", .str "ERROR"), ("code", .str "E\x85"), ("message", .str forged)])) ∧
    { line with fields := line.fields.reverse }.render = line.render ∧
    { twice with fields := twice.fields.reverse }.render ≠ twice.render := by
  intro forged line twice
  obtain ⟨hread, -, -, horder⟩ := lines_are_recoverable line
  obtain ⟨-, ⟨-, hstable⟩, hsame, -⟩ := lines_are_recoverable twice
  refine ⟨?_, horder _ (by decide) (List.reverse_perm _), ?_⟩
  · have hsorted : line.sortedFields = [("code", "E\x85"), ("message", forged)] := by
      simp [sortedFields, line, List.mergeSort]
    rw [members, hsorted] at hread
    exact hread
  · intro h
    have hfields := congrArg (List.filter fun f => f.1 = "k") ((hsame _).mp h).2.2
    rw [hstable, filter_sortedFields] at hfields
    exact absurd hfields (by decide)

end Line

end DocStore
