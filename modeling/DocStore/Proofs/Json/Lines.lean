import DocStore.Json.Printer
import DocStore.Proofs.Number.Numerals

/-!
# Printed values are lines

Control characters below U+0020 are escaped in texts and stand nowhere else.
Main statement: the text of a JSON value has none of them, so it ends with the
line break behind it and no sooner.
-/

set_option autoImplicit false

namespace DocStore

def Printed (cs : List Char) : Prop := ∀ c ∈ cs, 0x20 ≤ c.toNat

instance (cs : List Char) : Decidable (Printed cs) := List.decidableBAll _ cs

namespace Printed

@[simp] theorem cons_iff {c : Char} {cs : List Char} :
    Printed (c :: cs) ↔ 0x20 ≤ c.toNat ∧ Printed cs :=
  List.forall_mem_cons

@[simp] theorem append_iff {cs ds : List Char} : Printed (cs ++ ds) ↔ Printed cs ∧ Printed ds :=
  List.forall_mem_append

theorem mono {cs ds : List Char} (hds : Printed ds) (h : ∀ c ∈ cs, c ∈ ds) : Printed cs :=
  fun c hc => hds c (h c hc)

theorem replicate {c : Char} (hc : 0x20 ≤ c.toNat) (n : Nat) : Printed (List.replicate n c) := by
  intro d hd
  rw [(List.mem_replicate.mp hd).2]
  exact hc

end Printed

theorem printed_of_isDigit {cs : List Char} (h : ∀ c ∈ cs, c.isDigit = true) : Printed cs := by
  intro c hc
  have hdigit := h c hc
  have hzero : '0'.val.toNat = 48 := rfl
  simp only [Char.isDigit, Bool.and_eq_true, decide_eq_true_eq, ge_iff_le,
    UInt32.le_iff_toNat_le] at hdigit
  show 32 ≤ c.val.toNat
  omega

theorem printed_natText (n : Nat) : Printed (natText n) :=
  printed_of_isDigit fun _ => isDigit_of_mem_natText

theorem printed_intText (n : Int) : Printed (intText n) := by
  unfold intText
  split
  · exact Printed.cons_iff.mpr ⟨by decide, printed_natText _⟩
  · exact printed_natText _

theorem FiniteDouble.printed_significant (found : Nat × Int) : Printed (significant found).1 := by
  obtain ⟨n, power⟩ := found
  refine (printed_natText n).mono fun c hc => ?_
  exact List.mem_reverse.mp ((List.dropWhile_sublist _).mem (List.mem_reverse.mp hc))

namespace NumberLayout

theorem printed_positional {digits : List Char} (h : Printed digits) (exponent : Int) :
    Printed (positional digits exponent) := by
  have hzeros : ∀ n, Printed (List.replicate n '0') := Printed.replicate (by decide)
  cases exponent with
  | ofNat e =>
    have hwhole : Printed (digits.take (e + 1)) := h.mono fun c => List.mem_of_mem_take
    have hfraction : Printed (digits.drop (e + 1)) := h.mono fun c => List.mem_of_mem_drop
    simp only [positional, Printed.append_iff, Printed.cons_iff]
    refine ⟨⟨hwhole, hzeros _⟩, by decide, ?_⟩
    split
    · decide
    · exact hfraction
  | negSucc e =>
    simp only [positional, Printed.append_iff, Printed.cons_iff]
    exact ⟨by decide, by decide, hzeros e, h⟩

theorem printed_scientific {digits : List Char} (h : Printed digits) (exponent : Int) :
    Printed (scientific digits exponent) := by
  have hfirst : Printed (digits.take 1) := h.mono fun c => List.mem_of_mem_take
  have hrest : Printed (digits.drop 1) := h.mono fun c => List.mem_of_mem_drop
  simp only [scientific, Printed.append_iff, Printed.cons_iff]
  refine ⟨⟨hfirst, ?_⟩, by decide, ?_, printed_natText _⟩
  · split
    · decide
    · exact Printed.cons_iff.mpr ⟨by decide, hrest⟩
  · split <;> decide

theorem printed_render (layout : NumberLayout) (x : FiniteDouble) : Printed (layout.render x) := by
  have hsign : Printed (if x.negative then ['-'] else []) := by
    split <;> decide
  rw [render]
  -- Which digits the search finds does not matter here.
  have hdigits := FiniteDouble.printed_significant x.shortest
  rw [FiniteDouble.shortestDigits]
  generalize FiniteDouble.significant x.shortest = found at hdigits ⊢
  obtain ⟨digits, exponent⟩ := found
  simp only
  split
  · exact Printed.append_iff.mpr ⟨hsign, by decide⟩
  · refine Printed.append_iff.mpr ⟨hsign, ?_⟩
    split
    · exact printed_positional hdigits _
    · exact printed_scientific hdigits _

end NumberLayout

namespace Json

theorem printed_escapeChar (c : Char) : Printed (escapeChar c) := by
  have hhex : ∀ n < 0x20, Printed (hexPadded 4 n) := by decide
  unfold escapeChar
  repeat' split
  · decide
  · decide
  · decide
  · decide
  · decide
  · decide
  · decide
  · next hcontrol => exact Printed.append_iff.mpr ⟨by decide, hhex c.toNat hcontrol⟩
  · next hcontrol => exact Printed.cons_iff.mpr ⟨Nat.le_of_not_lt hcontrol, nofun⟩

theorem printed_renderText (s : String) : Printed (renderText s) := by
  have hbody : Printed (s.toList.flatMap escapeChar) := by
    intro c hc
    obtain ⟨d, -, hd⟩ := List.mem_flatMap.mp hc
    exact printed_escapeChar d c hd
  simp only [renderText, Printed.append_iff, Printed.cons_iff]
  exact ⟨⟨by decide, hbody⟩, by decide, nofun⟩

mutual

theorem printed_renderChars : ∀ j : Json, Printed j.renderChars
  | null => by decide
  | bool true => by decide
  | bool false => by decide
  | number (.integer n) => printed_intText n
  | number (.double x) => numberLayout.printed_render x
  | str s => printed_renderText s
  | arr [] => by decide
  | arr (item :: items) => by
    simp only [renderChars, Printed.append_iff, Printed.cons_iff]
    exact ⟨⟨by decide, printed_renderChars item⟩, printed_renderItems items⟩
  | obj [] => by decide
  | obj ((key, value) :: members) => by
    simp only [renderChars, Printed.append_iff, Printed.cons_iff]
    exact ⟨⟨⟨by decide, printed_renderText key⟩, by decide, printed_renderChars value⟩,
      printed_renderMembers members⟩

theorem printed_renderItems : ∀ items : List Json, Printed (renderItems items)
  | [] => by decide
  | item :: items => by
    simp only [renderItems, Printed.append_iff, Printed.cons_iff]
    exact ⟨⟨by decide, printed_renderChars item⟩, printed_renderItems items⟩

theorem printed_renderMembers : ∀ members : List (String × Json), Printed (renderMembers members)
  | [] => by decide
  | (key, value) :: members => by
    simp only [renderMembers, Printed.append_iff, Printed.cons_iff]
    exact ⟨⟨⟨by decide, printed_renderText key⟩, by decide, printed_renderChars value⟩,
      printed_renderMembers members⟩

end

theorem printed_render (j : Json) : Printed j.render.toList := by
  rw [render, String.toList_ofList]
  exact j.printed_renderChars

end Json

end DocStore
