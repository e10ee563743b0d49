import DocStore.Json.Reader
import DocStore.Proofs.Json.Order

/-!
# The numbers of JSON

An integer in JSON fits 64 bits, with a sign or without one; all other numbers
are doubles. That holds at every depth of whatever is read from a text: the
tokens of numbers come from spellings, and the reader makes no number of its own.
-/

set_option autoImplicit false

namespace DocStore

namespace JsonNumber

def Fits : JsonNumber → Prop
  | integer n => -9223372036854775808 ≤ n ∧ n < 18446744073709551616
  | double _ => True

theorem fits_of_ofSpelling? {s : Spelling} {n : JsonNumber} (h : ofSpelling? s = some n) :
    n.Fits := by
  have hsigned : twoPow 63 = 9223372036854775808 := rfl
  have hunsigned : twoPow 64 = 18446744073709551616 := rfl
  have hdouble : (FiniteDouble.ofSpelling? s).map double = some n → n.Fits := by
    intro hn
    obtain ⟨x, -, rfl⟩ := Option.map_eq_some_iff.mp hn
    trivial
  simp only [ofSpelling?] at h
  split at h
  · split at h
    · cases h
      constructor <;> omega
    · split at h
      · cases h
        constructor <;> omega
      · exact hdouble h
  · exact hdouble h

end JsonNumber

namespace Json

inductive Fits : Json → Prop
  | null : Fits null
  | bool (b : Bool) : Fits (bool b)
  | number {n : JsonNumber} (h : n.Fits) : Fits (number n)
  | str (s : String) : Fits (str s)
  | arr {items : List Json} (h : ∀ item ∈ items, item.Fits) : Fits (arr items)
  | obj {members : List (String × Json)} (h : ∀ m ∈ members, m.2.Fits) : Fits (obj members)

@[simp] theorem fits_null : null.Fits := .null

@[simp] theorem fits_bool (b : Bool) : (bool b).Fits := .bool b

@[simp] theorem fits_str (s : String) : (str s).Fits := .str s

@[simp] theorem fits_number {n : JsonNumber} : (number n).Fits ↔ n.Fits := by
  constructor
  · intro h
    cases h with
    | number h => exact h
  · exact .number

@[simp] theorem fits_arr {items : List Json} : (arr items).Fits ↔ ∀ item ∈ items, item.Fits := by
  constructor
  · intro h
    cases h with
    | arr h => exact h
  · exact .arr

@[simp] theorem fits_obj {members : List (String × Json)} :
    (obj members).Fits ↔ ∀ m ∈ members, m.2.Fits := by
  constructor
  · intro h
    cases h with
    | obj h => exact h
  · exact .obj

mutual

theorem Fits.sorted : ∀ {j : Json}, j.Fits → j.sorted.Fits
  | null, h | bool _, h | number _, h | str _, h => h
  | arr _, h => .arr (fits_sortedItems (fits_arr.mp h))
  | obj _, h => .obj (fits_sortedMembers (fits_obj.mp h))

theorem fits_sortedItems : ∀ {items : List Json}, (∀ item ∈ items, item.Fits) →
    ∀ item ∈ sortedItems items, item.Fits
  | [], _ => by simp [sortedItems]
  | _ :: _, h => by
    obtain ⟨hitem, hitems⟩ := List.forall_mem_cons.mp h
    rw [sortedItems]
    exact List.forall_mem_cons.mpr ⟨hitem.sorted, fits_sortedItems hitems⟩

theorem fits_sortedMembers : ∀ {members : List (String × Json)}, (∀ m ∈ members, m.2.Fits) →
    ∀ m ∈ sortedMembers members, m.2.Fits
  | [], _ => by simp [sortedMembers]
  | (_, _) :: _, h => by
    obtain ⟨hvalue, hmembers⟩ := List.forall_mem_cons.mp h
    intro m hm
    rw [sortedMembers] at hm
    rcases mem_insertEarlier hm with rfl | hm
    · exact hvalue.sorted
    · exact fits_sortedMembers hmembers m hm

end

end Json

namespace Token

def AllFit (tokens : List Token) : Prop := ∀ n, number (some n) ∈ tokens → n.Fits

theorem allFit_nil : AllFit [] := by simp [AllFit]

theorem allFit_cons {token : Token} {rest : List Token} :
    AllFit (token :: rest) ↔ (∀ n, token = number (some n) → n.Fits) ∧ AllFit rest := by
  simp [AllFit, or_imp, forall_and, eq_comm]

theorem ofPunctuation?_ne_number (c : Char) (value : Option JsonNumber) :
    ofPunctuation? c ≠ some (number value) := by
  unfold ofPunctuation?
  repeat' split
  all_goals simp

theorem fits_of_ofNumberChars {text : List Char} {n : JsonNumber}
    (h : ofNumberChars text = number (some n)) : n.Fits :=
  JsonNumber.fits_of_ofSpelling? (number.inj h)

theorem allFit_punctuation {c : Char} {token : Token} {rest : List Token}
    (hc : ofPunctuation? c = some token) (h : AllFit rest) : AllFit (token :: rest) :=
  allFit_cons.mpr ⟨fun _ hn => absurd (hn ▸ hc) (ofPunctuation?_ne_number c _), h⟩

/-- The induction is on the scanner; a number is met where one of its texts ends. -/
theorem allFit_scan : (∀ cs : List Char, AllFit (scan cs)) ∧
    (∀ state taken cs, AllFit (scanNumber state taken cs)) ∧
    ∀ done cs, AllFit (scanText done cs) := by
  apply scan.mutual_induct
  case case9 =>
    intro c rest _ _ _ _ hblank hstep hminus token htoken ih
    rw [scan, if_neg hblank] <;> try assumption
    simp only [hstep, if_neg hminus, htoken]
    exact allFit_punctuation htoken ih
  case case11 =>
    intro state taken hcomplete
    rw [scanNumber, if_pos hcomplete]
    exact allFit_cons.mpr ⟨fun _ => fits_of_ofNumberChars, allFit_nil⟩
  case case14 =>
    intro state taken c rest hstep hcomplete ih
    simp only [scanNumber, hstep, if_pos hcomplete]
    refine allFit_cons.mpr ⟨fun _ => fits_of_ofNumberChars, ?_⟩
    split
    · exact ih
    · split
      · next token htoken => exact allFit_punctuation htoken ih
      · simp [AllFit]
  case case23 =>
    intro done c rest hquote _ _ hplain ih
    rw [scanText, if_neg hplain] <;> assumption
  all_goals intros
  all_goals simp_all [scan, scanNumber, scanText, allFit_cons, allFit_nil]

end Token

namespace Json

def Frame.Fits : Frame → Prop
  | items done => ∀ item ∈ done, item.Fits
  | members done _ => ∀ m ∈ done, m.2.Fits

theorem Frame.fits_items {done : List Json} :
    (Frame.items done).Fits ↔ ∀ item ∈ done, item.Fits := Iff.rfl

theorem Frame.fits_members {done : List (String × Json)} {key : String} :
    (Frame.members done key).Fits ↔ ∀ m ∈ done, m.2.Fits := Iff.rfl

/-- The induction is on the reader; the invariant is that all the open containers fit. -/
theorem fits_of_ofTokensFrom :
    (∀ (stack : List Frame) (tokens : List Token), (∀ f ∈ stack, f.Fits) → Token.AllFit tokens →
      ∀ j, ofTokensFrom stack tokens = some j → j.Fits) ∧
    ∀ (stack : List Frame) (value : Json) (tokens : List Token), (∀ f ∈ stack, f.Fits) →
      value.Fits → Token.AllFit tokens → ∀ j, closeFrom stack value tokens = some j → j.Fits := by
  apply ofTokensFrom.mutual_induct
  case case16 =>
    intro value key rest done k stack ih hstack hvalue htokens j hj
    obtain ⟨hdone, hstack⟩ := List.forall_mem_cons.mp hstack
    have hmembers : (Frame.members ((k, value) :: done) key).Fits :=
      List.forall_mem_cons.mpr ⟨hvalue, hdone⟩
    simp only [Token.allFit_cons] at htokens
    exact ih (List.forall_mem_cons.mpr ⟨hmembers, hstack⟩) htokens.2.2.2 j hj
  case case20 =>
    intro value rest done stack ih hstack hvalue htokens j hj
    obtain ⟨hdone, hstack⟩ := List.forall_mem_cons.mp hstack
    have hitems : ∀ item ∈ value :: done, item.Fits := List.forall_mem_cons.mpr ⟨hvalue, hdone⟩
    exact ih hstack (.arr fun item hitem => hitems item (List.mem_reverse.mp hitem))
      (Token.allFit_cons.mp htokens).2 j hj
  case case22 =>
    intro value rest done k stack ih hstack hvalue htokens j hj
    obtain ⟨hdone, hstack⟩ := List.forall_mem_cons.mp hstack
    have hmembers : ∀ m ∈ (k, value) :: done, m.2.Fits := List.forall_mem_cons.mpr ⟨hvalue, hdone⟩
    exact ih hstack (.obj fun m hm => hmembers m (List.mem_reverse.mp hm))
      (Token.allFit_cons.mp htokens).2 j hj
  all_goals intros
  all_goals simp_all [ofTokensFrom, closeFrom, Token.allFit_cons, Frame.fits_items,
    Frame.fits_members]
  all_goals omega

theorem fits_of_readWritten? {text : String} {j : Json} (h : readWritten? text = some j) : j.Fits :=
  fits_of_ofTokensFrom.1 [] _ (by simp) (Token.allFit_scan.1 _) j h

theorem fits_of_read? {text : String} {j : Json} (h : read? text = some j) : j.Fits := by
  obtain ⟨written, hwritten, rfl⟩ := Option.map_eq_some_iff.mp h
  exact (fits_of_readWritten? hwritten).sorted

end Json

end DocStore
