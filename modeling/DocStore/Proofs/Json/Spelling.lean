import DocStore.Json.Reader
import Mathlib.Data.List.Basic

/-!
# What is read stands in the text

The reader adds what it takes to the innermost open container, and together with
what is left this always spells the value that comes out. Main statement: the
tokens of a text that is read are those of the value, so a second reader that
goes by tokens can be compared with values.
-/

set_option autoImplicit false

namespace DocStore

namespace Json

def itemsBefore (items : List Json) : List Token :=
  items.flatMap fun item => item.tokens ++ [.comma]

def membersBefore (members : List (String × Json)) : List Token :=
  members.flatMap fun m => .text (some m.1) :: .colon :: m.2.tokens ++ [.comma]

theorem itemTokens_append (items : List Json) (item : Json) :
    itemTokens (items ++ [item]) = .comma :: itemsBefore items ++ item.tokens ++ [.closeArray] := by
  induction items with
  | nil => rfl
  | cons first items ih =>
    rw [List.cons_append, itemTokens, ih]
    simp [itemsBefore]

theorem memberTokens_append (members : List (String × Json)) (key : String) (value : Json) :
    memberTokens (members ++ [(key, value)]) =
      .comma :: membersBefore members ++ .text (some key) :: .colon :: value.tokens ++
        [.closeObject] := by
  induction members with
  | nil => rfl
  | cons first members ih =>
    rw [List.cons_append, memberTokens, ih]
    simp [membersBefore]

theorem tokens_arr_append (items : List Json) (item : Json) :
    (arr (items ++ [item])).tokens =
      .openArray :: itemsBefore items ++ item.tokens ++ [.closeArray] := by
  cases items with
  | nil => rfl
  | cons first items =>
    rw [List.cons_append, tokens, itemTokens_append]
    simp [itemsBefore]

theorem tokens_obj_append (members : List (String × Json)) (key : String) (value : Json) :
    (obj (members ++ [(key, value)])).tokens =
      .openObject :: membersBefore members ++ .text (some key) :: .colon :: value.tokens ++
        [.closeObject] := by
  cases members with
  | nil => rfl
  | cons first members =>
    rw [List.cons_append, tokens, memberTokens_append]
    simp [membersBefore]

def Frame.taken : Frame → List Token
  | items done => .openArray :: itemsBefore done.reverse
  | members done key => .openObject :: membersBefore done.reverse ++ [.text (some key), .colon]

def taken : List Frame → List Token
  | [] => []
  | frame :: stack => taken stack ++ frame.taken

theorem taken_items (stack : List Frame) (done : List Json) (value : Json) :
    taken (.items (value :: done) :: stack) =
      taken (.items done :: stack) ++ (value.tokens ++ [.comma]) := by
  simp [taken, Frame.taken, itemsBefore]

theorem taken_items_close (stack : List Frame) (done : List Json) (value : Json) :
    taken stack ++ (arr (value :: done).reverse).tokens =
      taken (.items done :: stack) ++ (value.tokens ++ [.closeArray]) := by
  rw [List.reverse_cons, tokens_arr_append]
  simp [taken, Frame.taken]

theorem taken_members (stack : List Frame) (done : List (String × Json)) (k key : String)
    (value : Json) :
    taken (.members ((k, value) :: done) key :: stack) =
      taken (.members done k :: stack) ++
        (value.tokens ++ [.comma, .text (some key), .colon]) := by
  simp [taken, Frame.taken, membersBefore]

theorem taken_members_close (stack : List Frame) (done : List (String × Json)) (k : String)
    (value : Json) :
    taken stack ++ (obj ((k, value) :: done).reverse).tokens =
      taken (.members done k :: stack) ++ (value.tokens ++ [.closeObject]) := by
  rw [List.reverse_cons, tokens_obj_append]
  simp [taken, Frame.taken]

/-- The induction is on the reader; the invariant is that what has been taken and what is left make
the tokens of the value that comes out. -/
theorem taken_of_ofTokensFrom :
    (∀ (stack : List Frame) (tokens : List Token) (j : Json), ofTokensFrom stack tokens = some j →
      taken stack ++ tokens = j.tokens) ∧
    ∀ (stack : List Frame) (value : Json) (tokens : List Token) (j : Json),
      closeFrom stack value tokens = some j →
        taken stack ++ (value.tokens ++ tokens) = j.tokens := by
  apply ofTokensFrom.mutual_induct
  case case7 =>
    intro stack rest hopen hdepth ih j hj
    rw [ofTokensFrom, if_pos hdepth] at hj
    · simpa [taken, Frame.taken, itemsBefore] using ih j hj
    · exact hopen
  case case11 =>
    intro stack key rest hdepth ih j hj
    rw [ofTokensFrom, if_pos hdepth] at hj
    simpa [taken, Frame.taken, membersBefore] using ih j hj
  case case16 =>
    intro value key rest done k stack ih j hj
    rw [closeFrom] at hj
    rw [← ih j hj, taken_members]
    simp
  case case18 =>
    intro value rest hkey done stack ih j hj
    rw [closeFrom] at hj
    · rw [← ih j hj, taken_items]
      simp
    · exact hkey
  case case20 =>
    intro value rest done stack ih j hj
    rw [closeFrom] at hj
    rw [← ih j hj, ← List.append_assoc (taken stack), taken_items_close]
    simp
  case case22 =>
    intro value rest done k stack ih j hj
    rw [closeFrom] at hj
    rw [← ih j hj, ← List.append_assoc (taken stack), taken_members_close]
    simp
  case case14 =>
    intro stack value hstack j hj
    rw [closeFrom, if_pos hstack, Option.some.injEq] at hj
    rw [List.isEmpty_iff.mp hstack, hj]
    exact List.append_nil _
  case case5 | case9 =>
    intro stack rest hdepth ih j hj
    rw [ofTokensFrom, if_pos hdepth] at hj
    exact ih j hj
  case case1 =>
    intro stack rest ih j hj
    exact ih j hj
  case case2 | case3 | case4 =>
    intro stack _ rest ih j hj
    exact ih j hj
  -- In the other cases nothing comes out.
  all_goals intros
  all_goals simp_all [ofTokensFrom, closeFrom]
  all_goals omega

theorem scan_of_readWritten? {text : String} {j : Json} (h : readWritten? text = some j) :
    Token.scan text.toList = j.tokens :=
  taken_of_ofTokensFrom.1 [] _ j h

end Json

end DocStore
