import DocStore.Json.Basic
import DocStore.Text.Hex

/-!
# JSON tokens

Text cut into tokens. Where no token begins or one breaks off, the list ends
with `bad`, so a reader that goes from left to right meets everything that
stands before the fault first. Numbers too large for a double have no value and
texts whose escapes name half of a surrogate pair no content, but they are
tokens all the same: a reader that only skips them does not mind.
-/

set_option autoImplicit false

namespace DocStore

inductive Token where
  | openArray
  | closeArray
  | openObject
  | closeObject
  | comma
  | colon
  | null
  | bool (b : Bool)
  | number (value : Option JsonNumber)
  | text (content : Option String)
  | bad
  deriving DecidableEq

inductive NumberState where
  | minus
  | zero
  | whole
  | point
  | fraction
  | mark
  | sign
  | exponent
  | dead
  deriving DecidableEq

namespace NumberState

def step (state : NumberState) (c : Char) : Option NumberState :=
  match state with
  | minus => if c = '0' then some zero else if c.isDigit then some whole else none
  | zero =>
    if c.isDigit then some dead else if c = '.' then some point
    else if c = 'e' ∨ c = 'E' then some mark else none
  | whole =>
    if c.isDigit then some whole else if c = '.' then some point
    else if c = 'e' ∨ c = 'E' then some mark else none
  | point => if c.isDigit then some fraction else none
  | fraction => if c.isDigit then some fraction else if c = 'e' ∨ c = 'E' then some mark else none
  | mark => if c.isDigit then some exponent else if c = '+' ∨ c = '-' then some sign else none
  | sign => if c.isDigit then some exponent else none
  | exponent => if c.isDigit then some exponent else none
  | dead => none

def complete : NumberState → Bool
  | zero | whole | fraction | exponent => true
  | _ => false

end NumberState

namespace Token

def isJsonBlank (c : Char) : Bool := c = ' ' || c = '\t' || c = '\n' || c = '\r'

def ofPunctuation? (c : Char) : Option Token :=
  if c = '[' then some openArray
  else if c = ']' then some closeArray
  else if c = '\x7b' then some openObject
  else if c = '\x7d' then some closeObject
  else if c = ',' then some comma
  else if c = ':' then some colon
  else none

def ofNumberChars (text : List Char) : Token := number (JsonNumber.ofSpelling? (.ofChars text))

def escaped? (c : Char) : Option Char :=
  if c = '"' then some '"'
  else if c = '\\' then some '\\'
  else if c = '/' then some '/'
  else if c = 'b' then some '\x08'
  else if c = 'f' then some '\x0c'
  else if c = 'n' then some '\n'
  else if c = 'r' then some '\r'
  else if c = 't' then some '\t'
  else none

/-- The part of a text token read so far, last character first. It has no characters any more once
half of a surrogate pair was left alone; `high` is a first half that waits for its second. -/
structure Partial where
  chars : Option (List Char)
  high : Option Nat

namespace Partial

def empty : Partial := ⟨some [], none⟩

def push (p : Partial) (c : Char) : Partial :=
  match p.high with
  | none => ⟨p.chars.map (c :: ·), none⟩
  | some _ => ⟨none, none⟩

def pushUnit (p : Partial) (unit : Nat) : Partial :=
  if 0xd800 ≤ unit ∧ unit < 0xdc00 then
    match p.high with
    | none => ⟨p.chars, some unit⟩
    | some _ => ⟨none, some unit⟩
  else if 0xdc00 ≤ unit ∧ unit < 0xe000 then
    match p.high with
    | none => ⟨none, none⟩
    | some high =>
      ⟨p.chars.map (Char.ofNat (0x10000 + (high - 0xd800) * 0x400 + (unit - 0xdc00)) :: ·), none⟩
  else p.push (Char.ofNat unit)

def content (p : Partial) : Option String :=
  match p.high with
  | none => p.chars.map fun chars => String.ofList chars.reverse
  | some _ => none

end Partial

mutual

def scan : List Char → List Token
  | [] => []
  | 'n' :: 'u' :: 'l' :: 'l' :: rest => null :: scan rest
  | 't' :: 'r' :: 'u' :: 'e' :: rest => bool true :: scan rest
  | 'f' :: 'a' :: 'l' :: 's' :: 'e' :: rest => bool false :: scan rest
  | '"' :: rest => scanText .empty rest
  | c :: rest =>
    if isJsonBlank c then scan rest
    else match NumberState.step .minus c with
      | some state => scanNumber state [c] rest
      | none =>
        if c = '-' then scanNumber .minus [c] rest
        else match ofPunctuation? c with
          | some token => token :: scan rest
          | none => [bad]

def scanNumber (state : NumberState) (taken : List Char) : List Char → List Token
  | [] => if state.complete then [ofNumberChars taken.reverse] else [bad]
  | c :: rest =>
    match state.step c with
    | some next => scanNumber next (c :: taken) rest
    | none =>
      if state.complete then
        ofNumberChars taken.reverse ::
          if isJsonBlank c then scan rest
          else match ofPunctuation? c with
            | some token => token :: scan rest
            | none => [bad]
      else [bad]

def scanText (done : Partial) : List Char → List Token
  | [] => [bad]
  | '"' :: rest => text done.content :: scan rest
  | '\\' :: 'u' :: a :: b :: c :: d :: rest =>
    match hexQuad? a b c d with
    | some unit => scanText (done.pushUnit unit) rest
    | none => [bad]
  | '\\' :: c :: rest =>
    match escaped? c with
    | some c => scanText (done.push c) rest
    | none => [bad]
  | c :: rest => if c = '\\' ∨ c.toNat < 0x20 then [bad] else scanText (done.push c) rest

end

end Token

namespace Json

mutual

def tokens : Json → List Token
  | null => [.null]
  | bool b => [.bool b]
  | number n => [.number (some n)]
  | str s => [.text (some s)]
  | arr [] => [.openArray, .closeArray]
  | arr (item :: items) => .openArray :: item.tokens ++ itemTokens items
  | obj [] => [.openObject, .closeObject]
  | obj ((key, value) :: members) =>
    .openObject :: .text (some key) :: .colon :: value.tokens ++ memberTokens members

def itemTokens : List Json → List Token
  | [] => [.closeArray]
  | item :: items => .comma :: item.tokens ++ itemTokens items

def memberTokens : List (String × Json) → List Token
  | [] => [.closeObject]
  | (key, value) :: members =>
    .comma :: .text (some key) :: .colon :: value.tokens ++ memberTokens members

end

end Json

end DocStore
