import DocStore.Json.Basic
import DocStore.Number.Shortest
import DocStore.Text.Hex

/-!
# Writing JSON

Compact text: no blanks, members in their order, and nothing escaped but
quotes, backslashes and the characters below U+0020.
-/

set_option autoImplicit false

namespace DocStore

namespace Json

def numberLayout : NumberLayout := ⟨-5, 15⟩

def escapeChar (c : Char) : List Char :=
  if c = '"' then ['\\', '"']
  else if c = '\\' then ['\\', '\\']
  else if c = '\x08' then ['\\', 'b']
  else if c = '\x0c' then ['\\', 'f']
  else if c = '\n' then ['\\', 'n']
  else if c = '\r' then ['\\', 'r']
  else if c = '\t' then ['\\', 't']
  else if c.toNat < 0x20 then ['\\', 'u'] ++ hexPadded 4 c.toNat
  else [c]

def renderText (s : String) : List Char := '"' :: s.toList.flatMap escapeChar ++ ['"']

def renderNumber : JsonNumber → List Char
  | .integer n => intText n
  | .double x => numberLayout.render x

mutual

def renderChars : Json → List Char
  | null => ['n', 'u', 'l', 'l']
  | bool true => ['t', 'r', 'u', 'e']
  | bool false => ['f', 'a', 'l', 's', 'e']
  | number n => renderNumber n
  | str s => renderText s
  | arr [] => ['[', ']']
  | arr (item :: items) => '[' :: item.renderChars ++ renderItems items
  | obj [] => ['\x7b', '\x7d']
  | obj ((key, value) :: members) =>
    '\x7b' :: renderText key ++ ':' :: value.renderChars ++ renderMembers members

def renderItems : List Json → List Char
  | [] => [']']
  | item :: items => ',' :: item.renderChars ++ renderItems items

def renderMembers : List (String × Json) → List Char
  | [] => ['\x7d']
  | (key, value) :: members =>
    ',' :: renderText key ++ ':' :: value.renderChars ++ renderMembers members

end

def render (j : Json) : String := String.ofList j.renderChars

end Json

end DocStore
