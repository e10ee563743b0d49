import DocStore.Text.Hex
import DocStore.Text.Printable

/-!
# Quoted text

A text between double quotes with its quotes, backslashes and invisible
characters written as escapes, the way diagnostics show a text they received.
-/

set_option autoImplicit false

namespace DocStore

def quotedChar (c : Char) : List Char :=
  if c = '\x00' then ['\\', '0']
  else if c = '\t' then ['\\', 't']
  else if c = '\r' then ['\\', 'r']
  else if c = '\n' then ['\\', 'n']
  else if c = '\\' then ['\\', '\\']
  else if c = '"' then ['\\', '"']
  else if isPrintable c then [c]
  else ['\\', 'u', '\x7b'] ++ hex c.toNat ++ ['\x7d']

def quoted (text : String) : String :=
  String.ofList ('"' :: text.toList.flatMap quotedChar ++ ['"'])

end DocStore
