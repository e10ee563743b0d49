import DocStore.Text.Utf8

/-!
# Files

What comes of asking for a file or for standard input: its bytes, or the reason
why there are none.
-/

set_option autoImplicit false

namespace DocStore

inductive FileError where
  | missing
  | directory
  | notUtf8
  | other (reason : String)
  deriving DecidableEq

def FileError.message : FileError → String
  | missing => "No such file or directory (os error 2)"
  | directory => "Is a directory (os error 21)"
  | notUtf8 => "stream did not contain valid UTF-8"
  | other reason => reason

abbrev FileContent := Except FileError (List UInt8)

def FileContent.text : FileContent → Except FileError String
  | .error e => .error e
  | .ok bytes =>
    match readUtf8? bytes with
    | some text => .ok text
    | none => .error .notUtf8

end DocStore
