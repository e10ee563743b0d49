import DocStore.Json.Token

/-!
# Reading JSON

A value is read from its tokens with the open containers on a stack. The
grammar is strict, nothing may follow the value, and at most 127 containers may
be open at a time. `readWritten?` keeps the members as they are written,
`read?` sorts them.
-/

set_option autoImplicit false

namespace DocStore

namespace Json

inductive Frame where
  | items (done : List Json)
  | members (done : List (String × Json)) (key : String)

def maxDepth : Nat := 127

mutual

def ofTokensFrom (stack : List Frame) : List Token → Option Json
  | .null :: rest => closeFrom stack null rest
  | .bool b :: rest => closeFrom stack (bool b) rest
  | .number (some n) :: rest => closeFrom stack (number n) rest
  | .text (some s) :: rest => closeFrom stack (str s) rest
  | .openArray :: .closeArray :: rest =>
    if stack.length < maxDepth then closeFrom stack (arr []) rest else none
  | .openArray :: rest =>
    if stack.length < maxDepth then ofTokensFrom (.items [] :: stack) rest else none
  | .openObject :: .closeObject :: rest =>
    if stack.length < maxDepth then closeFrom stack (obj []) rest else none
  | .openObject :: .text (some key) :: .colon :: rest =>
    if stack.length < maxDepth then ofTokensFrom (.members [] key :: stack) rest else none
  | _ => none

def closeFrom (stack : List Frame) (value : Json) : List Token → Option Json
  | [] => if stack.isEmpty then some value else none
  | .comma :: .text (some key) :: .colon :: rest =>
    match stack with
    | .members done k :: stack => ofTokensFrom (.members ((k, value) :: done) key :: stack) rest
    | _ => none
  | .comma :: rest =>
    match stack with
    | .items done :: stack => ofTokensFrom (.items (value :: done) :: stack) rest
    | _ => none
  | .closeArray :: rest =>
    match stack with
    | .items done :: stack => closeFrom stack (arr (value :: done).reverse) rest
    | _ => none
  | .closeObject :: rest =>
    match stack with
    | .members done k :: stack => closeFrom stack (obj ((k, value) :: done).reverse) rest
    | _ => none
  | _ => none

end

def readWritten? (text : String) : Option Json := ofTokensFrom [] (Token.scan text.toList)

def read? (text : String) : Option Json := (readWritten? text).map sorted

end Json

end DocStore
