/-!
# Text from bytes

Bytes read as UTF-8, either strictly or with U+FFFD standing for every part
that is not valid. One replacement stands for the longest run of bytes that
begins a valid sequence, or else for a single byte.
-/

set_option autoImplicit false

namespace DocStore

def readUtf8? (bytes : List UInt8) : Option String := String.fromUTF8? ⟨bytes.toArray⟩

/-- What a leading byte calls for: how many bytes follow it, the bounds of the first of them, and
the bits that the leading byte contributes. -/
structure Utf8Lead where
  following : Nat
  low : Nat
  high : Nat
  bits : Nat

def Utf8Lead.ofByte? (b : Nat) : Option Utf8Lead :=
  if 0xc2 ≤ b ∧ b ≤ 0xdf then some ⟨1, 0x80, 0xbf, b - 0xc0⟩
  else if b = 0xe0 then some ⟨2, 0xa0, 0xbf, 0⟩
  else if b = 0xed then some ⟨2, 0x80, 0x9f, 0xd⟩
  else if 0xe1 ≤ b ∧ b ≤ 0xef then some ⟨2, 0x80, 0xbf, b - 0xe0⟩
  else if b = 0xf0 then some ⟨3, 0x90, 0xbf, 0⟩
  else if 0xf1 ≤ b ∧ b ≤ 0xf3 then some ⟨3, 0x80, 0xbf, b - 0xf0⟩
  else if b = 0xf4 then some ⟨3, 0x80, 0x8f, 4⟩
  else none

def readUtf8LossyFrom : Option Utf8Lead → List UInt8 → List Char
  | none, [] => []
  | some _, [] => ['\ufffd']
  | none, byte :: rest =>
    if byte.toNat < 0x80 then Char.ofNat byte.toNat :: readUtf8LossyFrom none rest
    else match Utf8Lead.ofByte? byte.toNat with
      | none => '\ufffd' :: readUtf8LossyFrom none rest
      | some lead => readUtf8LossyFrom (some lead) rest
  | some lead, byte :: rest =>
    if lead.low ≤ byte.toNat ∧ byte.toNat ≤ lead.high then
      let bits := lead.bits * 64 + (byte.toNat - 0x80)
      if lead.following = 1 then Char.ofNat bits :: readUtf8LossyFrom none rest
      else readUtf8LossyFrom (some ⟨lead.following - 1, 0x80, 0xbf, bits⟩) rest
    else if byte.toNat < 0x80 then '\ufffd' :: Char.ofNat byte.toNat :: readUtf8LossyFrom none rest
    else match Utf8Lead.ofByte? byte.toNat with
      | none => '\ufffd' :: '\ufffd' :: readUtf8LossyFrom none rest
      | some lead => '\ufffd' :: readUtf8LossyFrom (some lead) rest

def readUtf8Lossy (bytes : List UInt8) : String := String.ofList (readUtf8LossyFrom none bytes)

end DocStore
