/-!
# Blank text

The characters of the Unicode property White_Space, and the texts made of
them alone. A setting or an input that holds nothing else counts as empty.
-/

set_option autoImplicit false

namespace DocStore

def blankRanges : List (Nat × Nat) :=
  [(0x9, 0xd), (0x20, 0x20), (0x85, 0x85), (0xa0, 0xa0), (0x1680, 0x1680), (0x2000, 0x200a),
    (0x2028, 0x2029), (0x202f, 0x202f), (0x205f, 0x205f), (0x3000, 0x3000)]

def inRanges (ranges : List (Nat × Nat)) (point : Nat) : Bool :=
  ranges.any fun (first, last) => first ≤ point && point ≤ last

def isBlank (c : Char) : Bool := inRanges blankRanges c.toNat

def isBlankText (text : String) : Bool := text.toList.all isBlank

end DocStore
