import WireMapper.Text.Ranges

/-!
White space, as the Unicode property `White_Space` has it. The zero width space and the byte order
mark do not have the property.
-/

namespace WireMapper.Text

def whiteSpaceRanges : List CodeRange :=
  [
    (0x9, 0xD), (0x20, 0x20), (0x85, 0x85), (0xA0, 0xA0), (0x1680, 0x1680), (0x2000, 0x200A),
    (0x2028, 0x2029), (0x202F, 0x202F), (0x205F, 0x205F), (0x3000, 0x3000)
  ]

def isWhiteSpace (c : Char) : Bool :=
  inRanges whiteSpaceRanges c

def isBlank (s : String) : Bool :=
  s.toList.all isWhiteSpace

end WireMapper.Text
