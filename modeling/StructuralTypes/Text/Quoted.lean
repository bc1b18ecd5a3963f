import StructuralTypes.Text.Extending
import StructuralTypes.Text.Unprinted

/-!
Text in double quotes. A quote, a backslash and the common controls get a short
escape; a character that has no printed form of its own is written by its code.
-/

namespace StructuralTypes.Text

/-- Code points that are not shown by default (the property Default_Ignorable_Code_Point):
fillers, joiners, selectors and tags (Unicode 17). -/
def ignorableRanges : List (Nat × Nat) :=
  [(0xad, 0xad), (0x34f, 0x34f), (0x61c, 0x61c), (0x115f, 0x1160), (0x17b4, 0x17b5),
   (0x180b, 0x180f), (0x200b, 0x200f), (0x202a, 0x202e), (0x2060, 0x206f), (0x3164, 0x3164),
   (0xfe00, 0xfe0f), (0xfeff, 0xfeff), (0xffa0, 0xffa0), (0xfff0, 0xfff8), (0x1bca0, 0x1bca3),
   (0x1d173, 0x1d17a), (0xe0000, 0xe0fff)]

def within (ranges : List (Nat × Nat)) (code : Nat) : Bool :=
  ranges.any fun range => range.1 ≤ code && code ≤ range.2

def isPrinted (c : Char) : Bool :=
  (' ' ≤ c && c < '\x7f') ||
    !(within extendingRanges c.toNat || within ignorableRanges c.toNat ||
      within unprintedRanges c.toNat)

def escaped (c : Char) : String :=
  if c = '\x00' then "\\0"
  else if c = '\t' then "\\t"
  else if c = '\r' then "\\r"
  else if c = '\n' then "\\n"
  else if c = '"' then "\\\""
  else if c = '\\' then "\\\\"
  else if isPrinted c then String.singleton c
  else "\\u\x7b" ++ String.ofList (Nat.toDigits 16 c.toNat) ++ "\x7d"

def quoted (text : String) : String :=
  "\"" ++ String.join (text.toList.map escaped) ++ "\""

end StructuralTypes.Text
