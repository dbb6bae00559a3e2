import Worklog.Text.Ranges

/-!
# Blank characters

White space separates the words of a query and is stripped from the ends of settings. It is the
white space of Unicode together with the four information separators U+001C to U+001F. Around
numbers the separators are not allowed: there only the white space of Unicode is.
-/

namespace Worklog.Text

/-- The blank code points from U+0080 on, in ascending order. -/
def blankRanges : List (Nat × Nat) :=
  [(0x85, 0x85), (0xA0, 0xA0), (0x1680, 0x1680), (0x2000, 0x200A), (0x2028, 0x2029),
   (0x202F, 0x202F), (0x205F, 0x205F), (0x3000, 0x3000)]

/-- Whether `c` is white space. -/
def isBlank (c : Char) : Bool :=
  if c.toNat < 0x80 then
    (0x09 ≤ c.toNat && c.toNat ≤ 0x0D) || (0x1C ≤ c.toNat && c.toNat ≤ 0x20)
  else inRanges blankRanges c

/-- Whether `c` is one of the four information separators. -/
def isSeparator (c : Char) : Bool :=
  0x1C ≤ c.toNat && c.toNat ≤ 0x1F

/-- Whether `c` may stand around a number. -/
def isPadding (c : Char) : Bool :=
  isBlank c && !isSeparator c

/-- The text without the characters of a class at either end. -/
def stripOf (p : Char → Bool) (cs : List Char) : List Char :=
  ((cs.dropWhile p).reverse.dropWhile p).reverse

/-- The text without the white space at either end. -/
def strip (cs : List Char) : List Char :=
  stripOf isBlank cs

/-- The text without what may stand around a number at either end. -/
def unpad (cs : List Char) : List Char :=
  stripOf isPadding cs

/-- Whether the text holds nothing but white space. -/
def isAllBlank (s : String) : Bool :=
  s.toList.all isBlank

/-- The string without the white space at either end. -/
def trimmed (s : String) : String :=
  String.ofList (strip s.toList)

end Worklog.Text
