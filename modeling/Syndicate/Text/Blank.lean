/-! Blank characters of Unicode and trimming by them. The set is the white space of the
bidirectional classes and of the space separators, so it holds the four information separators
and the next-line control, but neither the zero width space nor the byte order mark. -/

namespace Syndicate.Text

/-- The code points that count as blank. -/
def blanks : List Nat :=
  [0x9, 0xa, 0xb, 0xc, 0xd, 0x1c, 0x1d, 0x1e, 0x1f, 0x20, 0x85, 0xa0, 0x1680,
   0x2000, 0x2001, 0x2002, 0x2003, 0x2004, 0x2005, 0x2006, 0x2007, 0x2008, 0x2009, 0x200a,
   0x2028, 0x2029, 0x202f, 0x205f, 0x3000]

def isBlank (c : Char) : Bool := blanks.contains c.toNat

/-- A text without the characters of a kind at its two ends. -/
def trimOf (kind : Char → Bool) (cs : List Char) : List Char :=
  ((cs.dropWhile kind).reverse.dropWhile kind).reverse

/-- A text without the blanks at its two ends. -/
def trim (cs : List Char) : List Char := trimOf isBlank cs

end Syndicate.Text
