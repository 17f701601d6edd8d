import StackScript.Text.CodePointSet

/-!
# White space

The characters with the `White_Space` property, and the two things done with them:
asking whether a text is blank, and stripping them from both ends of a text.
-/

namespace StackScript.Text

/-- The code points with the `White_Space` property. -/
def whitespace : CodePointSet where
  bounds :=
  [0x9, 0xe, 0x20, 0x21, 0x85, 0x86, 0xa0, 0xa1, 0x1680, 0x1681, 0x2000, 0x200b, 0x2028, 0x202a,
   0x202f, 0x2030, 0x205f, 0x2060, 0x3000, 0x3001]

/-- Whether a character is white space. -/
def isWhitespace (c : Char) : Bool :=
  whitespace.contains c.toNat

/-- Whether a text has nothing but white space in it. -/
def isBlank (s : String) : Bool :=
  s.toList.all isWhitespace

/-- The characters that are left when white space is removed from both ends. -/
def trim (cs : List Char) : List Char :=
  ((cs.dropWhile isWhitespace).reverse.dropWhile isWhitespace).reverse

end StackScript.Text
