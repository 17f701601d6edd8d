import StackScript.Number.Word
import StackScript.Text.Extending
import StackScript.Text.Unprintable

/-!
# Quoted texts

A text in double quotes on one line, from which it can be read off again.  The quote and
the backslash are escaped with a backslash, and so are the null character, the tab, the
carriage return and the line feed, each with a letter of its own.  Any other character
that would be invisible, or drawn on top of its neighbour, is written as its code point in
hexadecimal digits between braces.
-/

namespace StackScript.Text

/-- The letter that escapes a character, if it has one. -/
def escapeLetter? : Char → Option Char
  | '\x00' => some '0'
  | '\t' => some 't'
  | '\r' => some 'r'
  | '\n' => some 'n'
  | '"' => some '"'
  | '\\' => some '\\'
  | _ => none

/-- Whether a character is written as its code point. -/
def isHidden (c : Char) : Bool :=
  extending.contains c.toNat || unprintable.contains c.toNat

/-- A character inside quotes. -/
def quoteChar (c : Char) : List Char :=
  match escapeLetter? c with
  | some letter => ['\\', letter]
  | none =>
      if isHidden c then
        '\\' :: 'u' :: '\x7b' :: Nat.toDigits 16 c.toNat ++ ['\x7d']
      else
        [c]

/-- A text in quotes. -/
def quote (s : String) : String :=
  String.ofList ('"' :: s.toList.flatMap quoteChar ++ ['"'])

end StackScript.Text
