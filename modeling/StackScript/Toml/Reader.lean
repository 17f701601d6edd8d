import StackScript.Toml.Scalar
import StackScript.Toml.Value

/-!
# Reading documents

A document is a sequence of lines: blank lines and comments, headers of tables, and keys
with their values.  A value may spread over several lines, if it is a text in triple
quotes or has brackets around it.

Every function takes characters off the front and returns what is left.  Loops run at most
as often as there are characters at their start, and values may be nested only to a fixed
depth, so both recursions are on a number that is known beforehand.
-/

namespace StackScript.Toml

/-- Takes something off the front of a list of characters. -/
abbrev Taker (α : Type) := List Char → Option (α × List Char)

/-- How deep brackets and braces may be nested, and how many parts a dotted key may have. -/
def maxDepth : Nat := 79

/-! ## Blanks, line ends and comments -/

/-- Whether a character is a blank. -/
def isBlank (c : Char) : Bool := c == ' ' || c == '\t'

/-- Drop blanks. -/
def skipBlanks (cs : List Char) : List Char := cs.dropWhile isBlank

/-- Whether a character may occur in comments and texts: anything but control characters,
tabs excepted. -/
def isAllowed (c : Char) : Bool :=
  c == '\t' || (0x20 ≤ c.toNat && c.toNat ≠ 0x7f)

/-- A line end. -/
def lineEnd? : List Char → Option (List Char)
  | '\n' :: cs => some cs
  | '\r' :: '\n' :: cs => some cs
  | _ => none

/-- Drop a comment, if there is one. -/
def skipComment : List Char → List Char
  | '#' :: cs => cs.dropWhile isAllowed
  | cs => cs

/-- The rest of a line behind something complete: blanks, a comment, and a line end or the
end of the document. -/
def restOfLine? (cs : List Char) : Option (List Char) :=
  match skipComment (skipBlanks cs) with
  | [] => some []
  | cs => lineEnd? cs

/-- Drop blanks, comments and line ends, as far as they go. -/
def skipLines : Nat → List Char → List Char
  | 0, cs => cs
  | n + 1, cs =>
      let cs := skipComment (skipBlanks cs)
      match lineEnd? cs with
      | some cs => skipLines n cs
      | none => cs

/-! ## Texts -/

/-- The character of so many hexadecimal digits. -/
def codePoint? (n : Nat) (cs : List Char) : Option (Char × List Char) :=
  let ds := cs.take n
  if ds.length = n ∧ ds.all isHexDigit then
    let value := ds.foldl (fun k c => 16 * k + digitOf c) 0
    if h : value.isValidChar then some (Char.ofNatAux value h, cs.drop n) else none
  else
    none

/-- The character that an escape stands for, behind its backslash. -/
def escape? : List Char → Option (Char × List Char)
  | 'b' :: cs => some ('\x08', cs)
  | 't' :: cs => some ('\t', cs)
  | 'n' :: cs => some ('\n', cs)
  | 'f' :: cs => some ('\x0c', cs)
  | 'r' :: cs => some ('\r', cs)
  | '"' :: cs => some ('"', cs)
  | '\\' :: cs => some ('\\', cs)
  | 'u' :: cs => codePoint? 4 cs
  | 'U' :: cs => codePoint? 8 cs
  | _ => none

/-- A text with escapes behind its opening quote; `seen` holds its characters so far, last one
first. -/
def basic (seen : List Char) : Nat → Taker String
  | 0, _ => none
  | n + 1, cs =>
      match cs with
      | '"' :: cs => some (String.ofList seen.reverse, cs)
      | '\\' :: cs => do
          let (c, cs) ← escape? cs
          basic (c :: seen) n cs
      | c :: cs => if isAllowed c then basic (c :: seen) n cs else none
      | [] => none

/-- A text without escapes behind its opening quote. -/
def literal (cs : List Char) : Option (String × List Char) :=
  match cs.dropWhile (fun c => isAllowed c && c != '\'') with
  | '\'' :: rest =>
      some (String.ofList (cs.takeWhile (fun c => isAllowed c && c != '\'')), rest)
  | _ => none

/-- The quotes that end a text in triple quotes: up to two of them still belong to it.  The
number is how many of those there are. -/
def closing? (quote : Char) (cs : List Char) : Option (Nat × List Char) :=
  let count := (cs.takeWhile (· == quote)).length
  if count < 3 then none
  else some (min (count - 3) 2, cs.drop (min count 5))

/-- Drop blanks and line ends behind a backslash at the end of a line. -/
def skipBreak : Nat → List Char → List Char
  | 0, cs => cs
  | n + 1, cs =>
      let cs := skipBlanks cs
      match lineEnd? cs with
      | some cs => skipBreak n cs
      | none => cs

/-- A text in triple quotes behind them; a line end is a line feed however it is written. -/
def multiline (quote : Char) (seen : List Char) : Nat → Taker String
  | 0, _ => none
  | n + 1, cs =>
      match closing? quote cs with
      | some (extra, rest) =>
          some (String.ofList (seen.reverse ++ List.replicate extra quote), rest)
      | none =>
          match lineEnd? cs with
          | some cs => multiline quote ('\n' :: seen) n cs
          | none =>
              match cs with
              | c :: cs =>
                  if c = '\\' ∧ quote = '"' then
                    match lineEnd? (skipBlanks cs) with
                    | some rest => multiline quote seen n (skipBreak rest.length rest)
                    | none => do
                        let (d, cs) ← escape? cs
                        multiline quote (d :: seen) n cs
                  else if isAllowed c then
                    multiline quote (c :: seen) n cs
                  else
                    none
              | [] => none

/-- Drop the line end right behind triple quotes. -/
def skipFirstEnd (cs : List Char) : List Char := (lineEnd? cs).getD cs

/-- A text that starts with a quote. -/
def text? : Taker String
  | '"' :: '"' :: '"' :: cs =>
      let cs := skipFirstEnd cs
      multiline '"' [] (cs.length + 1) cs
  | '\'' :: '\'' :: '\'' :: cs =>
      let cs := skipFirstEnd cs
      multiline '\'' [] (cs.length + 1) cs
  | '"' :: cs => basic [] (cs.length + 1) cs
  | '\'' :: cs => literal cs
  | _ => none

/-! ## Keys -/

/-- Whether a character may occur in a key without quotes. -/
def isKeyChar (c : Char) : Bool :=
  c.isAlphanum || c == '-' || c == '_'

/-- One part of a key. -/
def keyPart? : Taker String
  | '"' :: cs => basic [] (cs.length + 1) cs
  | '\'' :: cs => literal cs
  | cs =>
      if (cs.takeWhile isKeyChar).isEmpty then none
      else some (String.ofList (cs.takeWhile isKeyChar), cs.dropWhile isKeyChar)

/-- The parts of a key, with dots between them, and the blanks around them. -/
def keyParts : Nat → Taker (List String)
  | 0, _ => none
  | n + 1, cs => do
      let (part, cs) ← keyPart? (skipBlanks cs)
      match skipBlanks cs with
      | '.' :: cs => do
          let (parts, cs) ← keyParts n cs
          some (part :: parts, cs)
      | cs => some ([part], cs)

/-- A key: the way to its table, and its last part. -/
def key? : Taker (List String × String) := fun cs => do
  let (parts, cs) ← keyParts maxDepth cs
  let last ← parts.getLast?
  some ((parts.dropLast, last), cs)

/-! ## Values -/

/-- The values between brackets, behind the opening one. -/
def items (value : Taker Value) : Nat → Taker (List Value)
  | 0, _ => none
  | n + 1, cs =>
      match skipLines cs.length cs with
      | ']' :: cs => some ([], cs)
      | cs => do
          let (v, cs) ← value cs
          match skipLines cs.length cs with
          | ',' :: cs => do
              let (vs, cs) ← items value n cs
              some (v :: vs, cs)
          | ']' :: cs => some ([v], cs)
          | _ => none

/-- A key and its value. -/
def pair? (value : Taker Value) : Taker ((List String × String) × Value) := fun cs => do
  let (key, cs) ← key? cs
  match cs with
  | '=' :: cs => do
      let (v, cs) ← value (skipBlanks cs)
      some ((key, v), cs)
  | _ => none

/-- The keys and values between braces, behind the opening one, when there is at least one. -/
def pairs (value : Taker Value) (es : Entries) : Nat → Taker Entries
  | 0, _ => none
  | n + 1, cs => do
      let (((path, key), v), cs) ← pair? value cs
      let es ← es.insertDotted path key v
      match skipBlanks cs with
      | ',' :: cs => pairs value es n cs
      | '}' :: cs => some (es, cs)
      | _ => none

/-- A value with at most so many levels of brackets and braces. -/
def value : Nat → Taker Value
  | depth, cs =>
      match cs with
      | '"' :: _ => (text? cs).map fun (s, cs) => (.str s, cs)
      | '\'' :: _ => (text? cs).map fun (s, cs) => (.str s, cs)
      | 't' :: 'r' :: 'u' :: 'e' :: cs => some (.bool true, cs)
      | 'f' :: 'a' :: 'l' :: 's' :: 'e' :: cs => some (.bool false, cs)
      | '[' :: cs =>
          match depth with
          | 0 => none
          | depth + 1 => (items (value depth) (cs.length + 1) cs).map fun (vs, cs) => (.array vs, cs)
      | '{' :: cs =>
          match depth with
          | 0 => none
          | depth + 1 =>
              match skipBlanks cs with
              | '}' :: cs => some (.table .braces [], cs)
              | cs =>
                  (pairs (value depth) [] (cs.length + 1) cs).map fun (es, cs) =>
                    (.table .braces es, cs)
      | cs => (scalar? cs).map fun cs => (.scalar, cs)

/-! ## Documents -/

/-- The table that keys go to at the moment. -/
structure Cursor where
  /-- The way to it; the outermost table has none. -/
  path : List String := []
  /-- The whole document so far. -/
  root : Entries := []

/-- Enter a key into the current table. -/
def Cursor.insert (c : Cursor) (path : List String) (key : String) (v : Value) : Option Cursor := do
  let root ← c.root.atPath (fun es => es.insertDotted path key v) c.path
  some { c with root }

/-- Go to another table by its header. -/
def Cursor.goto (c : Cursor) (double : Bool) (path : List String) (key : String) :
    Option Cursor := do
  let change := if double then Entries.openNext key else Entries.openTable key
  let root ← c.root.atPath change path
  some ⟨path ++ [key], root⟩

/-- A header behind its opening bracket. -/
def header? (c : Cursor) (cs : List Char) : Option (Cursor × List Char) :=
  match cs with
  | '[' :: cs => do
      let ((path, key), cs) ← key? cs
      match cs with
      | ']' :: ']' :: cs => do
          let c ← c.goto true path key
          some (c, cs)
      | _ => none
  | cs => do
      let ((path, key), cs) ← key? cs
      match cs with
      | ']' :: cs => do
          let c ← c.goto false path key
          some (c, cs)
      | _ => none

/-- The lines of a document. -/
def lines (c : Cursor) : Nat → List Char → Option Entries
  | 0, _ => none
  | n + 1, cs =>
      match skipLines cs.length cs with
      | [] => some c.root
      | '[' :: cs => do
          let (c, cs) ← header? c cs
          let cs ← restOfLine? cs
          lines c n cs
      | cs => do
          let (((path, key), v), cs) ← pair? (value maxDepth) cs
          let c ← c.insert path key v
          let cs ← restOfLine? cs
          lines c n cs

/-- Read a document; a byte order mark in front of it is ignored. -/
def read? (document : String) : Option Entries :=
  match document.toList with
  | '\ufeff' :: cs => lines {} (cs.length + 1) cs
  | cs => lines {} (cs.length + 1) cs

end StackScript.Toml
