/-!
# Documents of key–value tables

The values that a document can hold, and the rules by which tables grow while one is read.

A table remembers how it came about, because that decides what may still be added to it:

* by a header of its own, `[a]`: keys may follow the header, and headers of tables inside
  it may come at any time, but its header may not be repeated and dotted keys may not
  reach into it from outside;
* *implied* by the header of a table inside it, `[a.b]`: it may still get a header;
* by a dotted key, `a.b = …`: more dotted keys may follow, but no header;
* between braces, and arrays between brackets: complete as they stand.

Numbers, dates and times are told apart from other values but not from each other.
-/

namespace StackScript.Toml

/-- How a table came about. -/
inductive Origin where
  /-- By its own header. -/
  | header
  /-- By the header of a table inside it. -/
  | implied
  /-- By a dotted key. -/
  | dotted
  /-- Between braces. -/
  | braces
  deriving DecidableEq, Repr

/-- A value of a document. -/
inductive Value where
  /-- A text. -/
  | str (s : String)
  /-- A truth value. -/
  | bool (b : Bool)
  /-- A number, a date or a time. -/
  | scalar
  /-- Values between brackets. -/
  | array (items : List Value)
  /-- Keys with their values. -/
  | table (origin : Origin) (entries : List (String × Value))
  /-- Tables with headers in double brackets, last one first. -/
  | tables (items : List (List (String × Value)))

/-- Keys with their values. -/
abbrev Entries := List (String × Value)

namespace Entries

/-- The value of a key. -/
def get? (es : Entries) (key : String) : Option Value :=
  es.lookup key

/-- Give a key a value, in place of the one it has. -/
def set (es : Entries) (key : String) (v : Value) : Entries :=
  match es with
  | [] => [(key, v)]
  | (k, w) :: rest => if k = key then (key, v) :: rest else (k, w) :: set rest key v

/-- Enter the value of a dotted key: the tables on the way are made if they are missing, and
must have been made by dotted keys if they are there. -/
def insertDotted (es : Entries) : List String → String → Value → Option Entries
  | [], key, v =>
      match es.get? key with
      | some _ => none
      | none => some (es.set key v)
  | step :: path, key, v =>
      match es.get? step with
      | none => do
          let inner ← insertDotted [] path key v
          some (es.set step (.table .dotted inner))
      | some (.table .dotted inner) => do
          let inner ← insertDotted inner path key v
          some (es.set step (.table .dotted inner))
      | some _ => none

/-- Go to the table of a header and change its entries; the tables on the way are implied if
they are missing. -/
def atPath (es : Entries) (change : Entries → Option Entries) : List String → Option Entries
  | [] => change es
  | step :: path =>
      match es.get? step with
      | none => do
          let inner ← atPath [] change path
          some (es.set step (.table .implied inner))
      | some (.table .braces _) => none
      | some (.table origin inner) => do
          let inner ← atPath inner change path
          some (es.set step (.table origin inner))
      | some (.tables (inner :: before)) => do
          let inner ← atPath inner change path
          some (es.set step (.tables (inner :: before)))
      | some _ => none

/-- Open a table by its header. -/
def openTable (key : String) (es : Entries) : Option Entries :=
  match es.get? key with
  | none => some (es.set key (.table .header []))
  | some (.table .implied inner) => some (es.set key (.table .header inner))
  | some _ => none

/-- Open one more table of a sequence by its header in double brackets. -/
def openNext (key : String) (es : Entries) : Option Entries :=
  match es.get? key with
  | none => some (es.set key (.tables [[]]))
  | some (.tables before) => some (es.set key (.tables ([] :: before)))
  | some _ => none

end Entries

end StackScript.Toml
