import StackScript.Number.FloatText

/-!
# Numbers, dates and times

These values are recognised by their spelling as a whole: a run of letters, digits and the
signs that occur in them.  Each kind is a predicate on such a run.
-/

namespace StackScript.Toml

/-- Digits of some kind, with single underscores between them. -/
def isDigits (digit : Char → Bool) : List Char → Bool
  | [] => false
  | [c] => digit c
  | c :: '_' :: cs => digit c && isDigits digit cs
  | c :: cs => digit c && isDigits digit cs

/-- A run without the underscores in it. -/
def plain (cs : List Char) : List Char :=
  cs.filter (· != '_')

/-- A run without the sign in front of it. -/
def unsigned : List Char → List Char
  | '+' :: cs => cs
  | '-' :: cs => cs
  | cs => cs

/-- Whether a run is a decimal number without a sign; only zero starts with a zero. -/
def isDecimal : List Char → Bool
  | ['0'] => true
  | '0' :: _ => false
  | cs => isDigits Char.isDigit cs

/-- The value of a digit in a base up to sixteen. -/
def digitOf (c : Char) : Nat :=
  if c.isDigit then c.toNat - '0'.toNat else c.toLower.toNat - 'a'.toNat + 10

/-- Whether a character is a hexadecimal digit. -/
def isHexDigit (c : Char) : Bool :=
  c.isDigit || ('a' ≤ c.toLower && c.toLower ≤ 'f')

/-- Whether digits of a base spell a number below `2 ^ 63`. -/
def fits (base : Nat) (cs : List Char) : Bool :=
  let limit := 0x8000000000000000
  (plain cs).foldl (fun n c => if n < limit then base * n + digitOf c else n) 0 < limit

/-- Whether a run is a whole number of 64 bits. -/
def isInteger : List Char → Bool
  | '0' :: 'x' :: cs => isDigits isHexDigit cs && fits 16 cs
  | '0' :: 'o' :: cs => isDigits (fun c => '0' ≤ c && c ≤ '7') cs && fits 8 cs
  | '0' :: 'b' :: cs => isDigits (fun c => c == '0' || c == '1') cs && fits 2 cs
  | cs => isDecimal (unsigned cs) && (Word.ofDecimal? (plain cs)).isSome

/-- Whether a run is an exponent: a mark, an optional sign and digits. -/
def isExponent : List Char → Bool
  | c :: cs => (c == 'e' || c == 'E') && isDigits Char.isDigit (unsigned cs)
  | [] => false

/-- Whether a run is a fraction, a point and digits, with an optional exponent. -/
def isFraction : List Char → Bool
  | '.' :: cs =>
      let isPart := fun c : Char => c.isDigit || c == '_'
      let rest := cs.dropWhile isPart
      isDigits Char.isDigit (cs.takeWhile isPart) && (rest.isEmpty || isExponent rest)
  | _ => false

/-- Whether a run is a floating-point number.  A number above all doubles is refused; one below
them all is taken, and is negative infinity. -/
def isFloat (cs : List Char) : Bool :=
  let magnitude := unsigned cs
  if magnitude = "inf".toList ∨ magnitude = "nan".toList then
    true
  else
    let isPart := fun c : Char => c.isDigit || c == '_'
    let rest := magnitude.dropWhile isPart
    isDecimal (magnitude.takeWhile isPart) && (isFraction rest || isExponent rest)
      && match FloatText.read? (plain cs) with
        | some x => Binary64.shape x != .infinite false
        | none => false

/-- A number of exactly so many digits at the front of a run, and what follows it. -/
def digits? (n : Nat) (cs : List Char) : Option (Nat × List Char) :=
  let ds := cs.take n
  if ds.length = n ∧ ds.all Char.isDigit then some (Word.valueOfDigits ds, cs.drop n) else none

/-- The number of days of a month. -/
def daysIn (year month : Nat) : Nat :=
  if month = 2 then
    if year % 4 = 0 ∧ (year % 100 ≠ 0 ∨ year % 400 = 0) then 29 else 28
  else if month = 4 ∨ month = 6 ∨ month = 9 ∨ month = 11 then 30
  else 31

/-- A given character at the front of a run. -/
def mark? (c : Char) : List Char → Option (List Char)
  | d :: cs => if c = d then some cs else none
  | [] => none

/-- A date at the front of a run. -/
def date? (cs : List Char) : Option (List Char) := do
  let (year, cs) ← digits? 4 cs
  let cs ← mark? '-' cs
  let (month, cs) ← digits? 2 cs
  let cs ← mark? '-' cs
  let (day, cs) ← digits? 2 cs
  if 1 ≤ month ∧ month ≤ 12 ∧ 1 ≤ day ∧ day ≤ daysIn year month then some cs else none

/-- An optional fraction of a second at the front of a run. -/
def secondFraction? : List Char → Option (List Char)
  | '.' :: cs =>
      if (cs.takeWhile Char.isDigit).isEmpty then none else some (cs.dropWhile Char.isDigit)
  | cs => some cs

/-- A time of day at the front of a run. -/
def time? (cs : List Char) : Option (List Char) := do
  let (hour, cs) ← digits? 2 cs
  let cs ← mark? ':' cs
  let (minute, cs) ← digits? 2 cs
  let cs ← mark? ':' cs
  let (second, cs) ← digits? 2 cs
  if hour ≤ 23 ∧ minute ≤ 59 ∧ second ≤ 60 then secondFraction? cs else none

/-- Whether a run is nothing or an offset from universal time. -/
def isOffset : List Char → Bool
  | [] => true
  | [c] => c == 'Z' || c == 'z'
  | c :: cs =>
      (c == '+' || c == '-') && match digits? 2 cs with
        | some (hour, ':' :: rest) =>
            match digits? 2 rest with
            | some (minute, []) => hour ≤ 23 && minute ≤ 59
            | _ => false
        | _ => false

/-- Whether a run is a time with an optional offset. -/
def isOffsetTime (cs : List Char) : Bool :=
  match time? cs with
  | some rest => isOffset rest
  | none => false

/-- Whether a run is a date. -/
def isDate (cs : List Char) : Bool := date? cs == some []

/-- Whether a run is a date, a time, or both. -/
def isDateTime (cs : List Char) : Bool :=
  match date? cs with
  | some [] => true
  | some (c :: rest) => (c == 'T' || c == 't') && isOffsetTime rest
  | none => time? cs == some []

/-- Whether a character can occur in a number, a date or a time. -/
def isScalarChar (c : Char) : Bool :=
  c.isAlphanum || c == '+' || c == '-' || c == '_' || c == '.' || c == ':'

/-- Take a number, a date or a time.  A date may be followed by a blank and a time. -/
def scalar? (cs : List Char) : Option (List Char) :=
  let run := cs.takeWhile isScalarChar
  let rest := cs.dropWhile isScalarChar
  if isInteger run || isFloat run then
    some rest
  else if isDate run then
    match rest with
    | ' ' :: c :: more =>
        if c.isDigit then
          let behind := c :: more
          if isOffsetTime (behind.takeWhile isScalarChar) then
            some (behind.dropWhile isScalarChar)
          else
            none
        else
          some rest
    | _ => some rest
  else if isDateTime run then
    some rest
  else
    none

end StackScript.Toml
