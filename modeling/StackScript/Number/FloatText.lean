import StackScript.Number.Shortest
import StackScript.Number.Word

/-!
# The text of a double

Writing: the shortest decimal that reads back as the same double, laid out positionally
with at least one digit on either side of the point, or in scientific notation when the
number is below `10 ^ -4` or not below `10 ^ 16`.  In scientific notation the point is
left out when there is a single digit, and the exponent has no plus sign and no padding.

Reading: an optional sign, then `inf`, `infinity` or `nan` in any mixture of cases, or
digits with at most one point among them and an optional exponent.  There must be a
digit before or after the point, and at least one in the exponent if there is one.  The
result is the double nearest to the decimal that was written, with one exception: the
digits of an exponent count only until its value has reached `65536`.  That matters to
texts alone that make up for such an exponent with as many digits.
-/

namespace StackScript.FloatText

/-! ## Writing -/

/-- Decimals whose leading digit has an exponent in this range are written positionally. -/
def isPositional (leading : Int) : Bool :=
  -4 ≤ leading && leading < 16

/-- Digits with a point after the first `before` of them; zeros fill up missing places. -/
def positional (ds : List Char) (leading : Int) : List Char :=
  if leading < 0 then
    '0' :: '.' :: List.replicate (-leading - 1).toNat '0' ++ ds
  else
    let before := leading.toNat + 1
    let whole := ds.take before ++ List.replicate (before - ds.length) '0'
    let fraction := ds.drop before
    whole ++ '.' :: (if fraction.isEmpty then ['0'] else fraction)

/-- Digits in scientific notation. -/
def scientific (ds : List Char) (leading : Int) : List Char :=
  let point := match ds with
    | d :: e :: rest => d :: '.' :: e :: rest
    | _ => ds
  point ++ 'e' :: Word.decimal leading

/-- The text of a positive decimal. -/
def ofDecimal (d : Decimal) : List Char :=
  let ds := Word.digits d.significand
  let leading := d.exponent + (ds.length - 1 : Nat)
  if isPositional leading then positional ds leading else scientific ds leading

/-- The text of a double. -/
def render (x : Double) : List Char :=
  match Binary64.shape x with
  | .nan => "NaN".toList
  | .infinite negative => if negative then "-inf".toList else "inf".toList
  | .finite negative m q =>
      let magnitude := if m = 0 then "0.0".toList else ofDecimal (Shortest.ofScaled m q)
      if negative then '-' :: magnitude else magnitude

/-- The text of a double, as a string. -/
def text (x : Double) : String :=
  String.ofList (render x)

/-! ## Reading -/

/-- A lower case version of an unaccented letter. -/
def lower (cs : List Char) : List Char :=
  cs.map Char.toLower

/-- From here on further digits of an exponent no longer count. -/
def exponentLimit : Nat := 0x10000

/-- The exponent part: nothing, or an `e` with an optional sign and digits. -/
def exponent? : List Char → Option Int
  | [] => some 0
  | e :: cs =>
      if e = 'e' ∨ e = 'E' then
        match cs with
        | '+' :: ds => (Word.natural? exponentLimit ds).map fun n => (n : Int)
        | '-' :: ds => (Word.natural? exponentLimit ds).map fun n => -(n : Int)
        | ds => (Word.natural? exponentLimit ds).map fun n => (n : Int)
      else
        none

/-- The digits after the point, and what follows them. -/
def fraction : List Char → List Char × List Char
  | '.' :: cs => (cs.takeWhile Char.isDigit, cs.dropWhile Char.isDigit)
  | cs => ([], cs)

/-- How many digits of a decimal are read one by one.  A double, or the middle between two
neighbouring ones, has at most 768 digits from the first to the last that is not zero. -/
def mostSignificant : Nat := 800

/-- The decimal with the given digits and the exponent of the last of them.  Digits beyond the
first `mostSignificant` are replaced by a single one, which says whether they are all
zero: no double and no middle between two of them lies between what was written and
what is kept, so both have the same nearest double. -/
def ofDigits (ds : List Char) (exponent : Int) : Decimal :=
  let ds := ds.dropWhile (· == '0')
  match ds.drop mostSignificant with
  | [] => ⟨Word.valueOfDigits ds, exponent⟩
  | d :: rest =>
      let last := if (d :: rest).all (· == '0') then 0 else 1
      ⟨10 * Word.valueOfDigits (ds.take mostSignificant) + last, exponent + rest.length⟩

/-- A decimal without a sign. -/
def decimal? (cs : List Char) : Option Decimal :=
  let whole := cs.takeWhile Char.isDigit
  let (part, rest) := fraction (cs.dropWhile Char.isDigit)
  let ds := whole ++ part
  if ds.isEmpty then
    none
  else
    (exponent? rest).map fun e => ofDigits ds (e - part.length)

/-- A double without a sign. -/
def magnitude? (negative : Bool) (cs : List Char) : Option Double :=
  let word := lower cs
  if word = "inf".toList ∨ word = "infinity".toList then
    some (Binary64.infinity negative)
  else if word = "nan".toList then
    some (Binary64.nan negative)
  else
    (decimal? cs).map fun d => Binary64.ofDecimal negative d.significand d.exponent

/-- A double. -/
def read? : List Char → Option Double
  | '+' :: cs => magnitude? false cs
  | '-' :: cs => magnitude? true cs
  | cs => magnitude? false cs

end StackScript.FloatText
