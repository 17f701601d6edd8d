/-!
# Doubles in their bits

A double is its 64 bits, and two doubles are the same when their bits are.  So `0.0` and
`-0.0` are two doubles, and there are many doubles that are no number.  Arithmetic on
numbers is the arithmetic of the machine.

Being the same is not being equal as numbers: the two zeros are equal as numbers, and what
is no number is not even equal to itself.  Comparisons of numbers therefore have names of
their own, `isZero` and `lt`.

## What is no number has bits as well

They can be seen: a change of sign reaches them, and so does whoever compares constants by
their bits.  The standard for doubles leaves it open which bits an operation gives when it
has no number to give, and most processors agree on the following.  An operand that is no
number is passed on, the left one if neither is, after it has been made quiet; and where
numbers have no result, as two infinities have no difference, the result is `indefinite`.
A change of sign is a change of the sign bit and of nothing else.
-/

namespace StackScript

/-- A double. -/
@[ext] structure Double where
  /-- Its bits: the sign, eleven bits of exponent and 52 of significand. -/
  bits : UInt64
  deriving DecidableEq, Repr

namespace Double

/-- The bit for the sign. -/
def signMask : UInt64 := 0x8000000000000000

/-- The bit that is set in a quiet double that is no number. -/
def quietMask : UInt64 := 0x0008000000000000

/-- The bits of positive infinity; without their signs, the doubles above it are no numbers. -/
def infinityMask : UInt64 := 0x7ff0000000000000

/-- The same double with the other sign. -/
def neg (x : Double) : Double := ⟨x.bits ^^^ signMask⟩

/-- The same double without its sign. -/
def abs (x : Double) : Double := ⟨x.bits &&& ~~~signMask⟩

/-- Whether a double is no number. -/
def isNaN (x : Double) : Bool := infinityMask < x.abs.bits

/-- A double that is no number, made quiet. -/
def quieted (x : Double) : Double := ⟨x.bits ||| quietMask⟩

/-- The result of operations that have none. -/
def indefinite : Double := ⟨0xfff8000000000000⟩

/-- The number that a double is, for the machine. -/
def toFloat (x : Double) : Float := Float.ofBits x.bits

/-- The double of a result of the machine. -/
def ofFloat (x : Float) : Double := if x.isNaN then indefinite else ⟨x.toBits⟩

/-- An operation of the machine, for all doubles. -/
def lift (op : Float → Float → Float) (x y : Double) : Double :=
  if x.isNaN then x.quieted
  else if y.isNaN then y.quieted
  else ofFloat (op x.toFloat y.toFloat)

instance : Neg Double := ⟨neg⟩
instance : Add Double := ⟨lift Float.add⟩
instance : Sub Double := ⟨lift Float.sub⟩
instance : Mul Double := ⟨lift Float.mul⟩
instance : Div Double := ⟨lift Float.div⟩

instance : OfNat Double 0 := ⟨⟨0⟩⟩
instance : OfNat Double 1 := ⟨⟨0x3ff0000000000000⟩⟩

/-- Whether a double is zero, with either sign. -/
def isZero (x : Double) : Bool := x.toFloat == 0

/-- Whether a double is less than another one, as a number. -/
def lt (x y : Double) : Bool := x.toFloat < y.toFloat

end Double

end StackScript
