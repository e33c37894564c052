import Script.Decimal.Shortest

/-!
# Floating-point numbers of the host

A host function may hand back a double. It is kept as its 64 bits, and what
it denotes is computed exactly from them: nothing rounds on the way to an
integer or to its text.
-/

set_option autoImplicit false

namespace Script

structure Double where
  bits : UInt64
  deriving DecidableEq

namespace Double

/-- What the bits denote. A finite number is its mantissa times a power of
two, with its sign. -/
inductive Meaning where
  | nan
  | infinite (negative : Bool)
  | finite (negative : Bool) (mantissa : Nat) (exponent : Int)

def fractionSize : Nat :=
  0x10000000000000

/-- One bit of sign, eleven of exponent and 52 of fraction. Below the least
exponent there is no leading one. -/
def meaning (x : Double) : Meaning :=
  let bits := x.bits.toNat
  let negative := bits / 0x8000000000000000 == 1
  let exponent : Nat := bits / fractionSize % 0x800
  let fraction := bits % fractionSize
  if exponent = 0x7ff then
    if fraction = 0 then .infinite negative else .nan
  else if exponent = 0 then
    .finite negative fraction (-1074)
  else
    .finite negative (fractionSize + fraction) ((exponent : Int) - 1075)

def wholePart (mantissa : Nat) (exponent : Int) : Nat :=
  mantissa * Nat.pow 2 exponent.toNat / Nat.pow 2 (-exponent).toNat

/-- The number without its fraction: the bits that count for less than one are
cleared. Below one only the sign is left. -/
def trunc (x : Double) : Double :=
  let bits := x.bits.toNat
  let exponent := bits / fractionSize % 0x800
  let unit := Nat.pow 2 (if exponent < 1023 then 63 else 1075 - exponent)
  ⟨UInt64.ofNat (bits / unit * unit)⟩

def isFinite (x : Double) : Bool :=
  match x.meaning with
  | .finite _ _ _ => true
  | _ => false

def units (negative : Bool) (mantissa : Nat) (exponent : Int) : Int :=
  let size : Nat := mantissa * Nat.pow 2 (exponent + 1074).toNat
  if negative then -size else size

def compare? (x y : Double) : Option Ordering :=
  match x.meaning, y.meaning with
  | .nan, _ => none
  | _, .nan => none
  | .infinite s, .infinite t => some (if s = t then .eq else if s then .lt else .gt)
  | .infinite s, .finite _ _ _ => some (if s then .lt else .gt)
  | .finite _ _ _, .infinite t => some (if t then .gt else .lt)
  | .finite s m d, .finite t n e => some (compare (units s m d) (units t n e))

def below (x y : Double) : Bool :=
  x.compare? y == some .lt

def atLeast (x y : Double) : Bool :=
  x.compare? y == some .gt || x.compare? y == some .eq

def negate (x : Double) : Double :=
  ⟨x.bits ^^^ 0x8000000000000000⟩

/-- The word next to the number on the side of zero: an end of the range for a
number outside of it, and zero for what is no number. -/
def nearestWord (x : Double) : Int64 :=
  match x.meaning with
  | .nan => 0
  | .infinite negative => if negative then Int64.minValue else Int64.maxValue
  | .finite negative mantissa exponent =>
    let size : Int := wholePart mantissa exponent
    let whole := if negative then -size else size
    Int64.ofInt (max Int64.minValue.toInt (min Int64.maxValue.toInt whole))

def bound : Double :=
  ⟨0x43e0000000000000⟩

/-- The integer that is left when the fraction is cut off, if there is one
and it fits into a word. -/
def truncate (x : Double) : Option Int64 :=
  let whole := x.trunc
  if !whole.isFinite || whole.atLeast bound || whole.below bound.negate then none
  else some whole.nearestWord

def half (n : Int64) : Double :=
  ⟨(n.toFloat / 2).toBits⟩

def display (x : Double) : List Char :=
  match x.meaning with
  | .nan => ['N', 'a', 'N']
  | .infinite negative => signed negative ['i', 'n', 'f']
  | .finite negative mantissa exponent =>
    signed negative (if mantissa = 0 then ['0'] else (Decimal.shortest mantissa exponent).positional)
where
  signed (negative : Bool) (text : List Char) : List Char :=
    if negative then '-' :: text else text

end Double

end Script
