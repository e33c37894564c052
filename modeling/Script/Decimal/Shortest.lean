import Script.Numeral

/-!
# Shortest decimals

A double is the nearest of its kind to every decimal in an interval around
it. Of the decimals in that interval one with the fewest digits is wanted,
and of those the nearest. The powers of ten are tried from the largest down:
the first one with a multiple in the interval gives the fewest digits, and
the multiples next to the number are the only ones that need a look. All of
it is done on whole numbers.
-/

set_option autoImplicit false

namespace Script

structure Decimal where
  digits : Nat
  exponent : Int

namespace Decimal

/-- The number `mantissa * 2 ^ exponent` and a power of ten on one scale:
the number is `value` and the power of ten is `unit`. What rounds to the
number lies between `low` and `high`, themselves included if `closed`. -/
structure Scaled where
  value : Nat
  low : Nat
  high : Nat
  closed : Bool
  unit : Nat

/-- The gap below the least mantissa of a binade is half of the one above. -/
def scaled (mantissa : Nat) (exponent power : Int) : Scaled :=
  let scale := Nat.pow 10 (-power).toNat * Nat.pow 2 (exponent - 2).toNat
  let below := if mantissa = 0x10000000000000 ∧ exponent ≠ -1074 then 1 else 2
  { value := 4 * mantissa * scale
    low := (4 * mantissa - below) * scale
    high := (4 * mantissa + 2) * scale
    closed := mantissa % 2 == 0
    unit := Nat.pow 10 power.toNat * Nat.pow 2 (2 - exponent).toNat }

def Scaled.contains (s : Scaled) (point : Nat) : Bool :=
  if s.closed then s.low ≤ point && point ≤ s.high else s.low < point && point < s.high

/-- The multiple of the unit that is nearest to the number among those that
round to it. Halfway between two of them the larger one is taken. -/
def Scaled.multiple? (s : Scaled) : Option Nat :=
  let below := s.value / s.unit
  let above := below + 1
  match s.contains (below * s.unit), s.contains (above * s.unit) with
  | true, true =>
    some (if s.value - below * s.unit < above * s.unit - s.value then below else above)
  | true, false => some below
  | false, true => some above
  | false, false => none

def search (mantissa : Nat) (exponent : Int) : Nat → Int → Decimal
  | 0, power => ⟨0, power⟩
  | steps + 1, power =>
    match (scaled mantissa exponent power).multiple? with
    | some digits => ⟨digits, power⟩
    | none => search mantissa exponent steps (power - 1)

/-- The shortest decimal of a positive double. No double reaches the power
of ten where the search starts, and every double is a multiple of the one
where it ends. -/
def shortest (mantissa : Nat) (exponent : Int) : Decimal :=
  search mantissa exponent (309 + 1074 + 1) 309

def positional (d : Decimal) : List Char :=
  let digits := Numeral.ofNat d.digits
  let places := (-d.exponent).toNat
  if 0 ≤ d.exponent then
    digits ++ List.replicate d.exponent.toNat '0'
  else if places < digits.length then
    digits.take (digits.length - places) ++ '.' :: digits.drop (digits.length - places)
  else
    '0' :: '.' :: (List.replicate (places - digits.length) '0' ++ digits)

end Decimal

end Script
