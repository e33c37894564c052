/-!
# Decimal numerals

Whole numbers are written in base ten without leading zeros, negative ones
after a minus sign. A run of digits is read with any number of leading zeros.
-/

set_option autoImplicit false

namespace Script.Numeral

def ofNat (n : Nat) : List Char :=
  Nat.toDigits 10 n

def ofInt : Int → List Char
  | .ofNat n => ofNat n
  | .negSucc n => '-' :: ofNat (n + 1)

def value (digits : List Char) : Nat :=
  Nat.ofDigitChars 10 digits 0

theorem value_ofNat (n : Nat) : value (ofNat n) = n :=
  Nat.ofDigitChars_toDigits (by decide) (by decide)

theorem isDigit_of_mem_ofNat {n : Nat} {c : Char} (h : c ∈ ofNat n) : c.isDigit = true :=
  Nat.isDigit_of_mem_toDigits (by decide) (by decide) h

end Script.Numeral
