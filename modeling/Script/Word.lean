/-!
# Integers of the language

An integer of the language is a word of 64 bits with a sign. Results are
computed without bounds and then have to fit.
-/

set_option autoImplicit false

namespace Script

def word? (n : Int) : Option Int64 :=
  if Int64.minValue.toInt ≤ n ∧ n ≤ Int64.maxValue.toInt then some (Int64.ofInt n) else none

theorem word?_eq_some_iff {n : Int} {w : Int64} : word? n = some w ↔ w.toInt = n := by
  have low : Int64.minValue.toInt = -9223372036854775808 := by decide
  have high : Int64.maxValue.toInt = 9223372036854775807 := by decide
  unfold word?
  constructor
  · intro h
    split at h
    · next hn =>
      rw [← Option.some.inj h]
      exact Int64.toInt_ofInt_of_le (by omega) (by omega)
    · exact absurd h (by simp)
  · rintro rfl
    have := w.le_toInt
    have := w.toInt_lt
    rw [if_pos (by omega), Int64.ofInt_toInt]

theorem word?_eq_none_iff {n : Int} :
    word? n = none ↔ n < Int64.minValue.toInt ∨ Int64.maxValue.toInt < n := by
  unfold word?
  split <;> simp only [reduceCtorEq, false_iff, true_iff] <;> omega

theorem word?_toInt (w : Int64) : word? w.toInt = some w :=
  word?_eq_some_iff.2 rfl

end Script
