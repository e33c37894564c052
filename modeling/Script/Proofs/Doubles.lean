import Script.Proofs.Ending
import Script.Proofs.Exact
import Script.Stock

/-!
# Doubles of the host

The bits of a double denote a rational number, read off its sign, its exponent
and its fraction, or an infinity, or no number. Clearing the bits of a fraction
leaves exactly the whole part, and the comparisons with the bounds of a word are
exact too. So a double of the host arrives in the language as its whole part if
that is in range and as null in all other cases: nothing is rounded, and no
integer is put in place of another.
-/

set_option autoImplicit false

namespace Script
open Exact (InRange)

def towardZero (q : ℚ) : ℤ :=
  if 0 ≤ q then ⌊q⌋ else ⌈q⌉

namespace Double

/-- The rational number that the bits denote, if they denote one: one bit of
sign, eleven of exponent and 52 of fraction. -/
def rational? (x : Double) : Option ℚ :=
  let sign : ℕ := x.bits.toNat / 2 ^ 63
  let exponent : ℕ := x.bits.toNat / 2 ^ 52 % 2 ^ 11
  let bits : ℕ := x.bits.toNat % 2 ^ 52
  let fraction : ℚ := bits / 2 ^ 52
  if exponent = 2047 then none
  else if exponent = 0 then some ((-1) ^ sign * 2 ^ (-1022 : ℤ) * fraction)
  else some ((-1) ^ sign * 2 ^ ((exponent : ℤ) - 1023) * (1 + fraction))

/-- The value that a double of the host has to become. -/
inductive Arrives (x : Double) : Value → Prop where
  | int {q : ℚ} {n : Int64} : x.rational? = some q → towardZero q = n.toInt → Arrives x (.int n)
  | null : (∀ q, x.rational? = some q → ¬ InRange (towardZero q)) → Arrives x .null

/-! ### Sign, exponent and fraction -/

structure HasFields (x : Double) (sign exponent fraction : Nat) : Prop where
  bits : x.bits.toNat = (sign * 2 ^ 11 + exponent) * 2 ^ 52 + fraction
  sign_lt : sign < 2
  exponent_lt : exponent < 2 ^ 11
  fraction_lt : fraction < 2 ^ 52

theorem exists_fields (x : Double) : ∃ s e f, x.HasFields s e f := by
  have := x.bits.toNat_lt
  exact ⟨x.bits.toNat / 2 ^ 63, x.bits.toNat / 2 ^ 52 % 2 ^ 11, x.bits.toNat % 2 ^ 52,
    by omega, by omega, by omega, by omega⟩

section
variable {x : Double} {s e f : Nat}

theorem HasFields.meaning_eq (h : x.HasFields s e f) :
    x.meaning =
      if e = 0x7ff then if f = 0 then .infinite (s == 1) else .nan
      else if e = 0 then .finite (s == 1) f (-1074)
      else .finite (s == 1) (fractionSize + f) ((e : Int) - 1075) := by
  obtain ⟨hbits, hs, he, hf⟩ := h
  have hsign : x.bits.toNat / 0x8000000000000000 = s := by omega
  have hexponent : x.bits.toNat / fractionSize % 0x800 = e := by
    unfold fractionSize
    omega
  have hfraction : x.bits.toNat % fractionSize = f := by
    unfold fractionSize
    omega
  simp only [meaning, hsign, hexponent, hfraction]

theorem HasFields.rational?_eq (h : x.HasFields s e f) :
    x.rational? =
      if e = 2047 then none
      else if e = 0 then some ((-1) ^ s * 2 ^ (-1022 : ℤ) * ((f : ℚ) / 2 ^ 52))
      else some ((-1) ^ s * 2 ^ ((e : ℤ) - 1023) * (1 + (f : ℚ) / 2 ^ 52)) := by
  obtain ⟨hbits, hs, he, hf⟩ := h
  have hsign : x.bits.toNat / 2 ^ 63 = s := by omega
  have hexponent : x.bits.toNat / 2 ^ 52 % 2 ^ 11 = e := by omega
  have hfraction : x.bits.toNat % 2 ^ 52 = f := by omega
  simp only [rational?, hsign, hexponent, hfraction]

end

/-! ### What a finite double denotes -/

def signed (negative : Bool) (size : ℤ) : ℤ :=
  if negative then -size else size

def value (negative : Bool) (mantissa : Nat) (exponent : Int) : ℚ :=
  if negative then -((mantissa : ℚ) * 2 ^ exponent) else (mantissa : ℚ) * 2 ^ exponent

theorem neg_one_pow_mul {s : Nat} (hs : s < 2) (q : ℚ) :
    (-1) ^ s * q = if s == 1 then -q else q := by
  obtain rfl | rfl : s = 0 ∨ s = 1 := by omega
  · simp
  · simp

theorem rational?_eq (x : Double) :
    x.rational? = match x.meaning with
      | .finite s m e => some (value s m e)
      | _ => none := by
  obtain ⟨s, e, f, h⟩ := x.exists_fields
  rw [h.meaning_eq, h.rational?_eq]
  by_cases htop : e = 2047
  · rw [if_pos htop, if_pos htop]
    by_cases hf : f = 0 <;> simp [hf]
  · rw [if_neg htop, if_neg htop]
    by_cases hzero : e = 0
    · have hscale : (2 : ℚ) ^ (-1022 : ℤ) * ((f : ℚ) / 2 ^ 52) = (f : ℚ) * 2 ^ (-1074 : ℤ) := by
        rw [show (-1074 : ℤ) = -1022 - (52 : ℕ) by norm_num, zpow_sub₀ two_ne_zero, zpow_natCast]
        ring
      rw [if_pos hzero, if_pos hzero, mul_assoc, hscale, neg_one_pow_mul h.sign_lt]
      rfl
    · have hscale : (2 : ℚ) ^ ((e : ℤ) - 1023) * (1 + (f : ℚ) / 2 ^ 52) =
          ((fractionSize + f : ℕ) : ℚ) * 2 ^ ((e : ℤ) - 1075) := by
        have hsplit : (2 : ℚ) ^ ((e : ℤ) - 1075) = 2 ^ ((e : ℤ) - 1023) / 2 ^ 52 := by
          rw [show (e : ℤ) - 1075 = e - 1023 - (52 : ℕ) by ring, zpow_sub₀ two_ne_zero,
            zpow_natCast]
        rw [hsplit, fractionSize]
        generalize (2 : ℚ) ^ ((e : ℤ) - 1023) = scale
        push_cast
        ring
      rw [if_neg hzero, if_neg hzero, mul_assoc, hscale, neg_one_pow_mul h.sign_lt]
      rfl

theorem wholePart_natCast (m k : Nat) : wholePart m (k : ℤ) = m * 2 ^ k := by
  simp [wholePart]

theorem wholePart_neg (m k : Nat) : wholePart m (-(k : ℤ)) = m / 2 ^ k := by
  simp [wholePart]

theorem wholePart_eq_floor (m : Nat) (d : Int) : wholePart m d = ⌊(m : ℚ) * 2 ^ d⌋₊ := by
  obtain ⟨k, rfl | rfl⟩ := Int.eq_nat_or_neg d
  · have hwhole : (m : ℚ) * 2 ^ (k : ℤ) = (m * 2 ^ k : ℕ) := by
      rw [zpow_natCast]
      push_cast
      rfl
    rw [hwhole, Nat.floor_natCast, wholePart_natCast]
  · have hquotient : (m : ℚ) * 2 ^ (-(k : ℤ)) = (m : ℚ) / (2 ^ k : ℕ) := by
      rw [zpow_neg, zpow_natCast, div_eq_mul_inv]
      push_cast
      rfl
    rw [hquotient, Nat.floor_div_eq_div, wholePart_neg]

theorem towardZero_value (s : Bool) (m : Nat) (e : Int) :
    towardZero (value s m e) = signed s (wholePart m e) := by
  have hsize : (0 : ℚ) ≤ (m : ℚ) * 2 ^ e := by positivity
  have hfloor : ⌊(m : ℚ) * 2 ^ e⌋ = wholePart m e := by
    rw [wholePart_eq_floor, Int.natCast_floor_eq_floor hsize]
  unfold towardZero value signed
  cases s with
  | false => simp [hsize, hfloor]
  | true =>
    simp only [if_true, Left.nonneg_neg_iff, Int.ceil_neg, Int.floor_neg, hfloor]
    split
    next hle =>
      have hzero : (m : ℚ) * 2 ^ e = 0 := le_antisymm hle hsize
      rw [← hfloor, hzero]
      simp
    next => rfl

/-! ### Clearing the bits of the fraction -/

def cleared (exponent : Nat) : Nat :=
  if exponent < 1023 then 63 else 1075 - exponent

theorem HasFields.toNat_trunc {x : Double} {s e f : Nat} (h : x.HasFields s e f) :
    x.trunc.bits.toNat = x.bits.toNat / 2 ^ cleared e * 2 ^ cleared e := by
  have hexponent : x.bits.toNat / fractionSize % 0x800 = e := by
    obtain ⟨hbits, hs, he, hf⟩ := h
    unfold fractionSize
    omega
  have hle := Nat.div_mul_le_self x.bits.toNat (2 ^ cleared e)
  simp only [trunc, hexponent]
  exact UInt64.toNat_ofNat_of_lt' (Nat.lt_of_le_of_lt hle x.bits.toNat_lt)

section
variable {x : Double} {s e f : Nat}

theorem HasFields.trunc_of_small (h : x.HasFields s e f) (he : e < 1023) :
    x.trunc.HasFields s 0 0 := by
  have htrunc := h.toNat_trunc
  obtain ⟨hbits, hs, _, hf⟩ := h
  have hcleared : cleared e = 63 := if_pos he
  rw [hcleared] at htrunc
  have hsign : x.bits.toNat / 2 ^ 63 = s := by omega
  rw [hsign] at htrunc
  exact ⟨by rw [htrunc]; ring, hs, by decide, by decide⟩

theorem HasFields.trunc_of_le (h : x.HasFields s e f) (he : 1023 ≤ e) :
    x.trunc.HasFields s e (f / 2 ^ (1075 - e) * 2 ^ (1075 - e)) := by
  have htrunc := h.toNat_trunc
  obtain ⟨hbits, hs, he', hf⟩ := h
  have hcleared : cleared e = 1075 - e := if_neg (Nat.not_lt.2 he)
  have hle := Nat.div_mul_le_self f (2 ^ (1075 - e))
  refine ⟨?_, hs, he', by omega⟩
  have hsplit : 2 ^ 52 = 2 ^ (52 - (1075 - e)) * 2 ^ (1075 - e) := by
    rw [← pow_add]
    congr 1
    omega
  rw [htrunc, hcleared, hbits]
  rw [Nat.add_comm, hsplit, ← Nat.mul_assoc, Nat.add_mul_div_right _ _ (Nat.two_pow_pos _),
    Nat.add_mul, Nat.add_comm]

end

theorem wholePart_of_small {m : Nat} {d : Int} (hm : m < 2 ^ 53) (hd : d ≤ -53) :
    wholePart m d = 0 := by
  obtain ⟨k, rfl⟩ := Int.exists_eq_neg_ofNat (Int.le_trans hd (by decide))
  rw [wholePart_neg]
  exact Nat.div_eq_of_lt (Nat.lt_of_lt_of_le hm (Nat.pow_le_pow_right Nat.two_pos (by omega)))

theorem cleared_eq_wholePart {e f : Nat} (he : 1023 ≤ e) :
    ((fractionSize + f / 2 ^ (1075 - e) * 2 ^ (1075 - e) : ℕ) : ℚ) * 2 ^ ((e : ℤ) - 1075) =
      wholePart (fractionSize + f) ((e : ℤ) - 1075) := by
  rcases Nat.le_total 1075 e with hle | hle
  · obtain ⟨k, rfl⟩ := Nat.exists_eq_add_of_le hle
    have hd : ((1075 + k : ℕ) : ℤ) - 1075 = (k : ℤ) := by omega
    rw [hd, wholePart_natCast, zpow_natCast, Nat.sub_eq_zero_of_le hle]
    push_cast
    simp
  · obtain ⟨k, hk⟩ := Nat.exists_eq_add_of_le hle
    have hd : (e : ℤ) - 1075 = -(k : ℤ) := by omega
    have hmantissa : fractionSize + f / 2 ^ k * 2 ^ k = (fractionSize + f) / 2 ^ k * 2 ^ k := by
      have hsplit : fractionSize = 2 ^ (52 - k) * 2 ^ k := by
        rw [← pow_add, Nat.sub_add_cancel (by omega)]
        rfl
      rw [hsplit, Nat.add_comm _ f, Nat.add_mul_div_right _ _ (Nat.two_pow_pos k)]
      ring
    rw [show 1075 - e = k by omega, hd, wholePart_neg, hmantissa, zpow_neg, zpow_natCast]
    push_cast
    rw [mul_assoc, mul_inv_cancel₀ (by positivity), mul_one]

theorem meaning_trunc_of_finite {x : Double} {n : Bool} {m : Nat} {d : Int}
    (hx : x.meaning = .finite n m d) :
    ∃ m' d', x.trunc.meaning = .finite n m' d' ∧ -1074 ≤ d' ∧
      (m' : ℚ) * 2 ^ d' = wholePart m d := by
  obtain ⟨s, e, f, h⟩ := x.exists_fields
  have hf := h.fraction_lt
  rw [h.meaning_eq] at hx
  split at hx
  · split at hx <;> cases hx
  next htop =>
    rcases Nat.lt_or_ge e 1023 with he | he
    · have hzero : wholePart m d = 0 := by
        split at hx
        · cases hx
          exact wholePart_of_small (by omega) (by decide)
        · cases hx
          exact wholePart_of_small (by unfold fractionSize; omega) (by omega)
      have hn : n = (s == 1) := by split at hx <;> cases hx <;> rfl
      refine ⟨0, -1074, ?_, by decide, by simp [hzero]⟩
      rw [(h.trunc_of_small he).meaning_eq, hn]
      rfl
    · rw [if_neg (by omega)] at hx
      cases hx
      refine ⟨_, _, ?_, ?_, cleared_eq_wholePart he⟩
      · rw [(h.trunc_of_le he).meaning_eq, if_neg htop, if_neg (by omega)]
      · omega

theorem isFinite_trunc_of_not_finite {x : Double} (hx : ∀ n m d, x.meaning ≠ .finite n m d) :
    x.trunc.isFinite = false := by
  obtain ⟨s, e, f, h⟩ := x.exists_fields
  obtain rfl : e = 2047 := by
    by_contra he
    rw [h.meaning_eq, if_neg he] at hx
    split at hx <;> exact hx _ _ _ rfl
  unfold isFinite
  rw [(h.trunc_of_le (by decide)).meaning_eq, if_pos rfl]
  generalize f / 2 ^ (1075 - 2047) * 2 ^ (1075 - 2047) = fraction
  by_cases hfraction : fraction = 0 <;> simp [hfraction]

/-! ### Comparisons -/

theorem units_eq (n : Bool) (m : Nat) {d : Int} (hd : -1074 ≤ d) :
    (units n m d : ℚ) = value n m d * 2 ^ 1074 := by
  have hscale : (2 : ℚ) ^ (d + 1074).toNat = 2 ^ d * 2 ^ 1074 := by
    rw [← zpow_natCast, ← zpow_natCast, ← zpow_add₀ two_ne_zero]
    congr 1
    omega
  have hsize : ((m * 2 ^ (d + 1074).toNat : ℕ) : ℚ) = m * 2 ^ d * 2 ^ 1074 := by
    rw [Nat.cast_mul, Nat.cast_pow, Nat.cast_ofNat, hscale, mul_assoc]
  cases n with
  | false => exact hsize
  | true =>
    show ((-(m * 2 ^ (d + 1074).toNat : ℕ) : ℤ) : ℚ) = -(m * 2 ^ d) * 2 ^ 1074
    rw [Int.cast_neg, Int.cast_natCast, hsize, neg_mul]

section
variable {x y : Double} {n n' : Bool} {m m' : Nat} {d d' : Int}

theorem below_eq (hx : x.meaning = .finite n m d) (hy : y.meaning = .finite n' m' d') :
    x.below y = decide (units n m d < units n' m' d') := by
  rw [Bool.eq_iff_iff]
  simp only [below, compare?, hx, hy, beq_iff_eq, Option.some.injEq, compare_lt_iff_lt,
    decide_eq_true_iff]

theorem atLeast_eq (hx : x.meaning = .finite n m d) (hy : y.meaning = .finite n' m' d') :
    x.atLeast y = decide (units n' m' d' ≤ units n m d) := by
  rw [Bool.eq_iff_iff]
  simp only [atLeast, compare?, hx, hy, Bool.or_eq_true, beq_iff_eq, Option.some.injEq,
    compare_gt_iff_gt, compare_eq_iff_eq, decide_eq_true_iff]
  omega

end

theorem meaning_bound : bound.meaning = .finite false (2 ^ 52) 11 := by
  rfl

theorem meaning_negate_bound : bound.negate.meaning = .finite true (2 ^ 52) 11 := by
  rfl

/-! ### Cutting off the fraction -/

theorem units_whole {n : Bool} {m w : Nat} {d : Int} (hd : -1074 ≤ d)
    (hw : (m : ℚ) * 2 ^ d = w) : units n m d = signed n w * 2 ^ 1074 := by
  have hvalue : value n m d = (signed n w : ℚ) := by
    unfold value signed
    cases n <;> simp [hw]
  have hunits : (units n m d : ℚ) = ((signed n w * 2 ^ 1074 : ℤ) : ℚ) := by
    rw [units_eq n m hd, hvalue, Int.cast_mul, Int.cast_pow, Int.cast_ofNat]
  exact Int.cast_injective hunits

theorem units_bound (n : Bool) : units n (2 ^ 52) 11 = signed n (2 ^ 63) * 2 ^ 1074 :=
  units_whole (by decide) (by norm_num)

/-- The bounds are compared with exactly, and within them no word is put in the
place of another. -/
theorem truncate_of_finite {x : Double} {n : Bool} {m : Nat} {d : Int}
    (hx : x.meaning = .finite n m d) : x.truncate = word? (signed n (wholePart m d)) := by
  obtain ⟨m', d', htrunc, hd', hw⟩ := meaning_trunc_of_finite hx
  have hpos : (0 : ℤ) < 2 ^ 1074 := Int.pow_pos (by decide)
  have hunits : units n m' d' = signed n (wholePart m d) * 2 ^ 1074 := units_whole hd' hw
  have hfinite : x.trunc.isFinite = true := by
    unfold isFinite
    rw [htrunc]
  have hatLeast : x.trunc.atLeast bound = decide (2 ^ 63 ≤ signed n (wholePart m d)) := by
    rw [atLeast_eq htrunc meaning_bound, hunits, units_bound, decide_eq_decide]
    exact Int.mul_le_mul_right hpos
  have hbelow : x.trunc.below bound.negate = decide (signed n (wholePart m d) < -2 ^ 63) := by
    rw [below_eq htrunc meaning_negate_bound, hunits, units_bound, decide_eq_decide]
    exact Int.mul_lt_mul_right hpos
  have hword : x.trunc.nearestWord =
      Int64.ofInt (max (-2 ^ 63) (min (2 ^ 63 - 1) (signed n (wholePart m d)))) := by
    have hwhole : wholePart m' d' = wholePart m d := by
      rw [wholePart_eq_floor m' d', hw, Nat.floor_natCast]
    unfold nearestWord
    rw [htrunc, ← hwhole]
    rfl
  have hlow : Int64.minValue.toInt = -2 ^ 63 := by decide
  have hhigh : Int64.maxValue.toInt = 2 ^ 63 - 1 := by decide
  unfold truncate word?
  simp only [hfinite, hatLeast, hbelow, hword, hlow, hhigh]
  generalize signed n (wholePart m d) = k
  have hguard : (!true || decide (2 ^ 63 ≤ k) || decide (k < -2 ^ 63)) = true ↔
      ¬ (-2 ^ 63 ≤ k ∧ k ≤ 2 ^ 63 - 1) := by
    simp only [Bool.not_true, Bool.false_or, Bool.or_eq_true, decide_eq_true_iff]
    omega
  by_cases hrange : -2 ^ 63 ≤ k ∧ k ≤ 2 ^ 63 - 1
  · have hclamp : max (-2 ^ 63) (min (2 ^ 63 - 1) k) = k := by omega
    rw [if_neg (mt hguard.1 (not_not_intro hrange)), if_pos hrange, hclamp]
  · rw [if_pos (hguard.2 hrange), if_neg hrange]

theorem truncate_of_not_finite {x : Double} (hx : ∀ n m d, x.meaning ≠ .finite n m d) :
    x.truncate = none := by
  simp [truncate, isFinite_trunc_of_not_finite hx]

theorem rational?_cases (x : Double) :
    (∃ n m d, x.meaning = .finite n m d ∧ x.rational? = some (value n m d)) ∨
      (∀ n m d, x.meaning ≠ .finite n m d) ∧ x.rational? = none := by
  rw [rational?_eq]
  cases x.meaning with
  | finite n m d => exact .inl ⟨n, m, d, rfl, rfl⟩
  | nan => exact .inr ⟨nofun, rfl⟩
  | infinite n => exact .inr ⟨nofun, rfl⟩

theorem word?_eq_none_iff_not_inRange {k : ℤ} : word? k = none ↔ ¬ InRange k := by
  have hlow : Int64.minValue.toInt = -2 ^ 63 := by decide
  have hhigh : Int64.maxValue.toInt = 2 ^ 63 - 1 := by decide
  rw [word?_eq_none_iff, hlow, hhigh, InRange]
  omega

theorem arrives_iff (x : Double) (v : Value) :
    x.Arrives v ↔ (x.truncate.map Value.int).getD .null = v := by
  rcases x.rational?_cases with ⟨n, m, d, hx, hexact⟩ | ⟨hx, hexact⟩
  · have hwhole := towardZero_value n m d
    rw [truncate_of_finite hx, ← hwhole]
    constructor
    · rintro (⟨hq, hn⟩ | hnull)
      · cases hexact.symm.trans hq
        rw [word?_eq_some_iff.2 hn.symm]
        rfl
      · rw [word?_eq_none_iff_not_inRange.2 (hnull _ hexact)]
        rfl
    · rintro rfl
      cases hword : word? (towardZero (value n m d)) with
      | some w => exact .int hexact (word?_eq_some_iff.1 hword).symm
      | none =>
        refine .null fun q hq => ?_
        cases hexact.symm.trans hq
        exact word?_eq_none_iff_not_inRange.1 hword
  · rw [truncate_of_not_finite hx]
    constructor
    · rintro (⟨hq, _⟩ | _)
      · cases hexact.symm.trans hq
      · rfl
    · rintro rfl
      refine .null fun q hq => ?_
      cases hexact.symm.trans hq

theorem truncate_eq_some_iff {x : Double} {n : Int64} :
    x.truncate = some n ↔ ∃ q, x.rational? = some q ∧ towardZero q = n.toInt := by
  have harrives : x.truncate = some n ↔ x.Arrives (.int n) := by
    rw [arrives_iff]
    cases x.truncate <;> simp
  rw [harrives]
  constructor
  · rintro ⟨hq, hn⟩
    exact ⟨_, hq, hn⟩
  · rintro ⟨q, hq, hn⟩
    exact .int hq hn

theorem truncate_eq_none_iff {x : Double} :
    x.truncate = none ↔ ∀ q, x.rational? = some q → ¬ InRange (towardZero q) := by
  have harrives : x.truncate = none ↔ x.Arrives .null := by
    rw [arrives_iff]
    cases x.truncate <;> simp
  rw [harrives]
  constructor
  · rintro (_ | hnull)
    exact hnull
  · exact .null

end Double

namespace Evaluation

variable {env env₁ : Environment} {trace trace₁ : Trace}

theorem yields_call_of_embedded {f : String} {arity : Nat} {host : Host}
    {arguments : List Expr} {values : List Value}
    (hf : env.functionOf? f = some (.embedded arity host)) (harity : arguments.length = arity)
    (h : Yields (exprs · arguments env) trace (.done (values, env₁)) trace₁) :
    Yields (call · f arguments env) trace
      (.done ((host.reply trace₁ (values.map Native.ofValue)).1.toValue, env₁))
      ((host.reply trace₁ (values.map Native.ofValue)).2.reverse ++ trace₁) := by
  have hrun (fuel : Nat) : call (fuel + 1) f arguments env =
      exprs fuel arguments env >>= fun p =>
        invoke fuel (.embedded arity host) p.1 p.2 >>= fun value => pure (value, p.2) := by
    rw [call, hf]
    subst harity
    simp only [Function.arity, checkArity, if_true]
    rfl
  have hinvoke : Ends (fun fuel => invoke fuel (.embedded arity host) values env₁) trace₁
      (.done (host.reply trace₁ (values.map Native.ofValue)).1.toValue)
      ((host.reply trace₁ (values.map Native.ofValue)).2.reverse ++ trace₁) :=
    Ends.of_succ (y := fun _ => ask host (values.map Native.ofValue) >>= fun answer =>
      pure answer.toValue) ⟨0, fun _ _ => rfl⟩ fun _ => rfl
  have hanswer := hinvoke.bind (f := fun value _ => pure (value, env₁)) (Ends.pure _ _)
  exact (((h.ends (steady_exprs arguments env)).bind hanswer).of_succ hrun).yields (by simp)

end Evaluation

open Evaluation in
/-- A double of the host is cut off exactly or is null. It comes to an integer
just if it is finite and its whole part is in range, and the integer is that
whole part; everything else, also what is only one too large, comes to null. So
does every call of a host function that gives the double. -/
theorem doubles_arrive_exactly (x : Double) :
    (∀ n, x.truncate = some n ↔ ∃ q, x.rational? = some q ∧ towardZero q = n.toInt) ∧
    (x.truncate = none ↔ ∀ q, x.rational? = some q → ¬ InRange (towardZero q)) ∧
    (∀ v, (Native.float x).toValue = v ↔ x.Arrives v) ∧
    ∀ (env : Environment) f arity host arguments values env' trace trace',
      env.functionOf? f = some (.embedded arity host) → arguments.length = arity →
      Yields (exprs · arguments env) trace (.done (values, env')) trace' →
      (host.reply trace' (values.map Native.ofValue)).1 = .float x →
        ∃ v after, x.Arrives v ∧ Yields (call · f arguments env) trace (.done (v, env')) after := by
  have hvalue (v : Value) : (Native.float x).toValue = v ↔ x.Arrives v := (x.arrives_iff v).symm
  refine ⟨fun n => Double.truncate_eq_some_iff, Double.truncate_eq_none_iff, hvalue, ?_⟩
  intro env f arity host arguments values env' trace trace' hf harity harguments hfloat
  have hcall := yields_call_of_embedded hf harity harguments
  rw [hfloat] at hcall
  exact ⟨_, _, (hvalue _).1 rfl, hcall⟩

def Environment.exceeding : Environment :=
  prelude.setFunction "f" (.embedded 1 (Stock.host (.constant (.float .bound)) 1))

open Evaluation in
theorem doubles_arrive_exactly_at_bounds :
    (∃ q, Double.bound.negate.rational? = some q ∧ towardZero q = Int64.minValue.toInt) ∧
    (∀ q, Double.bound.rational? = some q → ¬ InRange (towardZero q)) ∧
    Double.bound.Arrives .null ∧
    ∃ v after, Double.bound.Arrives v ∧
      Yields (call · "f" [.int 1] .exceeding) [] (.done (v, .exceeding)) after := by
  obtain ⟨hleast, _⟩ := doubles_arrive_exactly Double.bound.negate
  obtain ⟨_, hnone, hvalue, hcall⟩ := doubles_arrive_exactly Double.bound
  have hargument : Yields (exprs · [.int 1] .exceeding) [] (.done ([.int 1], .exceeding)) [] :=
    ⟨nofun, 3, rfl⟩
  exact ⟨(hleast _).1 (by decide +kernel), hnone.1 (by decide +kernel),
    (hvalue _).1 (by decide +kernel), hcall _ _ _ _ _ _ _ _ _ rfl rfl hargument rfl⟩

end Script
