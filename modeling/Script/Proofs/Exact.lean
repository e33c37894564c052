import Mathlib
import Script.Operation

/-!
# Exact arithmetic

What the operators would give if integers had no bounds. An operator of the
language gives the same if that is a value of the language, and otherwise has a
fault to report: no result is ever wrapped or rounded.
-/

set_option autoImplicit false

namespace Script

/-! ### Unbounded integers -/

namespace Exact

inductive Value where
  | int (n : Int)
  | bool (b : Bool)
  | string (text : String)
  | null
  deriving DecidableEq

def InRange (n : Int) : Prop :=
  -2 ^ 63 ≤ n ∧ n ≤ 2 ^ 63 - 1

instance (n : Int) : Decidable (InRange n) :=
  inferInstanceAs (Decidable (_ ∧ _))

def ofValue : Script.Value → Value
  | .int n => .int n.toInt
  | .bool b => .bool b
  | .string text => .string text
  | .null => .null

/-- What an operator gives without bounds, if it takes such operands. Division
drops the fraction. -/
def apply : Operator → Value → Value → Option Value
  | .add, .int m, .int n => some (.int (m + n))
  | .add, .string s, .string t => some (.string (s ++ t))
  | .subtract, .int m, .int n => some (.int (m - n))
  | .multiply, .int m, .int n => some (.int (m * n))
  | .divide, .int m, .int n => if n = 0 then none else some (.int (m.tdiv n))
  | .equal, a, b => some (.bool (decide (a = b)))
  | .notEqual, a, b => some (.bool (decide (a ≠ b)))
  | .less, .int m, .int n => some (.bool (decide (m < n)))
  | .lessEqual, .int m, .int n => some (.bool (decide (m ≤ n)))
  | .greater, .int m, .int n => some (.bool (decide (m > n)))
  | .greaterEqual, .int m, .int n => some (.bool (decide (m ≥ n)))
  | _, _, _ => none

theorem inRange_toInt (w : Int64) : InRange w.toInt := by
  have := w.le_toInt
  have := w.toInt_lt
  unfold InRange
  omega

theorem exists_word {n : Int} (h : InRange n) : ∃ w : Int64, w.toInt = n := by
  obtain ⟨hlow, hhigh⟩ := h
  exact ⟨Int64.ofInt n, Int64.toInt_ofInt_of_le (by omega) (by omega)⟩

theorem ofValue_injective {v w : Script.Value} (h : ofValue v = ofValue w) : v = w := by
  cases v <;> cases w <;> simp_all [ofValue, Int64.toInt_inj]

theorem decide_ofValue_eq (v w : Script.Value) : decide (ofValue v = ofValue w) = (v == w) := by
  rw [Bool.eq_iff_iff, decide_eq_true_iff, beq_iff_eq]
  exact ⟨ofValue_injective, congrArg ofValue⟩

theorem inRange_of_ofValue {v : Script.Value} {n : Int} (h : ofValue v = .int n) : InRange n := by
  cases v <;> cases h
  exact inRange_toInt _

theorem operands_of_apply {op : Operator} {a b c : Value} :
    apply op a b = some c → op = .equal ∨ op = .notEqual ∨ (∃ m n, a = .int m ∧ b = .int n) ∨
      (op = .add ∧ ∃ s t, a = .string s ∧ b = .string t) := by
  fun_cases apply op a b with
  | case2 s t => exact fun _ => .inr (.inr (.inr ⟨rfl, s, t, rfl, rfl⟩))
  | case7 => exact fun _ => .inl rfl
  | case8 => exact fun _ => .inr (.inl rfl)
  | case13 => nofun
  | _ => exact fun _ => .inr (.inr (.inl ⟨_, _, rfl, rfl⟩))

theorem exists_ofValue {x : Value} (h : ∀ n, x = .int n → InRange n) : ∃ v, ofValue v = x := by
  cases x with
  | int n =>
    obtain ⟨w, rfl⟩ := exists_word (h n rfl)
    exact ⟨.int w, rfl⟩
  | bool b => exact ⟨.bool b, rfl⟩
  | string text => exact ⟨.string text, rfl⟩
  | null => exact ⟨.null, rfl⟩

theorem natAbs_eq_one_of_large {m n : Int} (hm : m.natAbs ≤ 2 ^ 63)
    (h : 2 ^ 63 ≤ (m.tdiv n).natAbs) : n.natAbs = 1 := by
  have hdiv : 2 ^ 63 ≤ m.natAbs / n.natAbs := by
    rw [Int.natAbs_tdiv] at h
    exact h
  rcases Nat.lt_trichotomy n.natAbs 1 with hn | hn | hn
  · obtain hn : n.natAbs = 0 := by omega
    rw [hn, Nat.div_zero] at hdiv
    omega
  · exact hn
  · have hhalf : m.natAbs / n.natAbs ≤ m.natAbs / 2 := Nat.div_le_div_left hn Nat.two_pos
    omega

theorem not_inRange_tdiv_iff (m n : Int64) :
    ¬ InRange (m.toInt.tdiv n.toInt) ↔ m = Int64.minValue ∧ n = -1 := by
  have hlow := m.le_toInt
  have hhigh := m.toInt_lt
  constructor
  · intro h
    have hn : n.toInt.natAbs = 1 := by
      apply natAbs_eq_one_of_large (m := m.toInt)
      · omega
      · unfold InRange at h
        omega
    rcases Int.natAbs_eq_iff.1 hn with hn | hn
    · rw [hn, Int.natCast_one, Int.tdiv_one] at h
      exact absurd (inRange_toInt m) h
    · rw [hn, Int.natCast_one, Int.tdiv_neg, Int.tdiv_one, InRange] at h
      have hmin : Int64.minValue.toInt = -2 ^ 63 := by decide
      have hm : m.toInt = Int64.minValue.toInt := by omega
      exact ⟨Int64.toInt_inj.1 hm, Int64.toInt_inj.1 hn⟩
  · rintro ⟨rfl, rfl⟩
    decide

end Exact

/-! ### Kinds -/

namespace Value

/-- The kind that a value is of. -/
inductive OfKind : Value → Kind → Prop where
  | int (n : Int64) : OfKind (.int n) .int
  | bool (b : Bool) : OfKind (.bool b) .bool
  | string (text : String) : OfKind (.string text) .string
  | null : OfKind .null .null

theorem ofKind_kind (v : Value) : v.OfKind v.kind := by
  cases v <;> constructor

theorem OfKind.unique {v : Value} {k l : Kind} (hk : v.OfKind k) (hl : v.OfKind l) : k = l := by
  cases hk <;> cases hl <;> rfl

end Value

/-! ### Operators -/

namespace Operator
open Exact (InRange ofValue)

/-- Why an operator gives nothing for two values. -/
inductive Fault (op : Operator) : Value → Value → EvalError → Prop where
  | zeroDivisor {m : Int64} : op = .divide → Fault op (.int m) (.int 0) .divisionByZero
  | outOfRange {m n : Int64} {k : Int} :
      Exact.apply op (.int m.toInt) (.int n.toInt) = some (.int k) → ¬ InRange k →
        Fault op (.int m) (.int n) (.overflow op)
  | mismatch {a b : Value} {k l : Kind} : (∀ m n, a = .int m → b ≠ .int n) →
      a.OfKind k → b.OfKind l → Fault op a b (.typeMismatch op k l)

variable {op : Operator} {a b : Value}

theorem fitting_cases (op : Operator) (n : Int) :
    (∃ w, op.fitting n = .ok w ∧ n = w.toInt) ∨
      (op.fitting n = .error (.overflow op) ∧ ¬ InRange n) := by
  unfold fitting
  cases h : word? n with
  | some w => exact .inl ⟨w, rfl, (word?_eq_some_iff.1 h).symm⟩
  | none =>
    refine .inr ⟨rfl, fun hn => ?_⟩
    obtain ⟨w, rfl⟩ := Exact.exists_word hn
    rw [word?_toInt] at h
    cases h

/-- An operator gives its exact value, or there is a fault and no exact value
that is one of the language. -/
def Sound (op : Operator) (a b : Value) : Prop :=
  (∃ v, op.apply a b = .ok v ∧ Exact.apply op (ofValue a) (ofValue b) = some (ofValue v)) ∨
    ∃ x, op.apply a b = .error x ∧ op.Fault a b x ∧
      ∀ v, Exact.apply op (ofValue a) (ofValue b) ≠ some (ofValue v)

theorem sound_of_fitting {m n : Int64} {k : Int}
    (hk : op.apply (.int m) (.int n) = (op.fitting k).map Value.int)
    (hexact : Exact.apply op (.int m.toInt) (.int n.toInt) = some (.int k)) :
    op.Sound (.int m) (.int n) := by
  unfold Sound
  rw [hk]
  rcases fitting_cases op k with ⟨w, hw, rfl⟩ | ⟨hw, hrange⟩
  · rw [hw]
    exact .inl ⟨.int w, rfl, hexact⟩
  · rw [hw]
    refine .inr ⟨_, rfl, .outOfRange hexact hrange, fun v hv => hrange ?_⟩
    exact Exact.inRange_of_ofValue (Option.some.inj (hv.symm.trans hexact))

theorem sound_divide (m n : Int64) : divide.Sound (.int m) (.int n) := by
  by_cases hn : n.toInt = 0
  · obtain rfl : n = 0 := Int64.toInt_inj.1 hn
    exact .inr ⟨_, rfl, .zeroDivisor rfl, fun v => by simp [Exact.apply, ofValue]⟩
  · apply sound_of_fitting
    · show (divide.compute m n).map Value.int = _
      rw [compute, if_neg hn]
    · rw [Exact.apply, if_neg hn]

theorem sound_equal (a b : Value) : equal.Sound a b := by
  refine .inl ⟨.bool (a == b), rfl, ?_⟩
  rw [Exact.apply, Exact.decide_ofValue_eq]
  rfl

theorem sound_notEqual (a b : Value) : notEqual.Sound a b := by
  refine .inl ⟨.bool (a != b), rfl, ?_⟩
  rw [Exact.apply, decide_not, Exact.decide_ofValue_eq]
  rfl

theorem sound_ints (op : Operator) (m n : Int64) : op.Sound (.int m) (.int n) := by
  cases op with
  | add => exact sound_of_fitting rfl rfl
  | subtract => exact sound_of_fitting rfl rfl
  | multiply => exact sound_of_fitting rfl rfl
  | divide => exact sound_divide m n
  | equal => exact sound_equal _ _
  | notEqual => exact sound_notEqual _ _
  | _ => exact .inl ⟨_, rfl, rfl⟩

structure Refuses (op : Operator) (a b : Value) : Prop where
  equal : op ≠ .equal
  notEqual : op ≠ .notEqual
  ints : ∀ m n, a = .int m → b ≠ .int n
  strings : op = .add → ∀ s t, a = .string s → b ≠ .string t

theorem Refuses.apply_eq (h : op.Refuses a b) : op.apply a b = .error (op.mismatch a b) := by
  unfold apply
  split
  · unfold comparison
    split
    · exact absurd rfl h.equal
    · exact absurd rfl h.notEqual
    · split
      · exact absurd rfl (h.ints _ _ rfl)
      · rfl
  · unfold arithmetic
    split
    · exact absurd rfl (h.ints _ _ rfl)
    · rw [if_neg fun hadd => h.strings hadd _ _ rfl rfl]
    · rfl

theorem Refuses.exact_ne (h : op.Refuses a b) (v : Value) :
    Exact.apply op (ofValue a) (ofValue b) ≠ some (ofValue v) := by
  intro hv
  rcases Exact.operands_of_apply hv with he | hn | ⟨m, n, ha, hb⟩ | ⟨hadd, s, t, ha, hb⟩
  · exact h.equal he
  · exact h.notEqual hn
  · cases a <;> cases ha
    cases b <;> cases hb
    exact h.ints _ _ rfl rfl
  · cases a <;> cases ha
    cases b <;> cases hb
    exact h.strings hadd _ _ rfl rfl

theorem sound (op : Operator) (a b : Value) : op.Sound a b := by
  by_cases he : op = .equal
  · subst he
    exact sound_equal a b
  by_cases hn : op = .notEqual
  · subst hn
    exact sound_notEqual a b
  by_cases hints : ∃ m n, a = .int m ∧ b = .int n
  · obtain ⟨m, n, rfl, rfl⟩ := hints
    exact sound_ints op m n
  by_cases hstrings : op = .add ∧ ∃ s t, a = .string s ∧ b = .string t
  · obtain ⟨rfl, s, t, rfl, rfl⟩ := hstrings
    exact .inl ⟨.string (s ++ t), rfl, rfl⟩
  · have h : op.Refuses a b := {
      equal := he
      notEqual := hn
      ints := fun m n ha hb => hints ⟨m, n, ha, hb⟩
      strings := fun hadd s t ha hb => hstrings ⟨hadd, s, t, ha, hb⟩ }
    exact .inr ⟨_, h.apply_eq, .mismatch h.ints a.ofKind_kind b.ofKind_kind, h.exact_ne⟩

theorem fault_of_apply (op : Operator) {x : EvalError} (h : op.apply a b = .error x) :
    op.Fault a b x := by
  rcases op.sound a b with ⟨v, hv, _⟩ | ⟨y, hy, hfault, _⟩
  · cases h.symm.trans hv
  · cases h.symm.trans hy
    exact hfault

theorem Fault.unique {x y : EvalError} (hx : op.Fault a b x) (hy : op.Fault a b y) : x = y := by
  cases hx with
  | zeroDivisor hop =>
    subst hop
    cases hy with
    | zeroDivisor => rfl
    | outOfRange hexact => simp [Exact.apply] at hexact
    | mismatch hints => exact absurd rfl (hints _ _ rfl)
  | outOfRange hexact =>
    cases hy with
    | zeroDivisor hop =>
      subst hop
      simp [Exact.apply] at hexact
    | outOfRange => rfl
    | mismatch hints => exact absurd rfl (hints _ _ rfl)
  | mismatch hints hk hl =>
    cases hy with
    | zeroDivisor => exact absurd rfl (hints _ _ rfl)
    | outOfRange => exact absurd rfl (hints _ _ rfl)
    | mismatch _ hk' hl' => rw [hk.unique hk', hl.unique hl']

end Operator

end Script
