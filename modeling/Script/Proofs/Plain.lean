import Mathlib
import Script.Proofs.Ending
import Script.Proofs.RoundTrip

/-!
# Programs with negative literals

No text holds a negative literal, so it is printed as the difference of
literals that have no sign. A program and its plain form, in which the
differences stand for the literals, are printed as the same text. So the text
of a program reads as its plain form.

Both evaluate alike, because a difference that stands for a literal gives that
number and cannot fail. They may leave functions whose bodies differ, but
only in the form of their literals.
-/

set_option autoImplicit false

namespace Script

/-- The literal as it is read back from its print. -/
def plainInt (n : Int64) : Expr :=
  if n = Int64.minValue then
    .binary .subtract (.binary .subtract (.int 0) (.int Int64.maxValue)) (.int 1)
  else if n.toInt < 0 then
    .binary .subtract (.int 0) (.int (-n))
  else
    .int n

theorem toInt_neg_of_neg {n : Int64} (hmin : n ≠ Int64.minValue) (h : n.toInt < 0) :
    (-n).toInt = -n.toInt := by
  have hlow := n.le_toInt
  have hmin : n.toInt ≠ -2 ^ 63 := fun h => hmin (Int64.toInt_inj.1 h)
  rw [Int64.toInt_neg, Int.bmod_eq_of_le] <;> omega

theorem plainInt_cases (n : Int64) :
    (n = Int64.minValue ∧ plainInt n =
      .binary .subtract (.binary .subtract (.int 0) (.int Int64.maxValue)) (.int 1)) ∨
    (∃ m, Unsigned m ∧ m.toInt = -n.toInt ∧ n ≠ Int64.minValue ∧ n.toInt < 0 ∧
      plainInt n = .binary .subtract (.int 0) (.int m)) ∨
    (Unsigned n ∧ plainInt n = .int n) := by
  unfold plainInt
  by_cases hmin : n = Int64.minValue
  · exact .inl ⟨hmin, if_pos hmin⟩
  by_cases hneg : n.toInt < 0
  · have hm := toInt_neg_of_neg hmin hneg
    refine .inr (.inl ⟨-n, ?_, hm, hmin, hneg, ?_⟩)
    · rw [Unsigned, hm]
      omega
    · rw [if_neg hmin, if_pos hneg]
  · refine .inr (.inr ⟨Int.not_lt.1 hneg, ?_⟩)
    rw [if_neg hmin, if_neg hneg]

def Statement.plainAll (ss : List Statement) : List Statement :=
  Statement.mapIntsAll plainInt ss

def Source.plain (source : Source) : Source :=
  ⟨Statement.plainAll source.statements⟩

def Environment.plain (env : Environment) : Environment :=
  env.mapInts plainInt

/-! ### The text -/

section
variable {ok ok' : Int64 → Prop} {put : Int64 → Expr}

mutual

theorem Expr.proper_mapInts (h : ∀ n, ok n → (put n).Proper ok') :
    ∀ e : Expr, e.Proper ok → (e.mapInts put).Proper ok'
  | .int n, he => h n he
  | .bool _, _ => trivial
  | .string _, _ => trivial
  | .null, _ => trivial
  | .variable _, he => he
  | .binary _ left right, he =>
    ⟨left.proper_mapInts h he.1, right.proper_mapInts h he.2⟩
  | .call _ es, he => ⟨he.1, Expr.allProper_mapInts h es he.2⟩

theorem Expr.allProper_mapInts (h : ∀ n, ok n → (put n).Proper ok') :
    ∀ es : List Expr, Expr.AllProper ok es → Expr.AllProper ok' (Expr.mapIntsAll put es)
  | [], _ => trivial
  | e :: es, he => ⟨e.proper_mapInts h he.1, Expr.allProper_mapInts h es he.2⟩

end

mutual

theorem Statement.proper_mapInts (h : ∀ n, ok n → (put n).Proper ok') :
    ∀ s : Statement, s.Proper ok → (s.mapInts put).Proper ok'
  | .expression e, hs => e.proper_mapInts h hs
  | .assign _ value, hs => ⟨hs.1, value.proper_mapInts h hs.2⟩
  | .branch c body none, hs =>
    ⟨c.proper_mapInts h hs.1, Statement.allProper_mapInts h body hs.2⟩
  | .branch c body (some other), hs =>
    ⟨c.proper_mapInts h hs.1, Statement.allProper_mapInts h body hs.2.1,
      Statement.allProper_mapInts h other hs.2.2⟩
  | .loop c body, hs => ⟨c.proper_mapInts h hs.1, Statement.allProper_mapInts h body hs.2⟩

theorem Statement.allProper_mapInts (h : ∀ n, ok n → (put n).Proper ok') :
    ∀ ss : List Statement, Statement.AllProper ok ss →
      Statement.AllProper ok' (Statement.mapIntsAll put ss)
  | [], _ => trivial
  | s :: ss, hs => ⟨s.proper_mapInts h hs.1, Statement.allProper_mapInts h ss hs.2⟩

end

theorem Statement.properAtTop_mapInts (h : ∀ n, ok n → (put n).Proper ok') {s : Statement}
    (hs : s.ProperAtTop ok) : (s.mapInts put).ProperAtTop ok' := by
  cases s with
  | define f params body =>
    exact ⟨hs.1, hs.2.1, Statement.allProper_mapInts h body hs.2.2⟩
  | _ => exact (Statement.proper_mapInts h _ hs).atTop

end

theorem proper_plainInt (n : Int64) : (plainInt n).Proper Unsigned := by
  have hzero : Unsigned 0 := Int.le_refl 0
  have hone : Unsigned 1 := by
    unfold Unsigned
    decide
  have hmax : Unsigned Int64.maxValue := by
    unfold Unsigned
    decide
  obtain ⟨_, h⟩ | ⟨m, hm, _, _, _, h⟩ | ⟨hn, h⟩ := plainInt_cases n
  · rw [h]
    exact ⟨⟨hzero, hmax⟩, hone⟩
  · rw [h]
    exact ⟨hzero, hm⟩
  · rw [h]
    exact hn

theorem wellFormed_plain {s : Source} (h : s.Proper fun _ => True) : s.plain.WellFormed := by
  obtain ⟨ss⟩ := s
  induction ss with
  | nil => exact fun _ hs => nomatch hs
  | cons s ss ih =>
    obtain ⟨hs, hss⟩ := List.forall_mem_cons.1 h
    have hfirst := Statement.properAtTop_mapInts (fun n _ => proper_plainInt n) hs
    exact List.forall_mem_cons.2 ⟨hfirst, ih hss⟩

theorem write_plainInt (n : Int64) (after : List Char) :
    (plainInt n).write after = writeInt n ++ after := by
  have hzero : writeInt 0 = ['0'] := by decide
  have hone : writeInt 1 = ['1'] := by decide
  obtain ⟨rfl, h⟩ | ⟨m, hm, hmn, hmin, hneg, h⟩ | ⟨_, h⟩ := plainInt_cases n
  · have hmax : writeInt Int64.maxValue = Numeral.ofInt Int64.maxValue.toInt := by decide
    rw [h, Expr.write_binary, Expr.write_binary, Expr.write_int, Expr.write_int, Expr.write_int,
      hzero, hone, hmax, writeInt, if_pos rfl]
    simp [Operator.spelling]
  · have hwrite : writeInt m = Numeral.ofNat n.toInt.natAbs := by
      rw [writeInt_of_unsigned hm, hmn, Int.natAbs_neg]
    rw [h, Expr.write_binary, Expr.write_int, Expr.write_int, hzero, hwrite, writeInt,
      if_neg hmin, if_pos hneg]
    simp [Operator.spelling]
  · rw [h, Expr.write_int]

mutual

theorem Expr.write_plain : ∀ (e : Expr) (after : List Char),
    (e.mapInts plainInt).write after = e.write after
  | .int n, after => write_plainInt n after
  | .bool _, _ => rfl
  | .string _, _ => rfl
  | .null, _ => rfl
  | .variable _, _ => rfl
  | .binary op left right, after => by
    rw [Expr.mapInts, Expr.write_binary, Expr.write_binary, left.write_plain,
      right.write_plain]
  | .call f es, after => by
    rw [Expr.mapInts, Expr.write_call, Expr.write_call, Expr.writeAll_plain es]

theorem Expr.writeAll_plain : ∀ (es : List Expr) (after : List Char),
    Expr.writeAll (Expr.mapIntsAll plainInt es) after = Expr.writeAll es after
  | [], _ => rfl
  | [e], after => e.write_plain after
  | e :: e' :: es, after => by
    calc Expr.writeAll (Expr.mapIntsAll plainInt (e :: e' :: es)) after
      _ = (e.mapInts plainInt).write
          (',' :: ' ' :: Expr.writeAll (Expr.mapIntsAll plainInt (e' :: es)) after) := rfl
      _ = e.write (',' :: ' ' :: Expr.writeAll (e' :: es) after) := by
        rw [e.write_plain, Expr.writeAll_plain (e' :: es)]

end

mutual

theorem Statement.write_plain : ∀ (s : Statement) (after : List Char),
    (s.mapInts plainInt).write after = s.write after
  | .expression e, after => by
    rw [Statement.mapInts, write_expression, write_expression, e.write_plain]
  | .assign x value, after => by
    rw [Statement.mapInts, write_assign, write_assign, value.write_plain]
  | .branch c body none, after => by
    rw [Statement.mapInts, write_branch, write_branch, c.write_plain,
      Statement.writeAll_plain body]
  | .branch c body (some other), after => by
    rw [Statement.mapInts, write_branch_otherwise, write_branch_otherwise, c.write_plain,
      Statement.writeAll_plain body, Statement.writeAll_plain other]
  | .loop c body, after => by
    rw [Statement.mapInts, write_loop, write_loop, c.write_plain, Statement.writeAll_plain body]
  | .define f params body, after => by
    rw [Statement.mapInts, write_define, write_define, Statement.writeAll_plain body]

theorem Statement.writeAll_plain : ∀ (ss : List Statement) (after : List Char),
    Statement.writeAll (Statement.mapIntsAll plainInt ss) after = Statement.writeAll ss after
  | [], _ => rfl
  | s :: ss, after => by
    rw [Statement.mapIntsAll, Statement.writeAll, Statement.writeAll, s.write_plain,
      Statement.writeAll_plain ss]

end

theorem writeLines_plain : ∀ (ss : List Statement) (after : List Char),
    writeLines (Statement.plainAll ss) after = writeLines ss after
  | [], _ => rfl
  | [s], after => s.write_plain after
  | s :: s' :: ss, after => by
    calc writeLines (Statement.plainAll (s :: s' :: ss)) after
      _ = (s.mapInts plainInt).write
          ('\n' :: writeLines (Statement.plainAll (s' :: ss)) after) := rfl
      _ = s.write ('\n' :: writeLines (s' :: ss) after) := by
        rw [s.write_plain, writeLines_plain (s' :: ss)]

theorem print_plain (s : Source) : s.plain.print = s.print := by
  rw [Source.print, Source.print, Source.plain, writeLines_plain]

/-- Printed, a program reads back as its plain form. -/
theorem parse_print_plain {s : Source} (h : s.Proper fun _ => True) :
    parse (tokenize s.print) = .ok s.plain := by
  rw [← print_plain]
  exact parse_print (wellFormed_plain h)

/-! ### The plain form of a plain form -/

theorem mapInts_plainInt (n : Int64) : (plainInt n).mapInts plainInt = plainInt n := by
  have hzero : plainInt 0 = .int 0 := by decide
  have hone : plainInt 1 = .int 1 := by decide
  have hmax : plainInt Int64.maxValue = .int Int64.maxValue := by decide
  obtain ⟨rfl, h⟩ | ⟨m, hm, _, _, _, h⟩ | ⟨_, h⟩ := plainInt_cases n
  · rw [h, Expr.mapInts, Expr.mapInts, Expr.mapInts, Expr.mapInts, Expr.mapInts, hzero, hone,
      hmax]
  · have hplain : plainInt m = .int m := by
      have hmin : m ≠ Int64.minValue := by
        rintro rfl
        revert hm
        unfold Unsigned
        decide
      rw [plainInt, if_neg hmin, if_neg (Int.not_lt.2 hm)]
    rw [h, Expr.mapInts, Expr.mapInts, Expr.mapInts, hzero, hplain]
  · rw [h, Expr.mapInts, h]

theorem Statement.plainAll_plainAll (ss : List Statement) :
    plainAll (plainAll ss) = plainAll ss := by
  rw [plainAll, plainAll, Statement.mapIntsAll_mapIntsAll, funext mapInts_plainInt]

/-! ### Evaluation -/

namespace Evaluation

theorem subtract_eq {a b n : Int64} (h : n.toInt = a.toInt - b.toInt) :
    Operator.subtract.apply (.int a) (.int b) = .ok (.int n) := by
  have hfit : Operator.subtract.fitting (a.toInt - b.toInt) = .ok n := by
    rw [Operator.fitting, ← h, word?_toInt]
  rw [Operator.apply, Operator.level]
  dsimp only
  rw [Operator.arithmetic, Operator.compute, hfit]
  rfl

theorem expr_subtract {fuel : Nat} {left right : Expr} {a b n : Int64} {env : Environment}
    (hl : expr fuel left env = pure (.int a, env)) (hr : expr fuel right env = pure (.int b, env))
    (h : n.toInt = a.toInt - b.toInt) :
    expr (fuel + 1) (.binary .subtract left right) env = pure (.int n, env) := by
  rw [expr, hl, pure_bind]
  dsimp only
  rw [hr, pure_bind]
  dsimp only
  rw [subtract_eq h]
  rfl

theorem expr_plainInt (fuel : Nat) (n : Int64) (env : Environment) :
    expr (fuel + 3) (plainInt n) env = pure (.int n, env) := by
  obtain ⟨rfl, h⟩ | ⟨m, _, hmn, _, _, h⟩ | ⟨_, h⟩ := plainInt_cases n
  · have hinner : expr (fuel + 2) (.binary .subtract (.int 0) (.int Int64.maxValue)) env =
        pure (.int (-Int64.maxValue), env) := expr_subtract rfl rfl (by decide)
    rw [h]
    exact expr_subtract hinner rfl (by decide)
  · rw [h]
    refine expr_subtract rfl rfl ?_
    rw [hmn]
    exact (Int.zero_sub _).symm ▸ (Int.neg_neg _).symm
  · rw [h]
    rfl

theorem alike_plainInt : Alike 2 .int plainInt := by
  intro fuel n env env'
  cases fuel with
  | zero => exact .exhausted _
  | succ fuel =>
    have hfuel : 2 + (fuel + 1) = fuel + 3 := by omega
    rw [hfuel, expr_plainInt]
    exact .pure ⟨rfl, rfl⟩

theorem alike_plainInt_int : Alike 0 plainInt .int := by
  intro fuel n env env'
  cases fuel with
  | zero => exact .exhausted _
  | succ fuel =>
    have hagain := expr_again 3 (fuel + 1) (plainInt n) env
    rw [Nat.add_comm 3, expr_plainInt] at hagain
    rw [Nat.zero_add]
    exact hagain.of_pure (Value.int n, env')

variable {ss ss' : List Statement} {value v : Value} {env env₁ env₂ : Environment}
  {trace trace₁ : Trace} {e : EvalError}

theorem statements_plain (fuel : Nat) (value : Value) (ss : List Statement) (env : Environment) :
    Refines (fun p q => p.1 = q.1 ∧ q.2 = p.2.plain) (statements fuel value ss env)
      (statements (2 + fuel) value (Statement.plainAll ss) env.plain) := by
  have h := statements_refines alike_plainInt fuel value ss env
  rw [Statement.mapIntsAll_int, Environment.mapInts_int] at h
  refine h.mono ?_
  rintro ⟨v, _⟩ ⟨_, _⟩ ⟨rfl, env₁, rfl, rfl⟩
  rw [Environment.mapInts_int]
  exact ⟨rfl, rfl⟩

theorem plain_statements (fuel : Nat) (value : Value) (ss : List Statement) (env : Environment) :
    Refines (fun p q => p.1 = q.1 ∧ p.2 = q.2.plain)
      (statements fuel value (Statement.plainAll ss) env.plain)
      (statements (0 + fuel) value ss env) := by
  have h := statements_refines alike_plainInt_int fuel value ss env
  rw [Statement.mapIntsAll_int, Environment.mapInts_int] at h
  refine h.mono ?_
  rintro ⟨v, _⟩ ⟨_, _⟩ ⟨rfl, env₁, rfl, rfl⟩
  rw [Environment.mapInts_int]
  exact ⟨rfl, rfl⟩

-- Neither program is run in the environment of the other: both are compared
-- with their plain form, run where functions are in plain form as well.

theorem yields_done_of_plain (hss : Statement.plainAll ss = Statement.plainAll ss')
    (h : Yields (statements · value ss env) trace (.done (v, env₁)) trace₁) :
    ∃ env₂, Yields (statements · value ss' env) trace (.done (v, env₂)) trace₁ ∧
      env₁.plain = env₂.plain := by
  obtain ⟨⟨_, _⟩, hplain, rfl, rfl⟩ := h.done_of_refines
    (statements · value (Statement.plainAll ss) env.plain) 2
    fun fuel => statements_plain fuel value ss env
  rw [hss] at hplain
  obtain ⟨⟨_, env₂⟩, h', rfl, henv⟩ := hplain.done_of_refines (statements · value ss' env) 0
    fun fuel => plain_statements fuel value ss' env
  exact ⟨env₂, h', henv⟩

theorem yields_failed_of_plain (hss : Statement.plainAll ss = Statement.plainAll ss')
    (h : Yields (statements · value ss env) trace (.failed e) trace₁) :
    Yields (statements · value ss' env) trace (.failed e) trace₁ := by
  have hplain := h.failed_of_refines (statements · value (Statement.plainAll ss) env.plain) 2
    fun fuel => statements_plain fuel value ss env
  rw [hss] at hplain
  exact hplain.failed_of_refines (statements · value ss' env) 0
    fun fuel => plain_statements fuel value ss' env

end Evaluation

/-! ### Printing keeps the meaning -/

/-- Functions that are the same, but for literals put as differences. -/
inductive Function.Matches : Function → Function → Prop where
  | defined (params : List String) {body body' : List Statement}
      (h : Statement.plainAll body = Statement.plainAll body') :
      Matches (.defined params body) (.defined params body')
  | embedded (arity : Nat) (host : Host) :
      Matches (.embedded arity host) (.embedded arity host)

def Environment.Matches (env env' : Environment) : Prop :=
  env.vars = env'.vars ∧
    ∀ f, Option.Rel Function.Matches (env.functionOf? f) (env'.functionOf? f)

theorem Function.matches_of_mapInts {g g' : Function}
    (h : g.mapInts plainInt = g'.mapInts plainInt) : Function.Matches g g' := by
  cases g with
  | defined params body =>
    cases g' with
    | defined params' body' =>
      obtain ⟨rfl, hbody⟩ := Function.defined.inj h
      exact .defined params hbody
    | embedded arity host => cases h
  | embedded arity host =>
    cases g' with
    | defined params body => cases h
    | embedded arity' host' =>
      cases h
      exact .embedded arity host

theorem Environment.matches_of_plain {env env' : Environment} (h : env.plain = env'.plain) :
    env.Matches env' := by
  have hvars : env.plain.vars = env'.plain.vars := congrArg Environment.vars h
  refine ⟨hvars, fun f => ?_⟩
  have hf := congrArg (Environment.functionOf? · f) h
  simp only [plain, functionOf?_mapInts] at hf
  cases hg : env.functionOf? f with
  | none =>
    cases hg' : env'.functionOf? f with
    | none => exact .none
    | some g' =>
      rw [hg, hg'] at hf
      cases hf
  | some g =>
    cases hg' : env'.functionOf? f with
    | none =>
      rw [hg, hg'] at hf
      cases hf
    | some g' =>
      rw [hg, hg'] at hf
      exact .some (Function.matches_of_mapInts (Option.some.inj hf))

open Evaluation in
/-- Whatever its literals, a program whose names are names and which defines
functions only at its top reads back from its print as a program of the same
meaning. From any environment both end with the same value or the same error
after the same has been observed, or neither ends. A host function may record
its arguments, so both call the same with the same. Their variables are the
same in the end, and their functions match. -/
theorem print_keeps_meaning {s : Source} (h : s.Proper fun _ => True) :
    ∃ s', parse (tokenize s.print) = .ok s' ∧ ∀ (env : Environment) (trace trace₁ : Trace),
      (∀ v env₁, Yields (Node.evaluate · (.source s) env) trace (.done (v, env₁)) trace₁ →
        ∃ env₂, Yields (Node.evaluate · (.source s') env) trace (.done (v, env₂)) trace₁ ∧
          env₁.Matches env₂) ∧
      (∀ v env₂, Yields (Node.evaluate · (.source s') env) trace (.done (v, env₂)) trace₁ →
        ∃ env₁, Yields (Node.evaluate · (.source s) env) trace (.done (v, env₁)) trace₁ ∧
          env₁.Matches env₂) ∧
      ∀ e, Yields (Node.evaluate · (.source s) env) trace (.failed e) trace₁ ↔
        Yields (Node.evaluate · (.source s') env) trace (.failed e) trace₁ := by
  have hplain : Statement.plainAll s.statements = Statement.plainAll s.plain.statements :=
    (Statement.plainAll_plainAll s.statements).symm
  refine ⟨s.plain, parse_print_plain h, fun env trace trace₁ => ⟨?_, ?_, fun e => ⟨?_, ?_⟩⟩⟩
  · intro v env₁ hv
    obtain ⟨env₂, hv', henv⟩ := yields_done_of_plain hplain hv
    exact ⟨env₂, hv', Environment.matches_of_plain henv⟩
  · intro v env₂ hv
    obtain ⟨env₁, hv', henv⟩ := yields_done_of_plain hplain.symm hv
    exact ⟨env₁, hv', Environment.matches_of_plain henv.symm⟩
  · intro he
    exact yields_failed_of_plain hplain he
  · intro he
    exact yields_failed_of_plain hplain.symm he

open Evaluation in
theorem print_keeps_overflow :
    ∃ s', parse (tokenize (Source.mk [
        .define "f" ["x"] [.expression (.binary .add (.variable "x") (.int (-1)))],
        .expression (.call "f" [.int Int64.minValue])]).print) = .ok s' ∧
      Yields (Node.evaluate · (.source s') .empty) [] (.failed (.overflow .add)) [] := by
  have hf : IsName "f" := ⟨⟨'f', [], rfl, rfl, nofun⟩, by decide⟩
  have hx : IsName "x" := ⟨⟨'x', [], rfl, rfl, nofun⟩, by decide⟩
  have hproper : Source.Proper (fun _ => True) (Source.mk [
      .define "f" ["x"] [.expression (.binary .add (.variable "x") (.int (-1)))],
      .expression (.call "f" [.int Int64.minValue])]) := by
    simp [Source.Proper, Statement.ProperAtTop, Statement.AllProper, Statement.Proper,
      Expr.Proper, Expr.AllProper, hf, hx]
  obtain ⟨s', hs', h⟩ := print_keeps_meaning hproper
  refine ⟨s', hs', ((h .empty [] []).2.2 (.overflow .add)).1 ⟨nofun, 10, ?_⟩⟩
  cbv

end Script
