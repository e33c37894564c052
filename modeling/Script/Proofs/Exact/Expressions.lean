import Script.Proofs.Ending
import Script.Proofs.Exact
import Script.Proofs.Names

/-!
# Exact expressions

What an expression without calls would give if integers had no bounds. The
evaluator gives the same as long as every integer on the way is one of the
language, and otherwise fails. The parts of an expression are evaluated
operands first and from left to right, so the error is that of the first part
whose operands have values but which has none itself.
-/

set_option autoImplicit false

namespace Script

def Exact.eval (env : Environment) : Expr → Option Value
  | .int n => some (.int n.toInt)
  | .bool b => some (.bool b)
  | .string text => some (.string text)
  | .null => some .null
  | .variable x => some (ofValue ((env.valueOf? x).getD .null))
  | .binary op left right => do
    let a ← eval env left
    let b ← eval env right
    apply op a b
  | .call _ _ => none

/-! ### Parts of an expression -/

mutual

/-- The parts of an expression, from left to right and operands before what
they are operands of. -/
def Expr.parts : Expr → List Expr
  | .int n => [.int n]
  | .bool b => [.bool b]
  | .string text => [.string text]
  | .null => [.null]
  | .variable x => [.variable x]
  | .binary op left right => left.parts ++ right.parts ++ [.binary op left right]
  | .call f arguments => Expr.partsAll arguments ++ [.call f arguments]

def Expr.partsAll : List Expr → List Expr
  | [] => []
  | e :: es => e.parts ++ Expr.partsAll es

end

namespace Expr
open Evaluation

def compute (env : Environment) : Expr → Except EvalError Value
  | .int n => .ok (.int n)
  | .bool b => .ok (.bool b)
  | .string text => .ok (.string text)
  | .null => .ok .null
  | .variable x => .ok ((env.valueOf? x).getD .null)
  | .binary op left right => do
    let a ← left.compute env
    let b ← right.compute env
    op.apply a b
  | .call f _ => .error (.undefinedFunction f)

def Gives (e : Expr) (env : Environment) (v : Value) : Prop :=
  ∃ env' trace, Yields (expr · e env) [] (.done (v, env')) trace

theorem Gives.unique {e : Expr} {env : Environment} {v w : Value} (hv : e.Gives env v)
    (hw : e.Gives env w) : v = w := by
  obtain ⟨_, _, hv⟩ := hv
  obtain ⟨_, _, hw⟩ := hw
  cases (Yields.unique (steady_expr e env) hv hw).1
  rfl

/-- Both operands have values, but the operation has none. -/
def Stuck (env : Environment) : Expr → Prop
  | .binary op left right =>
    (∃ a, left.Gives env a) ∧ (∃ b, right.Gives env b) ∧ ∀ v, ¬ (binary op left right).Gives env v
  | _ => False

/-- No part before this one is stuck. -/
def StuckFirst (env : Environment) (e p : Expr) : Prop :=
  ∃ earlier later, e.parts = earlier ++ p :: later ∧ p.Stuck env ∧ ∀ q ∈ earlier, ¬ q.Stuck env

variable {env : Environment} {e : Expr}

theorem compute_binary_eq_ok_iff {op : Operator} {left right : Expr} {v : Value} :
    (binary op left right).compute env = .ok v ↔
      ∃ a b, left.compute env = .ok a ∧ right.compute env = .ok b ∧ op.apply a b = .ok v := by
  rw [compute]
  cases left.compute env <;> cases right.compute env <;> simp [bind, Except.bind]

theorem compute_binary_eq_error_iff {op : Operator} {left right : Expr} {x : EvalError} :
    (binary op left right).compute env = .error x ↔
      left.compute env = .error x ∨ ∃ a, left.compute env = .ok a ∧
        (right.compute env = .error x ∨ ∃ b, right.compute env = .ok b ∧
          op.apply a b = .error x) := by
  rw [compute]
  cases left.compute env <;> cases right.compute env <;> simp [bind, Except.bind]

theorem mem_parts_self (e : Expr) : e ∈ e.parts := by
  cases e <;> simp [parts]

theorem called_binary {op : Operator} {left right : Expr}
    (h : (binary op left right).called = []) : left.called = [] ∧ right.called = [] :=
  List.append_eq_nil_iff.1 h

theorem called_of_mem_parts : ∀ e : Expr, e.called = [] → ∀ p ∈ e.parts, p.called = []
  | .int _, _ => by simp [parts, called]
  | .bool _, _ => by simp [parts, called]
  | .string _, _ => by simp [parts, called]
  | .null, _ => by simp [parts, called]
  | .variable _, _ => by simp [parts, called]
  | .binary op left right, h => by
    obtain ⟨hleft, hright⟩ := called_binary h
    intro p hp
    simp only [parts, List.mem_append, List.mem_singleton] at hp
    rcases hp with (hp | hp) | rfl
    · exact called_of_mem_parts left hleft p hp
    · exact called_of_mem_parts right hright p hp
    · exact h
  | .call _ _, h => by simp [called] at h

/-! ### The run of an expression without calls -/

theorem ofExcept_bind {α β : Type} (x : Except EvalError α) (f : α → Except EvalError β) :
    ofExcept (x >>= f) = ofExcept x >>= fun a => ofExcept (f a) := by
  cases x <;> rfl

theorem eventually_of_succ {y : Evaluation (Value × Environment)}
    (h : ∀ fuel, expr (fuel + 1) e env = y) : ∃ least, ∀ fuel, least ≤ fuel → expr fuel e env = y := by
  refine ⟨1, fun fuel hfuel => ?_⟩
  obtain ⟨fuel, rfl⟩ := Nat.exists_eq_add_of_le' hfuel
  exact h fuel

theorem expr_eq_compute : ∀ e : Expr, e.called = [] → ∃ least, ∀ fuel, least ≤ fuel →
    expr fuel e env = ofExcept (e.compute env) >>= fun v => pure (v, env)
  | .int _, _ => eventually_of_succ fun _ => rfl
  | .bool _, _ => eventually_of_succ fun _ => rfl
  | .string _, _ => eventually_of_succ fun _ => rfl
  | .null, _ => eventually_of_succ fun _ => rfl
  | .variable _, _ => eventually_of_succ fun _ => rfl
  | .binary op left right, h => by
    obtain ⟨hleft, hright⟩ := called_binary h
    obtain ⟨m, hm⟩ := expr_eq_compute left hleft
    obtain ⟨n, hn⟩ := expr_eq_compute right hright
    refine ⟨max m n + 1, fun fuel hfuel => ?_⟩
    obtain ⟨fuel, rfl⟩ := Nat.exists_eq_add_of_le' (Nat.le_trans (Nat.le_add_left 1 _) hfuel)
    rw [expr, hm fuel (by omega), compute]
    simp only [bind_assoc, pure_bind, ofExcept_bind, hn fuel (by omega)]
  | .call _ _, h => by simp [called] at h

def outcome (env : Environment) (e : Expr) : Outcome EvalError (Value × Environment) :=
  match e.compute env with
  | .ok v => .done (v, env)
  | .error x => .failed x

theorem outcome_eq_done_iff {v : Value} {env' : Environment} :
    .done (v, env') = e.outcome env ↔ e.compute env = .ok v ∧ env' = env := by
  unfold outcome
  cases e.compute env with
  | ok w => simp [eq_comm]
  | error x => simp

theorem outcome_eq_failed_iff {x : EvalError} :
    .failed x = e.outcome env ↔ e.compute env = .error x := by
  unfold outcome
  cases e.compute env with
  | ok w => simp
  | error y => simp [eq_comm]

theorem yields_iff (h : e.called = []) {trace trace' : Trace}
    {outcome : Outcome EvalError (Value × Environment)} :
    Yields (expr · e env) trace outcome trace' ↔ outcome = e.outcome env ∧ trace' = trace := by
  obtain ⟨least, hleast⟩ := @expr_eq_compute env e h
  have hrun : Yields (expr · e env) trace (e.outcome env) trace := by
    unfold Expr.outcome
    refine ⟨?_, least, ?_⟩
    · cases e.compute env <;> nofun
    · show expr least e env trace = _
      rw [hleast least (Nat.le_refl least)]
      cases e.compute env <;> rfl
  constructor
  · exact fun hyields => Yields.unique (steady_expr e env) hyields hrun
  · rintro ⟨rfl, rfl⟩
    exact hrun

theorem gives_iff (h : e.called = []) {v : Value} :
    e.Gives env v ↔ e.compute env = .ok v := by
  constructor
  · rintro ⟨env', trace, hrun⟩
    exact (outcome_eq_done_iff.1 ((yields_iff h).1 hrun).1).1
  · intro hv
    exact ⟨env, [], (yields_iff h).2 ⟨outcome_eq_done_iff.2 ⟨hv, rfl⟩, rfl⟩⟩

/-! ### Values and exact values -/

theorem compute_of_mem_parts : ∀ e : Expr, ∀ v, e.compute env = .ok v →
    ∀ p ∈ e.parts, ∃ w, p.compute env = .ok w
  | .int _, v, hv => by simpa [parts] using ⟨v, hv⟩
  | .bool _, v, hv => by simpa [parts] using ⟨v, hv⟩
  | .string _, v, hv => by simpa [parts] using ⟨v, hv⟩
  | .null, v, hv => by simpa [parts] using ⟨v, hv⟩
  | .variable _, v, hv => by simpa [parts] using ⟨v, hv⟩
  | .binary op left right, v, hv => by
    obtain ⟨a, b, ha, hb, _⟩ := compute_binary_eq_ok_iff.1 hv
    intro p hp
    simp only [parts, List.mem_append, List.mem_singleton] at hp
    rcases hp with (hp | hp) | rfl
    · exact compute_of_mem_parts left a ha p hp
    · exact compute_of_mem_parts right b hb p hp
    · exact ⟨v, hv⟩
  | .call _ _, _, hv => by cases hv

theorem eval_of_compute : ∀ e : Expr, ∀ v, e.compute env = .ok v →
    Exact.eval env e = some (Exact.ofValue v)
  | .int _, _, rfl => rfl
  | .bool _, _, rfl => rfl
  | .string _, _, rfl => rfl
  | .null, _, rfl => rfl
  | .variable _, _, rfl => rfl
  | .binary op left right, v, hv => by
    obtain ⟨a, b, ha, hb, hab⟩ := compute_binary_eq_ok_iff.1 hv
    rw [Exact.eval, eval_of_compute left a ha, eval_of_compute right b hb]
    rcases op.sound a b with ⟨w, hw, hexact⟩ | ⟨x, hx, _⟩
    · cases hab.symm.trans hw
      exact hexact
    · cases hab.symm.trans hx
  | .call _ _, _, hv => by cases hv

theorem ok_of_ofValue (w v : Value) (h : some (Exact.ofValue w) = some (Exact.ofValue v)) :
    (.ok w : Except EvalError Value) = .ok v :=
  congrArg _ (Exact.ofValue_injective (Option.some.inj h))

theorem compute_of_eval : ∀ e : Expr, ∀ v, Exact.eval env e = some (Exact.ofValue v) →
    (∀ p ∈ e.parts, ∀ n, Exact.eval env p = some (.int n) → Exact.InRange n) →
      e.compute env = .ok v
  | .int n, v, hv, _ => ok_of_ofValue (.int n) v hv
  | .bool b, v, hv, _ => ok_of_ofValue (.bool b) v hv
  | .string text, v, hv, _ => ok_of_ofValue (.string text) v hv
  | .null, v, hv, _ => ok_of_ofValue .null v hv
  | .variable x, v, hv, _ => ok_of_ofValue ((env.valueOf? x).getD .null) v hv
  | .binary op left right, v, hv, hrange => by
    rw [parts] at hrange
    have hleft : ∀ p ∈ left.parts, ∀ n, Exact.eval env p = some (.int n) → Exact.InRange n :=
      fun p hp => hrange p (List.mem_append_left _ (List.mem_append_left _ hp))
    have hright : ∀ p ∈ right.parts, ∀ n, Exact.eval env p = some (.int n) → Exact.InRange n :=
      fun p hp => hrange p (List.mem_append_left _ (List.mem_append_right _ hp))
    obtain ⟨x, hx, hv⟩ := Option.bind_eq_some_iff.1 hv
    obtain ⟨y, hy, hv⟩ := Option.bind_eq_some_iff.1 hv
    -- the operands are values of the language, since they are parts as well
    obtain ⟨a, rfl⟩ := Exact.exists_ofValue (x := x) fun n hn =>
      hleft left (mem_parts_self left) n (hn ▸ hx)
    obtain ⟨b, rfl⟩ := Exact.exists_ofValue (x := y) fun n hn =>
      hright right (mem_parts_self right) n (hn ▸ hy)
    refine compute_binary_eq_ok_iff.2
      ⟨a, b, compute_of_eval left a hx hleft, compute_of_eval right b hy hright, ?_⟩
    rcases op.sound a b with ⟨w, hw, hexact⟩ | ⟨_, _, _, hnone⟩
    · rw [hw, Exact.ofValue_injective (Option.some.inj (hexact.symm.trans hv))]
    · exact absurd hv (hnone v)
  | .call _ _, _, hv, _ => by cases hv

theorem compute_eq_ok_iff {v : Value} :
    e.compute env = .ok v ↔ Exact.eval env e = some (Exact.ofValue v) ∧
      ∀ p ∈ e.parts, ∀ n, Exact.eval env p = some (.int n) → Exact.InRange n := by
  constructor
  · intro hv
    refine ⟨eval_of_compute e v hv, fun p hp n hn => ?_⟩
    obtain ⟨w, hw⟩ := compute_of_mem_parts e v hv p hp
    exact Exact.inRange_of_ofValue (Option.some.inj ((eval_of_compute p w hw).symm.trans hn))
  · rintro ⟨hv, hrange⟩
    exact compute_of_eval e v hv hrange

/-! ### The first part that is stuck -/

theorem stuck_binary_iff {op : Operator} {left right : Expr}
    (h : (binary op left right).called = []) :
    (binary op left right).Stuck env ↔
      ∃ a b x, left.compute env = .ok a ∧ right.compute env = .ok b ∧ op.apply a b = .error x := by
  obtain ⟨hleft, hright⟩ := called_binary h
  simp only [Stuck, gives_iff hleft, gives_iff hright, gives_iff h]
  constructor
  · rintro ⟨⟨a, ha⟩, ⟨b, hb⟩, hnone⟩
    cases hab : op.apply a b with
    | ok v => exact absurd (compute_binary_eq_ok_iff.2 ⟨a, b, ha, hb, hab⟩) (hnone v)
    | error x => exact ⟨a, b, x, ha, hb, hab⟩
  · rintro ⟨a, b, x, ha, hb, hab⟩
    refine ⟨⟨a, ha⟩, ⟨b, hb⟩, fun v hv => ?_⟩
    rw [compute_binary_eq_error_iff.2 (.inr ⟨a, ha, .inr ⟨b, hb, hab⟩⟩)] at hv
    cases hv

theorem not_stuck_of_compute (h : e.called = []) {v : Value} (hv : e.compute env = .ok v) :
    ∀ p ∈ e.parts, ¬ p.Stuck env := by
  intro p hp hstuck
  have hcalled := called_of_mem_parts e h p hp
  obtain ⟨w, hw⟩ := compute_of_mem_parts e v hv p hp
  cases p with
  | binary op left right => exact hstuck.2.2 w ((gives_iff hcalled).2 hw)
  | _ => exact hstuck

theorem StuckFirst.after {p left : Expr} (hp : left.StuckFirst env p)
    {before rest : List Expr} (hparts : e.parts = before ++ left.parts ++ rest)
    (hbefore : ∀ q ∈ before, ¬ q.Stuck env) : e.StuckFirst env p := by
  obtain ⟨earlier, later, hleft, hstuck, hearlier⟩ := hp
  refine ⟨before ++ earlier, later ++ rest, ?_, hstuck, fun q hq => ?_⟩
  · rw [hparts, hleft]
    simp only [List.append_assoc, List.cons_append]
  · exact (List.mem_append.1 hq).elim (hbefore q) (hearlier q)

/-- The error of an expression comes from the first part that is stuck. -/
theorem exists_stuckFirst : ∀ e : Expr, e.called = [] → ∀ x, e.compute env = .error x →
    ∃ op left right a b, e.StuckFirst env (binary op left right) ∧
      left.Gives env a ∧ right.Gives env b ∧ op.apply a b = .error x
  | .int _, _, _, hx => by cases hx
  | .bool _, _, _, hx => by cases hx
  | .string _, _, _, hx => by cases hx
  | .null, _, _, hx => by cases hx
  | .variable _, _, _, hx => by cases hx
  | .binary op left right, h, x, hx => by
    obtain ⟨hleft, hright⟩ := called_binary h
    rcases compute_binary_eq_error_iff.1 hx with hx | ⟨a, ha, hx | ⟨b, hb, hx⟩⟩
    · have hparts : (binary op left right).parts =
          [] ++ left.parts ++ (right.parts ++ [binary op left right]) :=
        List.append_assoc _ _ _
      obtain ⟨op', left', right', a, b, hfirst, hgives⟩ := exists_stuckFirst left hleft x hx
      exact ⟨op', left', right', a, b, hfirst.after hparts nofun, hgives⟩
    · obtain ⟨op', left', right', a, b, hfirst, hgives⟩ := exists_stuckFirst right hright x hx
      exact ⟨op', left', right', a, b, hfirst.after rfl (not_stuck_of_compute hleft ha), hgives⟩
    · refine ⟨op, left, right, a, b, ⟨left.parts ++ right.parts, [], rfl, ?_, fun q hq => ?_⟩,
        (gives_iff hleft).2 ha, (gives_iff hright).2 hb, hx⟩
      · exact (stuck_binary_iff h).2 ⟨a, b, x, ha, hb, hx⟩
      · exact (List.mem_append.1 hq).elim (not_stuck_of_compute hleft ha q)
          (not_stuck_of_compute hright hb q)
  | .call _ _, h, _, _ => by simp [called] at h

open Classical in
theorem StuckFirst.find?_eq {p : Expr} (hp : e.StuckFirst env p) :
    e.parts.find? (fun q => q.Stuck env) = some p := by
  obtain ⟨earlier, later, hparts, hstuck, hearlier⟩ := hp
  simp only [List.find?_eq_some_iff_append, decide_eq_true hstuck, hparts, true_and]
  exact ⟨earlier, later, rfl, fun q hq => by simpa using hearlier q hq⟩

theorem StuckFirst.unique {p q : Expr} (hp : e.StuckFirst env p) (hq : e.StuckFirst env q) :
    p = q :=
  Option.some.inj (hp.find?_eq.symm.trans hq.find?_eq)

theorem StuckFirst.exists_error {p : Expr} (hp : e.StuckFirst env p) (h : e.called = []) :
    ∃ x, e.compute env = .error x := by
  obtain ⟨earlier, later, hparts, hstuck, _⟩ := hp
  cases hv : e.compute env with
  | ok v =>
    have hmem : p ∈ e.parts := hparts ▸ List.mem_append_right _ List.mem_cons_self
    exact absurd hstuck (not_stuck_of_compute h hv p hmem)
  | error x => exact ⟨x, rfl⟩

def FirstFault (env : Environment) (e : Expr) (x : EvalError) : Prop :=
  ∃ op left right a b, e.StuckFirst env (binary op left right) ∧
    left.Gives env a ∧ right.Gives env b ∧ op.Fault a b x

theorem compute_eq_error_iff (h : e.called = []) {x : EvalError} :
    e.compute env = .error x ↔ e.FirstFault env x := by
  constructor
  · intro hx
    obtain ⟨op, left, right, a, b, hfirst, ha, hb, hab⟩ := exists_stuckFirst e h x hx
    exact ⟨op, left, right, a, b, hfirst, ha, hb, op.fault_of_apply hab⟩
  · rintro ⟨op, left, right, a, b, hfirst, ha, hb, hx⟩
    -- the part that makes the error is the one that is stuck first
    obtain ⟨y, hy⟩ := hfirst.exists_error h
    obtain ⟨op', left', right', a', b', hfirst', ha', hb', hab⟩ := exists_stuckFirst e h y hy
    cases hfirst.unique hfirst'
    cases ha.unique ha'
    cases hb.unique hb'
    rw [hy, hx.unique (op.fault_of_apply hab)]

end Expr

open Evaluation in
/-- Arithmetic is exact. An expression without calls gives its value over
unbounded integers, if it has one and the integers of all its parts are in
range, and leaves the environment. Otherwise it fails with the fault of the
part that is stuck first. A quotient is out of range only if the lowest number
is divided by minus one. -/
theorem arithmetic_is_exact {e : Expr} (he : e.called = []) (env : Environment) (trace : Trace) :
    (∀ v env' trace', Yields (expr · e env) trace (.done (v, env')) trace' ↔
      (Exact.eval env e = some (Exact.ofValue v) ∧
        ∀ p ∈ e.parts, ∀ n, Exact.eval env p = some (.int n) → Exact.InRange n) ∧
          env' = env ∧ trace' = trace) ∧
    (∀ x trace', Yields (expr · e env) trace (.failed x) trace' ↔
      e.FirstFault env x ∧ trace' = trace) ∧
    (∃ outcome trace', Yields (expr · e env) trace outcome trace') ∧
    ∀ m n : Int64, ¬ Exact.InRange (m.toInt.tdiv n.toInt) ↔ m = Int64.minValue ∧ n = -1 := by
  refine ⟨fun v env' trace' => ?_, fun x trace' => ?_, ?_, Exact.not_inRange_tdiv_iff⟩
  · rw [Expr.yields_iff he, Expr.outcome_eq_done_iff, Expr.compute_eq_ok_iff]
    exact and_assoc
  · rw [Expr.yields_iff he, Expr.outcome_eq_failed_iff, Expr.compute_eq_error_iff he]
  · exact ⟨e.outcome env, trace, (Expr.yields_iff he).2 ⟨rfl, rfl⟩⟩

def Expr.lowest : Expr :=
  .binary .subtract (.binary .subtract (.int 0) (.int Int64.maxValue)) (.int 1)

def Expr.twiceWrong : Expr :=
  .binary .add (.binary .divide (.int 5) (.binary .subtract (.int 1) (.int 1)))
    (.binary .add (.int Int64.maxValue) (.int 1))

def Expr.mixed : Expr :=
  .binary .add (.int 1) (.bool true)

open Evaluation in
theorem arithmetic_is_exact_at_bounds :
    Expr.lowest.called = [] ∧ Expr.twiceWrong.called = [] ∧ Expr.mixed.called = [] ∧
      Yields (expr · .lowest .empty) [] (.done (.int Int64.minValue, .empty)) [] ∧
      Yields (expr · .twiceWrong .empty) [] (.failed .divisionByZero) [] ∧
      Yields (expr · .mixed .empty) [] (.failed (.typeMismatch .add .int .bool)) [] := by
  refine ⟨rfl, rfl, rfl, ?_, ?_, ?_⟩
  · refine ((arithmetic_is_exact rfl .empty []).1 _ _ _).2 ⟨⟨rfl, fun p hp n hn => ?_⟩, rfl, rfl⟩
    simp only [Expr.lowest, Expr.parts, List.cons_append, List.nil_append, List.mem_cons,
      List.not_mem_nil, or_false] at hp
    rcases hp with rfl | rfl | rfl | rfl | rfl
    all_goals cases hn; decide
  · refine ((arithmetic_is_exact rfl .empty []).2.1 _ _).2 ⟨?_, rfl⟩
    have hfirst : Expr.twiceWrong.StuckFirst .empty
        (.binary .divide (.int 5) (.binary .subtract (.int 1) (.int 1))) := by
      refine ⟨[.int 5, .int 1, .int 1, .binary .subtract (.int 1) (.int 1)], _, rfl, ?_, ?_⟩
      · exact (Expr.stuck_binary_iff rfl).2 ⟨.int 5, .int 0, .divisionByZero, rfl, rfl, rfl⟩
      · have hdifference : ¬ (Expr.binary .subtract (.int 1) (.int 1)).Stuck .empty :=
          Expr.not_stuck_of_compute rfl rfl _ (Expr.mem_parts_self _)
        simpa [Expr.Stuck] using hdifference
    exact ⟨_, _, _, _, _, hfirst, (Expr.gives_iff rfl).2 rfl, (Expr.gives_iff rfl).2 rfl,
      .zeroDivisor rfl⟩
  · refine ((arithmetic_is_exact rfl .empty []).2.1 _ _).2 ⟨?_, rfl⟩
    have hfirst : Expr.mixed.StuckFirst .empty Expr.mixed := by
      refine ⟨[.int 1, .bool true], [], rfl, ?_, by simp [Expr.Stuck]⟩
      exact (Expr.stuck_binary_iff rfl).2 ⟨.int 1, .bool true, _, rfl, rfl, rfl⟩
    exact ⟨_, _, _, _, _, hfirst, (Expr.gives_iff rfl).2 rfl, (Expr.gives_iff rfl).2 rfl,
      .mismatch (by simp) (.int 1) (.bool true)⟩

end Script
