import Script.Proofs.Joining

/-!
# Errors in contexts

A context is a tree with a hole in a place that is evaluated. Evaluation comes
to the hole if all that is evaluated before it succeeds. An expression that
fails there fails the whole tree with the error it has, and nothing that would
come after the hole is evaluated: no later operand or argument, no call that
waits for its arguments and no operator that waits for its operands.
-/

set_option autoImplicit false

namespace Script
open Evaluation

/-! ### Trees with a hole -/

inductive ExprContext where
  | hole
  | left (op : Operator) (inner : ExprContext) (other : Expr)
  | right (op : Operator) (other : Expr) (inner : ExprContext)
  | argument (name : String) (earlier : List Expr) (inner : ExprContext) (later : List Expr)

mutual

/-- A statement with a hole in it. Of a loop the hole is in the first test or
in the first round. -/
inductive StatementContext where
  | expression (inner : ExprContext)
  | assign (name : String) (inner : ExprContext)
  | condition (inner : ExprContext) (body : List Statement) (otherwise : Option (List Statement))
  | body (condition : Expr) (inner : BlockContext) (otherwise : Option (List Statement))
  | otherwise (condition : Expr) (body : List Statement) (inner : BlockContext)
  | test (inner : ExprContext) (body : List Statement)
  | round (condition : Expr) (inner : BlockContext)

inductive BlockContext where
  | mk (earlier : List Statement) (inner : StatementContext) (later : List Statement)

end

inductive Context where
  | expr (inner : ExprContext)
  | statement (inner : StatementContext)
  | block (inner : BlockContext)

def ExprContext.fill (e : Expr) : ExprContext → Expr
  | .hole => e
  | .left op inner other => .binary op (inner.fill e) other
  | .right op other inner => .binary op other (inner.fill e)
  | .argument name earlier inner later => .call name (earlier ++ inner.fill e :: later)

mutual

def StatementContext.fill (e : Expr) : StatementContext → Statement
  | .expression inner => .expression (inner.fill e)
  | .assign name inner => .assign name (inner.fill e)
  | .condition inner body otherwise => .branch (inner.fill e) body otherwise
  | .body condition inner otherwise => .branch condition (inner.fill e) otherwise
  | .otherwise condition body inner => .branch condition body (some (inner.fill e))
  | .test inner body => .loop (inner.fill e) body
  | .round condition inner => .loop condition (inner.fill e)

def BlockContext.fill (e : Expr) : BlockContext → List Statement
  | .mk earlier inner later => earlier ++ inner.fill e :: later

end

def Context.fill (e : Expr) : Context → Node
  | .expr inner => .expr (inner.fill e)
  | .statement inner => .statement (inner.fill e)
  | .block inner => .block (inner.fill e)

/-! ### Coming to the hole

What is evaluated before the hole succeeds. What stands after it plays no part,
but that the arguments of a call are counted. -/

/-- From an environment, after some events, the hole is reached in another one,
after more events. -/
abbrev Approach : Type :=
  Environment → Trace → Environment → Trace → Prop

def Passes {α : Type} (x : Nat → Evaluation (α × Environment)) (P : α → Prop)
    (next : Approach) (trace : Trace) (env' : Environment) (trace' : Trace) : Prop :=
  ∃ a env₁ trace₁, Yields x trace (.done (a, env₁)) trace₁ ∧ P a ∧ next env₁ trace₁ env' trace'

def Environment.Takes (env : Environment) (name : String) (count : Nat) : Prop :=
  ∃ function, env.functionOf? name = some function ∧ function.arity = count

/-- A left operand comes first, and a right one after it. The function of a
call is looked up and its arguments are counted before any of them comes. -/
def ExprContext.Reaches : ExprContext → Approach
  | .hole => fun env trace env' trace' => env' = env ∧ trace' = trace
  | .left _ inner _ => inner.Reaches
  | .right _ other inner => fun env => Passes (expr · other env) (fun _ => True) inner.Reaches
  | .argument name earlier inner later => fun env trace env' trace' =>
    env.Takes name (earlier.length + 1 + later.length) ∧
      Passes (exprs · earlier env) (fun _ => True) inner.Reaches trace env' trace'

mutual

/-- A branch is taken and a round is begun as the condition says. -/
def StatementContext.Reaches : StatementContext → Approach
  | .expression inner => inner.Reaches
  | .assign _ inner => inner.Reaches
  | .condition inner _ _ => inner.Reaches
  | .body condition inner _ => fun env =>
    Passes (expr · condition env) (·.isTruthy = true) inner.Reaches
  | .otherwise condition _ inner => fun env =>
    Passes (expr · condition env) (·.isTruthy = false) inner.Reaches
  | .test inner _ => inner.Reaches
  | .round condition inner => fun env =>
    Passes (expr · condition env) (·.isTruthy = true) inner.Reaches

def BlockContext.Reaches : BlockContext → Approach
  | .mk earlier inner _ => fun env =>
    Passes (statements · .null earlier env) (fun _ => True) inner.Reaches

end

def Context.Reaches : Context → Approach
  | .expr inner => inner.Reaches
  | .statement inner => inner.Reaches
  | .block inner => inner.Reaches

/-! ### Failing in the hole -/

section
variable {env env₁ env' : Environment} {trace trace₁ trace₂ trace' failed : Trace} {e : Expr}
  {x : EvalError}

theorem ends_exprs_of_failed {earlier : List Expr} {values : List Value}
    (h : Yields (exprs · earlier env) trace (.done (values, env₁)) trace₁)
    (he : Ends (expr · e env₁) trace₁ (.failed x) trace₂) (later : List Expr) :
    Ends (exprs · (earlier ++ e :: later) env) trace (.failed x) trace₂ := by
  induction earlier generalizing env values trace with
  | nil =>
    obtain ⟨_, fuel, hr⟩ := h
    cases fuel <;> cases hr
    exact he.bind_of_failed.of_succ fun _ => rfl
  | cons d ds ih =>
    obtain ⟨_, fuel, hr⟩ := h
    cases fuel with
    | zero => cases hr
    | succ fuel =>
      obtain ⟨⟨v, env₂⟩, trace', hd, hr⟩ | ⟨_, ⟨⟩, _⟩ := bind_cases hr nofun
      obtain ⟨⟨vs, env₃⟩, trace'', hds, hr⟩ | ⟨_, ⟨⟩, _⟩ := bind_cases hr nofun
      cases hr
      have hfirst : Ends (expr · d env) trace (.done (v, env₂)) trace' :=
        Yields.ends (steady_expr d env) ⟨nofun, fuel, hd⟩
      have hrest : Ends (exprs · (ds ++ e :: later) env₂) trace' (.failed x) trace₂ :=
        ih ⟨nofun, fuel, hds⟩
      exact (hfirst.bind hrest.bind_of_failed).of_succ fun _ => rfl

theorem ends_call_of_failed {f : String} {arguments : List Expr}
    (hf : env.Takes f arguments.length)
    (h : Ends (exprs · arguments env) trace (.failed x) trace₁) :
    Ends (call · f arguments env) trace (.failed x) trace₁ := by
  obtain ⟨function, hf, harity⟩ := hf
  have hrun (fuel : Nat) : call (fuel + 1) f arguments env =
      exprs fuel arguments env >>= fun p =>
        invoke fuel function p.1 p.2 >>= fun value => pure (value, p.2) := by
    rw [call, hf]
    simp only [checkArity, if_pos harity]
    rfl
  exact h.bind_of_failed.of_succ hrun

theorem ends_statements_of_failed {earlier : List Statement} {v : Value} {s : Statement}
    (h : Yields (statements · .null earlier env) trace (.done (v, env₁)) trace₁)
    (hs : Ends (statement · s env₁) trace₁ (.failed x) trace₂) (later : List Statement) :
    Ends (statements · .null (earlier ++ s :: later) env) trace (.failed x) trace₂ := by
  have hlater : Ends (statements · v (s :: later) env₁) trace₁ (.failed x) trace₂ :=
    hs.bind_of_failed.of_succ fun _ => rfl
  have hall := (yields_statements_append h).2 (hlater.yields nofun)
  exact hall.ends (steady_statements _ _ _)

/-! The induction is on the nesting of the context. -/

theorem ExprContext.ends (he : Yields (expr · e env') trace' (.failed x) failed) :
    ∀ (C : ExprContext) (env : Environment) (trace : Trace), C.Reaches env trace env' trace' →
      Ends (expr · (C.fill e) env) trace (.failed x) failed
  | .hole, _, _, ⟨rfl, rfl⟩ => he.ends (steady_expr e _)
  | .left _ inner _, env, trace, h => by
    have hinner := ExprContext.ends he inner env trace h
    exact hinner.bind_of_failed.of_succ fun _ => rfl
  | .right _ other inner, env, trace, ⟨_, env₁, trace₁, hother, _, h⟩ => by
    have hother := hother.ends (steady_expr other env)
    have hinner := ExprContext.ends he inner env₁ trace₁ h
    exact (hother.bind hinner.bind_of_failed).of_succ fun _ => rfl
  | .argument name earlier inner later, env, trace, ⟨hname, _, env₁, trace₁, hearlier, _, h⟩ => by
    have harguments := ends_exprs_of_failed hearlier (ExprContext.ends he inner env₁ trace₁ h) later
    have hlength :
        (earlier ++ inner.fill e :: later).length = earlier.length + 1 + later.length := by
      simp only [List.length_append, List.length_cons]
      omega
    exact (ends_call_of_failed (hlength ▸ hname) harguments).of_succ fun _ => rfl

mutual

theorem StatementContext.ends (he : Yields (expr · e env') trace' (.failed x) failed) :
    ∀ (C : StatementContext) (env : Environment) (trace : Trace),
      C.Reaches env trace env' trace' → Ends (statement · (C.fill e) env) trace (.failed x) failed
  | .expression inner, env, trace, h =>
    (ExprContext.ends he inner env trace h).of_succ fun _ => rfl
  | .assign _ inner, env, trace, h => by
    have hinner := ExprContext.ends he inner env trace h
    exact hinner.bind_of_failed.of_succ fun _ => rfl
  | .condition inner _ _, env, trace, h => by
    have hinner := ExprContext.ends he inner env trace h
    exact hinner.bind_of_failed.of_succ fun _ => rfl
  | .body condition inner _, env, trace, ⟨_, env₁, trace₁, hcondition, htest, h⟩ => by
    have hcondition := hcondition.ends (steady_expr condition env)
    have hinner := BlockContext.ends he inner env₁ trace₁ h
    exact (hcondition.bind (hinner.ite_pos htest)).of_succ fun _ => rfl
  | .otherwise condition _ inner, env, trace, ⟨_, env₁, trace₁, hcondition, htest, h⟩ => by
    have hcondition := hcondition.ends (steady_expr condition env)
    have hinner := BlockContext.ends he inner env₁ trace₁ h
    have hnot := Bool.eq_false_iff.1 htest
    exact (hcondition.bind (hinner.ite_neg hnot)).of_succ fun _ => rfl
  | .test inner body, env, trace, h => by
    have hinner := ExprContext.ends he inner env trace h
    have hloop : Ends (loop · .null (inner.fill e) body env) trace _ _ :=
      hinner.bind_of_failed.of_succ fun _ => rfl
    exact hloop.of_succ fun _ => rfl
  | .round condition inner, env, trace, ⟨_, env₁, trace₁, hcondition, htest, h⟩ => by
    have hcondition := hcondition.ends (steady_expr condition env)
    have hinner := BlockContext.ends he inner env₁ trace₁ h
    have hloop : Ends (loop · .null condition (inner.fill e) env) trace _ _ :=
      (hcondition.bind (hinner.bind_of_failed.ite_pos htest)).of_succ fun _ => rfl
    exact hloop.of_succ fun _ => rfl

theorem BlockContext.ends (he : Yields (expr · e env') trace' (.failed x) failed) :
    ∀ (C : BlockContext) (env : Environment) (trace : Trace), C.Reaches env trace env' trace' →
      Ends (statements · .null (C.fill e) env) trace (.failed x) failed
  | .mk _ inner later, _, _, ⟨_, env₁, trace₁, hearlier, _, h⟩ =>
    ends_statements_of_failed hearlier (StatementContext.ends he inner env₁ trace₁ h) later

end

theorem Context.ends (he : Yields (Evaluation.expr · e env') trace' (.failed x) failed)
    (C : Context) (h : C.Reaches env trace env' trace') :
    Ends (Node.evaluate · (C.fill e) env) trace (.failed x) failed := by
  cases C with
  | expr inner => exact inner.ends he env trace h
  | statement inner => exact inner.ends he env trace h
  | block inner => exact inner.ends he env trace h

end

/-- Errors come out unchanged. If evaluation of a tree comes to its hole and the
expression in the hole fails there, then the tree fails with that very error and
in no other way, whatever stands after the hole and around it. What has been
observed is what was observed before the hole and then what was in it. -/
theorem errors_come_out_unchanged {C : Context} {env env' : Environment}
    {base before inside : Trace} {e : Expr} {x : EvalError}
    (hC : C.Reaches env base env' (before ++ base))
    (he : Yields (expr · e env') (before ++ base) (.failed x) (inside ++ (before ++ base))) :
    (∀ outcome trace, Yields (Node.evaluate · (C.fill e) env) base outcome trace ↔
      outcome = .failed x ∧ trace = (inside ++ before) ++ base) ∧
    Trace.output (inside ++ before) = Trace.output before ++ Trace.output inside := by
  rw [← List.append_assoc] at he
  have hfails := (C.ends he hC).yields nofun
  refine ⟨fun outcome trace => ⟨fun h => ?_, ?_⟩, Trace.output_append before inside⟩
  · exact h.unique (steady_evaluate (C.fill e) env) hfails
  · rintro ⟨rfl, rfl⟩
    exact hfails

def Environment.choosing : Environment :=
  prelude.setFunction "g" (.defined ["a", "b", "c"] [.expression (.variable "b")])

def Context.crowded : Context :=
  .block (.mk [.assign "x" (.int 1), .expression (.call "print" [.variable "x"])]
    (.test (.right .add (.call "print" [.int 2])
      (.argument "g" [.variable "x"] .hole [.call "print" [.int 3]])) [.assign "x" .null])
    [.expression (.call "print" [.int 4])])

def Expr.failing : Expr :=
  .binary .divide (.call "print" [.int 5]) (.int 0)

theorem errors_come_out_unchanged_of_crowded :
    Context.crowded.Reaches .choosing [] (Environment.choosing.setVariable "x" (.int 1))
        [.printed "2\n", .printed "1\n"] ∧
      Yields (expr · .failing (Environment.choosing.setVariable "x" (.int 1)))
        [.printed "2\n", .printed "1\n"] (.failed (.typeMismatch .divide .null .int))
        [.printed "5\n", .printed "2\n", .printed "1\n"] ∧
      Yields (Node.evaluate · (Context.crowded.fill .failing) .choosing) []
        (.failed (.typeMismatch .divide .null .int))
        [.printed "5\n", .printed "2\n", .printed "1\n"] := by
  have hC : Context.crowded.Reaches .choosing [] (Environment.choosing.setVariable "x" (.int 1))
      ([.printed "2\n", .printed "1\n"] ++ []) := by
    refine ⟨.null, _, [.printed "1\n"], ⟨nofun, 20, rfl⟩, trivial, ?_⟩
    refine ⟨.null, _, _, ⟨nofun, 20, rfl⟩, trivial, ⟨_, rfl, rfl⟩, ?_⟩
    exact ⟨[.int 1], _, _, ⟨nofun, 20, rfl⟩, trivial, rfl, rfl⟩
  have he : Yields (expr · .failing (Environment.choosing.setVariable "x" (.int 1)))
      ([.printed "2\n", .printed "1\n"] ++ []) (.failed (.typeMismatch .divide .null .int))
      ([.printed "5\n"] ++ ([.printed "2\n", .printed "1\n"] ++ [])) := ⟨nofun, 20, rfl⟩
  exact ⟨hC, he, ((errors_come_out_unchanged hC he).1 _ _).2 ⟨rfl, rfl⟩⟩

end Script
