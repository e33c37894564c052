import Script.Proofs.Ending
import Script.Proofs.Keeping

/-!
# Expressions only read

The evaluator hands an environment from each operand and argument to the next
one. None of them needs it: an expression can be evaluated with every part of
it under the one environment it is given, so that only values are passed on.
Both evaluations are the same run. What a function binds stays in its frame,
so a function that is found before the arguments are evaluated is also the one
that is bound after them.
-/

set_option autoImplicit false

namespace Script.Evaluation

mutual

/-- The value of an expression, every part of it under one environment. -/
def valueOf : Nat → Expr → Environment → Evaluation Value
  | 0, _, _ => exhausted
  | fuel + 1, e, env =>
    match e with
    | .int n => pure (.int n)
    | .bool b => pure (.bool b)
    | .string text => pure (.string text)
    | .null => pure .null
    | .variable name => pure ((env.valueOf? name).getD .null)
    | .binary op left right => do
      let a ← valueOf fuel left env
      let b ← valueOf fuel right env
      ofExcept (op.apply a b)
    | .call name arguments => valueOfCall fuel name arguments env

def valueOfCall : Nat → String → List Expr → Environment → Evaluation Value
  | 0, _, _, _ => exhausted
  | fuel + 1, name, arguments, env =>
    match env.functionOf? name with
    | none => fail (.undefinedFunction name)
    | some function => do
      ofExcept (checkArity name function.arity arguments.length)
      let values ← valuesOf fuel arguments env
      invoke fuel function values env

def valuesOf : Nat → List Expr → Environment → Evaluation (List Value)
  | 0, _, _ => exhausted
  | _ + 1, [], _ => pure []
  | fuel + 1, e :: es, env => do
    let value ← valueOf fuel e env
    let values ← valuesOf fuel es env
    pure (value :: values)

end

/-! ### Both evaluations are one -/

mutual

theorem expr_eq_valueOf : ∀ (fuel : Nat) (e : Expr) (env : Environment),
    expr fuel e env = valueOf fuel e env >>= fun value => pure (value, env)
  | 0, _, _ => rfl
  | _ + 1, .int _, _ => rfl
  | _ + 1, .bool _, _ => rfl
  | _ + 1, .string _, _ => rfl
  | _ + 1, .null, _ => rfl
  | _ + 1, .variable _, _ => rfl
  | fuel + 1, .binary op left right, env => by
    rw [expr, valueOf, expr_eq_valueOf fuel left env]
    simp only [bind_assoc, pure_bind, expr_eq_valueOf fuel right env]
  | fuel + 1, .call f arguments, env => call_eq_valueOfCall fuel f arguments env

theorem call_eq_valueOfCall : ∀ (fuel : Nat) (f : String) (arguments : List Expr)
    (env : Environment),
    call fuel f arguments env =
      valueOfCall fuel f arguments env >>= fun value => pure (value, env)
  | 0, _, _, _ => rfl
  | fuel + 1, f, arguments, env => by
    rw [call, valueOfCall]
    cases env.functionOf? f with
    | none => rfl
    | some function =>
      dsimp only
      rw [exprs_eq_valuesOf fuel arguments env]
      simp only [bind_assoc, pure_bind]

theorem exprs_eq_valuesOf : ∀ (fuel : Nat) (es : List Expr) (env : Environment),
    exprs fuel es env = valuesOf fuel es env >>= fun values => pure (values, env)
  | 0, _, _ => rfl
  | _ + 1, [], _ => rfl
  | fuel + 1, e :: es, env => by
    rw [exprs, valuesOf, expr_eq_valueOf fuel e env]
    simp only [bind_assoc, pure_bind, exprs_eq_valuesOf fuel es env]

end

/-- A call that looks its function up again after the arguments, under the
environment that they leave. -/
def callLate (fuel : Nat) (name : String) (arguments : List Expr) (env : Environment) :
    Evaluation (Value × Environment) :=
  match env.functionOf? name with
  | none => fail (.undefinedFunction name)
  | some function => do
    ofExcept (checkArity name function.arity arguments.length)
    let (values, env) ← exprs fuel arguments env
    match env.functionOf? name with
    | none => fail (.undefinedFunction name)
    | some function => do
      let value ← invoke fuel function values env
      pure (value, env)

theorem call_eq_callLate (fuel : Nat) (f : String) (arguments : List Expr) (env : Environment) :
    call (fuel + 1) f arguments env = callLate fuel f arguments env := by
  rw [call, callLate]
  cases hf : env.functionOf? f with
  | none => rfl
  | some function =>
    dsimp only
    rw [exprs_eq_valuesOf fuel arguments env]
    simp only [bind_assoc, pure_bind, hf]

/-- Expressions only read. Whatever functions do that are called on the way,
an expression or a call that gives a value leaves the environment that it was
given. The run is the same if every operand and every argument is evaluated
under that environment. Arguments leave every function bound as it was, so a
call may as well look its function up after them. -/
theorem expressions_only_read (env : Environment) :
    (∀ e v env' trace trace', Yields (expr · e env) trace (.done (v, env')) trace' → env' = env) ∧
    (∀ f arguments v env' trace trace',
      Yields (call · f arguments env) trace (.done (v, env')) trace' → env' = env) ∧
    (∀ fuel e, expr fuel e env = valueOf fuel e env >>= fun value => pure (value, env)) ∧
    (∀ fuel f arguments, call fuel f arguments env =
      valueOfCall fuel f arguments env >>= fun value => pure (value, env)) ∧
    (∀ arguments values env' trace trace',
      Yields (exprs · arguments env) trace (.done (values, env')) trace' →
        ∀ f, env'.functionOf? f = env.functionOf? f) ∧
    ∀ fuel f arguments, call (fuel + 1) f arguments env = callLate fuel f arguments env := by
  refine ⟨?_, ?_, fun fuel e => expr_eq_valueOf fuel e env,
    fun fuel f arguments => call_eq_valueOfCall fuel f arguments env, ?_,
    fun fuel f arguments => call_eq_callLate fuel f arguments env⟩
  · rintro e v env' trace trace' ⟨_, fuel, hrun⟩
    exact (expr_keeps fuel e env).result hrun
  · rintro f arguments v env' trace trace' ⟨_, fuel, hrun⟩
    exact (call_keeps fuel f arguments env).result hrun
  · rintro arguments values env' trace trace' ⟨_, fuel, hrun⟩ f
    have henv : env' = env := (exprs_keeps fuel arguments env).result hrun
    rw [henv]

end Script.Evaluation

namespace Script

def Environment.usurping : Environment :=
  ((prelude.setFunction "f" (.defined ["x"]
    [.assign "y" (.int 8), .define "f" [] [], .define "g" [] [], .define "print" [] [],
      .expression (.binary .add (.variable "x") (.variable "y"))])).setFunction "g"
    (.defined ["x"] [.define "g" ["x"] [], .assign "x" (.call "f" [.variable "x"]),
      .expression (.call "print" [.variable "x"]), .expression (.variable "x")])).setVariable
    "y" (.int 1)

def Expr.entangled : Expr :=
  .binary .add (.call "g" [.call "g" [.variable "y"]]) (.variable "y")

open Evaluation in
theorem expressions_only_read_around_usurpers :
    (∃ env', Yields (expr · .entangled .usurping) [] (.done (.int 18, env'))
        [.printed "17\n", .printed "9\n"] ∧ env' = .usurping) ∧
      (∃ env', Yields (call · "g" [.call "g" [.variable "y"]] .usurping) []
        (.done (.int 17, env')) [.printed "17\n", .printed "9\n"] ∧ env' = .usurping) ∧
      ∃ env', Yields (exprs · [.call "g" [.variable "y"]] .usurping) []
        (.done ([.int 9], env')) [.printed "9\n"] ∧
          env'.functionOf? "g" = Environment.usurping.functionOf? "g" := by
  obtain ⟨hexpr, hcall, _, _, harguments, _⟩ := expressions_only_read .usurping
  have he : Yields (expr · .entangled .usurping) [] (.done (.int 18, .usurping))
      [.printed "17\n", .printed "9\n"] := ⟨nofun, 40, rfl⟩
  have hc : Yields (call · "g" [.call "g" [.variable "y"]] .usurping) []
      (.done (.int 17, .usurping)) [.printed "17\n", .printed "9\n"] := ⟨nofun, 40, rfl⟩
  have ha : Yields (exprs · [.call "g" [.variable "y"]] .usurping) []
      (.done ([.int 9], .usurping)) [.printed "9\n"] := ⟨nofun, 40, rfl⟩
  exact ⟨⟨_, he, hexpr _ _ _ _ _ he⟩, ⟨_, hc, hcall _ _ _ _ _ _ hc⟩,
    _, ha, harguments _ _ _ _ _ ha "g"⟩

end Script
