import Script.Environment
import Script.Operation

/-!
# Evaluation

Evaluating a node under an environment gives a value and the environment to
go on with, or an error. What host functions do on the way is kept in a
trace, also when an error follows.

A program may run forever, so evaluation is given an amount of fuel, of
which every step into a part of the program uses one. A run that has ended
does not depend on how much was left. Everything is evaluated from left to
right, each part under the environment that the part before it leaves.
-/

set_option autoImplicit false

namespace Script

/-- How a run ends: with a result, with an error or for lack of fuel. -/
inductive Outcome (ε α : Type) where
  | done (result : α)
  | failed (error : ε)
  | exhausted

def Outcome.mapError {ε δ α : Type} (f : ε → δ) : Outcome ε α → Outcome δ α
  | .done result => .done result
  | .failed e => .failed (f e)
  | .exhausted => .exhausted

/-- A run that adds to a trace. -/
def Evaluation (α : Type) : Type :=
  Trace → Outcome EvalError α × Trace

namespace Evaluation

@[inline] protected def bind {α β : Type} (x : Evaluation α) (f : α → Evaluation β) :
    Evaluation β := fun trace =>
  match x trace with
  | (.done a, trace) => f a trace
  | (.failed e, trace) => (.failed e, trace)
  | (.exhausted, trace) => (.exhausted, trace)

@[inline] protected def pure {α : Type} (a : α) : Evaluation α := fun trace =>
  (.done a, trace)

instance : Monad Evaluation where
  pure := Evaluation.pure
  bind := Evaluation.bind

theorem bind_of_done {α β : Type} {x : Evaluation α} {trace trace' : Trace} {a : α}
    (h : x trace = (.done a, trace')) (f : α → Evaluation β) :
    (x >>= f) trace = f a trace' := by
  simp only [bind, Evaluation.bind, h]

theorem bind_of_failed {α β : Type} {x : Evaluation α} {trace trace' : Trace} {e : EvalError}
    (h : x trace = (.failed e, trace')) (f : α → Evaluation β) :
    (x >>= f) trace = (.failed e, trace') := by
  simp only [bind, Evaluation.bind, h]

theorem bind_of_exhausted {α β : Type} {x : Evaluation α} {trace trace' : Trace}
    (h : x trace = (.exhausted, trace')) (f : α → Evaluation β) :
    (x >>= f) trace = (.exhausted, trace') := by
  simp only [bind, Evaluation.bind, h]

theorem bind_cases {α β : Type} {x : Evaluation α} {f : α → Evaluation β}
    {trace trace₂ : Trace} {outcome : Outcome EvalError β}
    (h : (x >>= f) trace = (outcome, trace₂)) (ho : outcome ≠ .exhausted) :
    (∃ a trace₁, x trace = (.done a, trace₁) ∧ f a trace₁ = (outcome, trace₂)) ∨
      ∃ e, outcome = .failed e ∧ x trace = (.failed e, trace₂) := by
  cases hx : x trace with
  | mk first trace₁ =>
    cases first with
    | done a =>
      rw [bind_of_done hx] at h
      exact .inl ⟨a, trace₁, rfl, h⟩
    | failed e =>
      rw [bind_of_failed hx] at h
      cases h
      exact .inr ⟨e, rfl, rfl⟩
    | exhausted =>
      rw [bind_of_exhausted hx] at h
      cases h
      exact absurd rfl ho

instance : LawfulMonad Evaluation :=
  LawfulMonad.mk' Evaluation
    (fun x => by
      funext trace
      simp only [Functor.map, Evaluation.bind, Evaluation.pure, Function.comp]
      rcases x trace with ⟨_ | _ | _, _⟩ <;> rfl)
    (fun _ _ => rfl)
    (fun x f g => by
      funext trace
      simp only [bind, Evaluation.bind]
      rcases x trace with ⟨_ | _ | _, _⟩ <;> rfl)

@[inline] def exhausted {α : Type} : Evaluation α := fun trace =>
  (.exhausted, trace)

@[inline] def fail {α : Type} (e : EvalError) : Evaluation α := fun trace =>
  (.failed e, trace)

@[inline] def ofExcept {α : Type} (x : Except EvalError α) : Evaluation α := fun trace =>
  match x with
  | .ok a => (.done a, trace)
  | .error e => (.failed e, trace)

def ask (host : Host) (arguments : List Native) : Evaluation Native := fun trace =>
  (.done (host.reply trace arguments).1, (host.reply trace arguments).2.reverse ++ trace)

end Evaluation

def checkArity (name : String) (expected found : Nat) : Except EvalError Unit :=
  if expected = found then .ok () else .error (.argumentCount name expected found)

namespace Evaluation

mutual

/-- An expression. A variable that is not bound is null. -/
def expr : Nat → Expr → Environment → Evaluation (Value × Environment)
  | 0, _, _ => exhausted
  | fuel + 1, e, env =>
    match e with
    | .int n => pure (.int n, env)
    | .bool b => pure (.bool b, env)
    | .string text => pure (.string text, env)
    | .null => pure (.null, env)
    | .variable name => pure ((env.valueOf? name).getD .null, env)
    | .binary op left right => do
      let (a, env) ← expr fuel left env
      let (b, env) ← expr fuel right env
      let value ← ofExcept (op.apply a b)
      pure (value, env)
    | .call name arguments => call fuel name arguments env

/-- A call. The function is found and its arity checked before any argument
is evaluated. What the function binds is not seen by the caller. -/
def call : Nat → String → List Expr → Environment → Evaluation (Value × Environment)
  | 0, _, _, _ => exhausted
  | fuel + 1, name, arguments, env =>
    match env.functionOf? name with
    | none => fail (.undefinedFunction name)
    | some function => do
      ofExcept (checkArity name function.arity arguments.length)
      let (values, env) ← exprs fuel arguments env
      let value ← invoke fuel function values env
      pure (value, env)

def exprs : Nat → List Expr → Environment → Evaluation (List Value × Environment)
  | 0, _, _ => exhausted
  | _ + 1, [], env => pure ([], env)
  | fuel + 1, e :: es, env => do
    let (value, env) ← expr fuel e env
    let (values, env) ← exprs fuel es env
    pure (value :: values, env)

def invoke : Nat → Function → List Value → Environment → Evaluation Value
  | 0, _, _, _ => exhausted
  | fuel + 1, function, values, env =>
    match function with
    | .embedded _ host => do
      let answer ← ask host (values.map Native.ofValue)
      pure answer.toValue
    | .defined params body => do
      let (value, _) ← statements fuel .null body (env.frame (params.zip values))
      pure value

def statement : Nat → Statement → Environment → Evaluation (Value × Environment)
  | 0, _, _ => exhausted
  | fuel + 1, s, env =>
    match s with
    | .expression e => expr fuel e env
    | .assign name e => do
      let (value, env) ← expr fuel e env
      pure (.null, env.setVariable name value)
    | .branch condition body otherwise => do
      let (test, env) ← expr fuel condition env
      if test.isTruthy then
        statements fuel .null body env
      else
        match otherwise with
        | some body => statements fuel .null body env
        | none => pure (.null, env)
    | .loop condition body => loop fuel .null condition body env
    | .define name params body => pure (.null, env.setFunction name (.defined params body))

/-- Statements in order. The value is that of the last one, or the value
given if there is none. -/
def statements : Nat → Value → List Statement → Environment → Evaluation (Value × Environment)
  | 0, _, _, _ => exhausted
  | _ + 1, value, [], env => pure (value, env)
  | fuel + 1, _, s :: ss, env => do
    let (value, env) ← statement fuel s env
    statements fuel value ss env

def loop : Nat → Value → Expr → List Statement → Environment → Evaluation (Value × Environment)
  | 0, _, _, _, _ => exhausted
  | fuel + 1, value, condition, body, env => do
    let (test, env) ← expr fuel condition env
    if test.isTruthy then
      let (value, env) ← statements fuel .null body env
      loop fuel value condition body env
    else
      pure (value, env)

end

end Evaluation

inductive Node where
  | expr (e : Expr)
  | statement (s : Statement)
  | block (body : List Statement)
  | source (program : Source)

/-- Evaluates a node. The value of a block or program is that of its last
statement, or null if it has none. -/
def Node.evaluate (fuel : Nat) (node : Node) (env : Environment) :
    Evaluation (Value × Environment) :=
  match node with
  | .expr e => Evaluation.expr fuel e env
  | .statement s => Evaluation.statement fuel s env
  | .block body => Evaluation.statements fuel .null body env
  | .source program => Evaluation.statements fuel .null program.statements env

end Script
