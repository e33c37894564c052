import Script.Execution
import Script.Proofs.Ending
import Script.Proofs.Keeping

/-!
# Runs without a state

A host function is stateless if it looks at nothing but its arguments. Where
all functions that are bound are so, a run puts what it observes before what has
been observed already and looks at none of it. So with any fuel, also with too
little, a run that comes after others is the run by itself, with theirs kept
below what it adds. A program defines no host functions, so this stays so for
what is run next.
-/

set_option autoImplicit false

namespace Script

/-- The function looks at nothing but its arguments. -/
def Host.Stateless (host : Host) : Prop :=
  ∀ trace arguments, host.reply trace arguments = host.respond arguments

def Function.Stateless : Function → Prop
  | .defined _ _ => True
  | .embedded _ host => host.Stateless

def Environment.Stateless (env : Environment) : Prop :=
  ∀ f function, env.functionOf? f = some function → function.Stateless

theorem Host.stateless_print : Host.print.Stateless := by
  intro trace arguments
  cases arguments with
  | nil => rfl
  | cons _ rest => cases rest <;> rfl

namespace Environment

theorem stateless_empty : empty.Stateless := by
  intro f function hf
  rw [functionOf?_empty] at hf
  cases hf

namespace Stateless
variable {env : Environment}

theorem setVariable (h : env.Stateless) (x : String) (v : Value) :
    (env.setVariable x v).Stateless :=
  h

theorem frame (h : env.Stateless) (bindings : List (String × Value)) :
    (env.frame bindings).Stateless :=
  h

theorem setFunction (h : env.Stateless) (f : String) {function : Function}
    (hf : function.Stateless) : (env.setFunction f function).Stateless := by
  intro g other hg
  rw [functionOf?_setFunction] at hg
  split at hg
  · cases hg
    exact hf
  · exact h g other hg

end Stateless

theorem stateless_prelude : prelude.Stateless :=
  stateless_empty.setFunction "print" Host.stateless_print

end Environment

namespace Evaluation

/-- The run is the same after any events, and its results meet a condition. -/
structure Uniform {α : Type} (P : α → Prop) (x : Evaluation α) : Prop extends Ensures P x where
  after : ∀ base, x base = ((x []).1, (x []).2 ++ base)

namespace Uniform
variable {α β : Type} {P : α → Prop} {Q : β → Prop}

theorem exhausted : Uniform P (Evaluation.exhausted : Evaluation α) :=
  ⟨.exhausted, fun _ => rfl⟩

theorem fail (e : EvalError) : Uniform P (Evaluation.fail e : Evaluation α) :=
  ⟨.fail e, fun _ => rfl⟩

theorem pure {a : α} (h : P a) : Uniform P (Pure.pure a) :=
  ⟨.pure h, fun _ => rfl⟩

theorem ofExcept (x : Except EvalError α) : Uniform (fun _ => True) (Evaluation.ofExcept x) := by
  cases x with
  | ok a => exact pure trivial
  | error e => exact fail e

theorem ask {host : Host} (h : host.Stateless) (arguments : List Native) :
    Uniform (fun _ => True) (Evaluation.ask host arguments) where
  toEnsures := .any _
  after base := by
    have hnil : (Evaluation.ask host arguments []).2 = (host.respond arguments).2.reverse :=
      List.append_nil _
    rw [hnil, Evaluation.ask, h base arguments]
    rfl

theorem bind {x : Evaluation α} {f : α → Evaluation β} (hx : Uniform P x)
    (hf : ∀ a, P a → Uniform Q (f a)) : Uniform Q (x >>= f) where
  toEnsures := hx.toEnsures.bind fun a ha => (hf a ha).toEnsures
  after base := by
    have hbase := hx.after base
    cases hr : x [] with
    | mk outcome trace =>
      rw [hr] at hbase
      cases outcome with
      | done a =>
        have ha := hf a (hx.result hr)
        rw [bind_of_done hbase, bind_of_done hr, ha.after, ha.after trace, List.append_assoc]
      | failed e => rw [bind_of_failed hbase, bind_of_failed hr]
      | exhausted => rw [bind_of_exhausted hbase, bind_of_exhausted hr]

theorem yields_iff {x : Nat → Evaluation α} (hx : ∀ fuel, Uniform P (x fuel))
    {outcome : Outcome EvalError α} {events : Trace} (base : Trace) :
    Yields x base outcome (events ++ base) ↔ Yields x [] outcome events := by
  constructor
  · rintro ⟨ho, fuel, hr⟩
    rw [(hx fuel).after base] at hr
    obtain ⟨hfirst, hsecond⟩ := Prod.mk.inj hr
    exact ⟨ho, fuel, Prod.ext hfirst (List.append_cancel_right hsecond)⟩
  · rintro ⟨ho, fuel, hr⟩
    have hbase := (hx fuel).after base
    rw [hr] at hbase
    exact ⟨ho, fuel, hbase⟩

end Uniform

/-! ### The evaluator

The induction is on the fuel, along the evaluator. -/

abbrev UniformRun {α : Type} (x : Evaluation (α × Environment)) : Prop :=
  Uniform (fun p => p.2.Stateless) x

mutual

theorem expr_uniform : ∀ (fuel : Nat) (e : Expr) {env : Environment}, env.Stateless →
    UniformRun (expr fuel e env)
  | 0, _, _, _ => .exhausted
  | _ + 1, .int _, _, h => .pure h
  | _ + 1, .bool _, _, h => .pure h
  | _ + 1, .string _, _, h => .pure h
  | _ + 1, .null, _, h => .pure h
  | _ + 1, .variable _, _, h => .pure h
  | fuel + 1, .binary op left right, _, h =>
    .bind (expr_uniform fuel left h) fun (a, _) h =>
      .bind (expr_uniform fuel right h) fun (b, _) h =>
        .bind (.ofExcept (op.apply a b)) fun _ _ => .pure h
  | fuel + 1, .call f arguments, _, h => call_uniform fuel f arguments h

theorem call_uniform : ∀ (fuel : Nat) (f : String) (arguments : List Expr) {env : Environment},
    env.Stateless → UniformRun (call fuel f arguments env)
  | 0, _, _, _, _ => .exhausted
  | fuel + 1, f, arguments, env, h => by
    rw [call]
    cases hfunction : env.functionOf? f with
    | none => exact .fail _
    | some function =>
      exact .bind (.ofExcept _) fun _ _ =>
        .bind (exprs_uniform fuel arguments h) fun (values, _) henv =>
          .bind (invoke_uniform fuel (h f function hfunction) values henv) fun _ _ => .pure henv

theorem exprs_uniform : ∀ (fuel : Nat) (es : List Expr) {env : Environment}, env.Stateless →
    UniformRun (exprs fuel es env)
  | 0, _, _, _ => .exhausted
  | _ + 1, [], _, h => .pure h
  | fuel + 1, e :: es, _, h =>
    .bind (expr_uniform fuel e h) fun _ h =>
      .bind (exprs_uniform fuel es h) fun _ h => .pure h

theorem invoke_uniform : ∀ (fuel : Nat) {function : Function}, function.Stateless →
    ∀ (values : List Value) {env : Environment}, env.Stateless →
      Uniform (fun _ => True) (invoke fuel function values env)
  | 0, _, _, _, _, _ => .exhausted
  | _ + 1, .embedded _ _, hhost, values, _, _ =>
    .bind (.ask hhost (values.map Native.ofValue)) fun _ _ => .pure trivial
  | fuel + 1, .defined params body, _, values, _, h =>
    .bind (statements_uniform fuel .null body (h.frame (params.zip values))) fun _ _ =>
      .pure trivial

theorem statement_uniform : ∀ (fuel : Nat) (s : Statement) {env : Environment}, env.Stateless →
    UniformRun (statement fuel s env)
  | 0, _, _, _ => .exhausted
  | fuel + 1, .expression e, _, h => expr_uniform fuel e h
  | fuel + 1, .assign x e, _, h =>
    .bind (expr_uniform fuel e h) fun (value, _) h => .pure (h.setVariable x value)
  | fuel + 1, .branch condition body otherwise, _, h => by
    refine .bind (expr_uniform fuel condition h) fun (test, env) h => ?_
    dsimp only
    split
    · exact statements_uniform fuel .null body h
    · cases otherwise with
      | none => exact .pure h
      | some otherwise => exact statements_uniform fuel .null otherwise h
  | fuel + 1, .loop condition body, _, h => loop_uniform fuel .null condition body h
  | _ + 1, .define f params body, _, h => by
    have hdefined : (Function.defined params body).Stateless := trivial
    exact .pure (h.setFunction f hdefined)

theorem statements_uniform : ∀ (fuel : Nat) (value : Value) (ss : List Statement)
    {env : Environment}, env.Stateless → UniformRun (statements fuel value ss env)
  | 0, _, _, _, _ => .exhausted
  | _ + 1, _, [], _, h => .pure h
  | fuel + 1, _, s :: ss, _, h =>
    .bind (statement_uniform fuel s h) fun (value, _) h => statements_uniform fuel value ss h

theorem loop_uniform : ∀ (fuel : Nat) (value : Value) (condition : Expr) (body : List Statement)
    {env : Environment}, env.Stateless → UniformRun (loop fuel value condition body env)
  | 0, _, _, _, _, _ => .exhausted
  | fuel + 1, value, condition, body, _, h => by
    refine .bind (expr_uniform fuel condition h) fun (test, env) h => ?_
    dsimp only
    split
    · exact .bind (statements_uniform fuel .null body h) fun (value, _) h =>
        loop_uniform fuel value condition body h
    · exact .pure h

end

end Evaluation

section
variable {env env' : Environment} {fuel : Nat} {text : String}

/-- A text that is run after other events runs as it does by itself. -/
theorem run_uniform (h : env.Stateless) (fuel : Nat) (text : String) (base : Trace) :
    run fuel text env base = ((run fuel text env []).1, (run fuel text env []).2 ++ base) := by
  unfold run
  cases read text with
  | error e => rfl
  | ok program =>
    have hrun := (Evaluation.statements_uniform fuel .null program.statements h).after base
    simp only [Node.evaluate, hrun]

theorem stateless_of_run (h : env.Stateless) {v : Value} {base trace : Trace}
    (hr : run fuel text env base = (.done (v, env'), trace)) : env'.Stateless := by
  unfold run at hr
  cases hread : read text with
  | error e =>
    rw [hread] at hr
    cases hr
  | ok program =>
    rw [hread] at hr
    have hensures := (Evaluation.statements_uniform fuel .null program.statements h).toEnsures
    cases hrun : Evaluation.statements fuel .null program.statements env base with
    | mk outcome trace' =>
      simp only [Node.evaluate, hrun] at hr
      cases outcome with
      | done p =>
        cases hr
        exact hensures.result hrun
      | failed e => cases hr
      | exhausted => cases hr

end

end Script
