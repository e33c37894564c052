import Mathlib.Data.Set.Insert
import Script.Proofs.Ending
import Script.Proofs.Names

/-!
# What a run depends on

Two environments agree on variables and functions if each of the variables
reads the same in both and each of the functions is the same in both. A run
depends only on the variables that its tree reads and on the functions that
can be called from it: under environments that agree on them it ends in the
same way, and the environments it leaves agree on them again.

The functions that can be called are closed under calling. They stay so while
the run binds new ones, because a definition may only call functions among
them. The body of a function reads variables of its own, which are the same
in both runs.
-/

set_option autoImplicit false

namespace Script

namespace Environment

/-- The variables read the same in both environments, one that is not bound
as null, and the functions are the same in both or bound in neither. -/
structure Agrees (V F : Set String) (env env' : Environment) : Prop where
  values : ∀ x ∈ V, (env.valueOf? x).getD .null = (env'.valueOf? x).getD .null
  functions : ∀ f ∈ F, env.functionOf? f = env'.functionOf? f

/-- Whatever the functions in a set call is in the set. -/
def ClosedUnderCalls (F : Set String) (env : Environment) : Prop :=
  ∀ f ∈ F, ∀ function, env.functionOf? f = some function → ∀ g ∈ function.called, g ∈ F

variable {V F : Set String} {env env' : Environment}

theorem Agrees.symm (h : env.Agrees V F env') : env'.Agrees V F env :=
  ⟨fun x hx => (h.values x hx).symm, fun f hf => (h.functions f hf).symm⟩

theorem Agrees.closedUnderCalls (h : env.Agrees V F env') (hc : env.ClosedUnderCalls F) :
    env'.ClosedUnderCalls F := by
  intro f hf function hfunction
  rw [← h.functions f hf] at hfunction
  exact hc f hf function hfunction

theorem Agrees.setVariable (h : env.Agrees V F env') (x : String) (v : Value) :
    (env.setVariable x v).Agrees V F (env'.setVariable x v) where
  values y hy := by
    rw [valueOf?_setVariable, valueOf?_setVariable]
    split
    · rfl
    · exact h.values y hy
  functions f hf := by
    rw [functionOf?_setVariable, functionOf?_setVariable]
    exact h.functions f hf

theorem Agrees.setFunction (h : env.Agrees V F env') (f : String) (function : Function) :
    (env.setFunction f function).Agrees V F (env'.setFunction f function) where
  values x hx := by
    rw [valueOf?_setFunction, valueOf?_setFunction]
    exact h.values x hx
  functions g hg := by
    rw [functionOf?_setFunction, functionOf?_setFunction]
    split
    · rfl
    · exact h.functions g hg

theorem Agrees.frame (h : env.Agrees V F env') (bindings : List (String × Value)) :
    (env.frame bindings).Agrees Set.univ F (env'.frame bindings) where
  values x _ := by rw [valueOf?_frame, valueOf?_frame]
  functions f hf := by
    rw [functionOf?_frame, functionOf?_frame]
    exact h.functions f hf

theorem ClosedUnderCalls.setFunction (hc : env.ClosedUnderCalls F) {f : String}
    {function : Function} (hcalled : ∀ g ∈ function.called, g ∈ F) :
    (env.setFunction f function).ClosedUnderCalls F := by
  intro g hg function' h
  rw [functionOf?_setFunction] at h
  split at h
  · cases h
    exact hcalled
  · exact hc g hg function' h

/-- What is kept on the way: agreement, and that calls stay in the set. -/
structure InStep (V F : Set String) (env env' : Environment) : Prop where
  agrees : env.Agrees V F env'
  closed : env.ClosedUnderCalls F

theorem InStep.setVariable (h : env.InStep V F env') (x : String) (v : Value) :
    (env.setVariable x v).InStep V F (env'.setVariable x v) :=
  ⟨h.agrees.setVariable x v, h.closed⟩

theorem InStep.setFunction (h : env.InStep V F env') (f : String) {function : Function}
    (hcalled : ∀ g ∈ function.called, g ∈ F) :
    (env.setFunction f function).InStep V F (env'.setFunction f function) :=
  ⟨h.agrees.setFunction f function, h.closed.setFunction hcalled⟩

theorem InStep.frame (h : env.InStep V F env') (bindings : List (String × Value)) :
    (env.frame bindings).InStep Set.univ F (env'.frame bindings) :=
  ⟨h.agrees.frame bindings, h.closed⟩

end Environment

namespace Evaluation

def Alongside {α : Type} (V F : Set String) (p q : α × Environment) : Prop :=
  p.1 = q.1 ∧ p.2.InStep V F q.2

theorem Alongside.mk {α : Type} {V F : Set String} {env env' : Environment}
    (h : env.InStep V F env') (a : α) : Alongside V F (a, env) (a, env') :=
  ⟨rfl, h⟩

section
variable {F : Set String}

/-! ### One tree under two environments

Each of these goes by the fuel, along the evaluator. The variables change from
a caller to the body of its function, so they are bound in each statement. -/

mutual

theorem expr_alongside : ∀ (fuel : Nat) (e : Expr) {V : Set String} {env env' : Environment},
    (∀ x ∈ e.reads, x ∈ V) → (∀ f ∈ e.called, f ∈ F) → env.InStep V F env' →
      Refines (Alongside V F) (expr fuel e env) (expr fuel e env')
  | 0, _, _, _, _, _, _, _ => .exhausted _
  | _ + 1, .int _, _, _, _, _, _, h => .pure (.mk h _)
  | _ + 1, .bool _, _, _, _, _, _, h => .pure (.mk h _)
  | _ + 1, .string _, _, _, _, _, _, h => .pure (.mk h _)
  | _ + 1, .null, _, _, _, _, _, h => .pure (.mk h _)
  | _ + 1, .variable x, _, _, _, hV, _, h =>
    .pure ⟨h.agrees.values x (hV x List.mem_cons_self), h⟩
  | fuel + 1, .binary op left right, _, _, _, hV, hF, h => by
    obtain ⟨hVl, hVr⟩ := List.forall_mem_append.1 hV
    obtain ⟨hFl, hFr⟩ := List.forall_mem_append.1 hF
    apply Refines.bind (expr_alongside fuel left hVl hFl h)
    rintro ⟨a, env₁⟩ ⟨_, env₁'⟩ ⟨rfl, h₁⟩
    apply Refines.bind (expr_alongside fuel right hVr hFr h₁)
    rintro ⟨b, env₂⟩ ⟨_, env₂'⟩ ⟨rfl, h₂⟩
    apply Refines.bind (.ofExcept (op.apply a b))
    rintro value _ rfl
    exact .pure (.mk h₂ value)
  | fuel + 1, .call f arguments, _, _, _, hV, hF, h =>
    call_alongside fuel f arguments hV hF h

theorem call_alongside : ∀ (fuel : Nat) (f : String) (arguments : List Expr) {V : Set String}
    {env env' : Environment}, (∀ x ∈ Expr.readsAll arguments, x ∈ V) →
      (∀ g ∈ f :: Expr.calledAll arguments, g ∈ F) → env.InStep V F env' →
        Refines (Alongside V F) (call fuel f arguments env)
          (call fuel f arguments env')
  | 0, _, _, _, _, _, _, _, _ => .exhausted _
  | fuel + 1, f, arguments, _, env, env', hV, hF, h => by
    obtain ⟨hf, hF⟩ := List.forall_mem_cons.1 hF
    rw [call, call, ← h.agrees.functions f hf]
    cases hfunction : env.functionOf? f with
    | none => exact .fail _
    | some function =>
      -- the function is the one found before the arguments are run
      have hcalled := h.closed f hf function hfunction
      apply Refines.bind (.ofExcept _)
      rintro _ _ rfl
      apply Refines.bind (exprs_alongside fuel arguments hV hF h)
      rintro ⟨values, env₁⟩ ⟨_, env₁'⟩ ⟨rfl, h₁⟩
      apply Refines.bind (invoke_alongside fuel function values hcalled h₁)
      rintro value _ rfl
      exact .pure (.mk h₁ value)

theorem exprs_alongside : ∀ (fuel : Nat) (es : List Expr) {V : Set String}
    {env env' : Environment}, (∀ x ∈ Expr.readsAll es, x ∈ V) →
      (∀ f ∈ Expr.calledAll es, f ∈ F) → env.InStep V F env' →
        Refines (Alongside V F) (exprs fuel es env) (exprs fuel es env')
  | 0, _, _, _, _, _, _, _ => .exhausted _
  | _ + 1, [], _, _, _, _, _, h => .pure (.mk h _)
  | fuel + 1, e :: es, _, _, _, hV, hF, h => by
    obtain ⟨hVe, hV⟩ := List.forall_mem_append.1 hV
    obtain ⟨hFe, hF⟩ := List.forall_mem_append.1 hF
    apply Refines.bind (expr_alongside fuel e hVe hFe h)
    rintro ⟨value, env₁⟩ ⟨_, env₁'⟩ ⟨rfl, h₁⟩
    apply Refines.bind (exprs_alongside fuel es hV hF h₁)
    rintro ⟨values, env₂⟩ ⟨_, env₂'⟩ ⟨rfl, h₂⟩
    exact .pure (.mk h₂ (value :: values))

theorem invoke_alongside : ∀ (fuel : Nat) (function : Function) (values : List Value)
    {V : Set String} {env env' : Environment}, (∀ g ∈ function.called, g ∈ F) →
      env.InStep V F env' →
        Refines Eq (invoke fuel function values env) (invoke fuel function values env')
  | 0, _, _, _, _, _, _, _ => .exhausted _
  | _ + 1, .embedded _ host, values, _, _, _, _, _ => by
    apply Refines.bind (.ask host (values.map Native.ofValue))
    rintro answer _ rfl
    exact .pure rfl
  | fuel + 1, .defined params body, values, _, _, _, hF, h => by
    have hframe := h.frame (params.zip values)
    apply Refines.bind
      (statements_alongside fuel .null body (fun _ _ => Set.mem_univ _) hF hframe)
    rintro ⟨value, _⟩ ⟨_, _⟩ ⟨rfl, _⟩
    exact .pure rfl

theorem statement_alongside : ∀ (fuel : Nat) (s : Statement) {V : Set String}
    {env env' : Environment}, (∀ x ∈ s.reads, x ∈ V) → (∀ f ∈ s.called, f ∈ F) →
      env.InStep V F env' →
        Refines (Alongside V F) (statement fuel s env) (statement fuel s env')
  | 0, _, _, _, _, _, _, _ => .exhausted _
  | fuel + 1, .expression e, _, _, _, hV, hF, h => expr_alongside fuel e hV hF h
  | fuel + 1, .assign x value, _, _, _, hV, hF, h => by
    apply Refines.bind (expr_alongside fuel value hV hF h)
    rintro ⟨v, env₁⟩ ⟨_, env₁'⟩ ⟨rfl, h₁⟩
    exact .pure (.mk (h₁.setVariable x v) _)
  | fuel + 1, .branch condition body none, _, _, _, hV, hF, h => by
    obtain ⟨hVc, hVb⟩ := List.forall_mem_append.1 hV
    obtain ⟨hFc, hFb⟩ := List.forall_mem_append.1 hF
    apply Refines.bind (expr_alongside fuel condition hVc hFc h)
    rintro ⟨test, env₁⟩ ⟨_, env₁'⟩ ⟨rfl, h₁⟩
    dsimp only
    split
    · exact statements_alongside fuel .null body hVb hFb h₁
    · exact .pure (.mk h₁ _)
  | fuel + 1, .branch condition body (some other), _, _, _, hV, hF, h => by
    obtain ⟨hVc, hV⟩ := List.forall_mem_append.1 hV
    obtain ⟨hVb, hVo⟩ := List.forall_mem_append.1 hV
    obtain ⟨hFc, hF⟩ := List.forall_mem_append.1 hF
    obtain ⟨hFb, hFo⟩ := List.forall_mem_append.1 hF
    apply Refines.bind (expr_alongside fuel condition hVc hFc h)
    rintro ⟨test, env₁⟩ ⟨_, env₁'⟩ ⟨rfl, h₁⟩
    dsimp only
    split
    · exact statements_alongside fuel .null body hVb hFb h₁
    · exact statements_alongside fuel .null other hVo hFo h₁
  | fuel + 1, .loop condition body, _, _, _, hV, hF, h =>
    loop_alongside fuel .null condition body hV hF h
  | _ + 1, .define f params body, _, _, _, _, hF, h => by
    have hcalled : ∀ g ∈ (Function.defined params body).called, g ∈ F := hF
    exact .pure (.mk (h.setFunction f hcalled) Value.null)

theorem statements_alongside : ∀ (fuel : Nat) (value : Value) (ss : List Statement)
    {V : Set String} {env env' : Environment}, (∀ x ∈ Statement.readsAll ss, x ∈ V) →
      (∀ f ∈ Statement.calledAll ss, f ∈ F) → env.InStep V F env' →
        Refines (Alongside V F) (statements fuel value ss env)
          (statements fuel value ss env')
  | 0, _, _, _, _, _, _, _, _ => .exhausted _
  | _ + 1, value, [], _, _, _, _, _, h => .pure (.mk h value)
  | fuel + 1, _, s :: ss, _, _, _, hV, hF, h => by
    obtain ⟨hVs, hV⟩ := List.forall_mem_append.1 hV
    obtain ⟨hFs, hF⟩ := List.forall_mem_append.1 hF
    apply Refines.bind (statement_alongside fuel s hVs hFs h)
    rintro ⟨value, env₁⟩ ⟨_, env₁'⟩ ⟨rfl, h₁⟩
    exact statements_alongside fuel value ss hV hF h₁

theorem loop_alongside : ∀ (fuel : Nat) (value : Value) (condition : Expr)
    (body : List Statement) {V : Set String} {env env' : Environment},
      (∀ x ∈ condition.reads ++ Statement.readsAll body, x ∈ V) →
        (∀ f ∈ condition.called ++ Statement.calledAll body, f ∈ F) → env.InStep V F env' →
          Refines (Alongside V F) (loop fuel value condition body env)
            (loop fuel value condition body env')
  | 0, _, _, _, _, _, _, _, _, _ => .exhausted _
  | fuel + 1, value, condition, body, _, _, _, hV, hF, h => by
    obtain ⟨hVc, hVb⟩ := List.forall_mem_append.1 hV
    obtain ⟨hFc, hFb⟩ := List.forall_mem_append.1 hF
    apply Refines.bind (expr_alongside fuel condition hVc hFc h)
    rintro ⟨test, env₁⟩ ⟨_, env₁'⟩ ⟨rfl, h₁⟩
    dsimp only
    split
    · apply Refines.bind (statements_alongside fuel .null body hVb hFb h₁)
      rintro ⟨value, env₂⟩ ⟨_, env₂'⟩ ⟨rfl, h₂⟩
      exact loop_alongside fuel value condition body hV hF h₂
    · exact .pure (.mk h₁ value)

end

theorem node_alongside {n : Node} {V : Set String} {env env' : Environment}
    (hV : ∀ x ∈ n.reads, x ∈ V) (hF : ∀ f ∈ n.called, f ∈ F) (h : env.InStep V F env')
    (fuel : Nat) :
    Refines (Alongside V F) (n.evaluate fuel env) (n.evaluate fuel env') := by
  cases n with
  | expr e => exact expr_alongside fuel e hV hF h
  | statement s => exact statement_alongside fuel s hV hF h
  | block body => exact statements_alongside fuel .null body hV hF h
  | source program => exact statements_alongside fuel .null program.statements hV hF h

end

/-! ### How the runs end -/

section
variable {α β : Type} {R : α → β → Prop} {x : Nat → Evaluation α} {y : Nat → Evaluation β}
  {trace trace₁ : Trace}

theorem Yields.done_of_lockstep (h : ∀ fuel, Refines R (x fuel) (y fuel)) {a : α}
    (ha : Yields x trace (.done a) trace₁) : ∃ b, Yields y trace (.done b) trace₁ ∧ R a b := by
  apply ha.done_of_refines y 0
  simpa using h

theorem Yields.failed_of_lockstep (h : ∀ fuel, Refines R (x fuel) (y fuel))
    {e : EvalError} (he : Yields x trace (.failed e) trace₁) :
    Yields y trace (.failed e) trace₁ := by
  apply he.failed_of_refines y 0
  simpa using h

end

section
variable {V F : Set String} {env env' : Environment} {trace trace₁ : Trace}

theorem yields_done_of_inStep {n : Node} (hV : ∀ x ∈ n.reads, x ∈ V)
    (hF : ∀ f ∈ n.called, f ∈ F) (h : env.InStep V F env') {v : Value} {env₁ : Environment}
    (hv : Yields (n.evaluate · env) trace (.done (v, env₁)) trace₁) :
    ∃ env₁', Yields (n.evaluate · env') trace (.done (v, env₁')) trace₁ ∧
      env₁.Agrees V F env₁' := by
  obtain ⟨⟨_, env₁'⟩, hv', rfl, h₁⟩ := hv.done_of_lockstep (node_alongside hV hF h)
  exact ⟨env₁', hv', h₁.agrees⟩

theorem yields_failed_of_inStep {n : Node} (hV : ∀ x ∈ n.reads, x ∈ V)
    (hF : ∀ f ∈ n.called, f ∈ F) (h : env.InStep V F env') {e : EvalError}
    (he : Yields (n.evaluate · env) trace (.failed e) trace₁) :
    Yields (n.evaluate · env') trace (.failed e) trace₁ :=
  he.failed_of_lockstep (node_alongside hV hF h)

theorem yields_invoke_of_inStep {function : Function} {values : List Value}
    (hF : ∀ g ∈ function.called, g ∈ F) (h : env.InStep V F env')
    {outcome : Outcome EvalError Value}
    (ho : Yields (invoke · function values env) trace outcome trace₁) :
    Yields (invoke · function values env') trace outcome trace₁ := by
  have hrefines (fuel : Nat) : Refines Eq (invoke fuel function values env)
      (invoke fuel function values env') := invoke_alongside fuel function values hF h
  cases outcome with
  | done v =>
    obtain ⟨_, hv, rfl⟩ := ho.done_of_lockstep hrefines
    exact hv
  | failed e => exact ho.failed_of_lockstep hrefines
  | exhausted => exact absurd rfl ho.1

end

end Evaluation

open Evaluation in
/-- A run depends only on what its tree can name. Under environments that
agree on the variables that it reads and on functions among which are those
that it calls and those that they call, a node ends under one exactly if it
ends under the other: with the same error, or with the same value and
environments that agree again, and after the same has been observed. A call
of a function depends only on its arguments and on the functions that can be
called, whatever variables the callers have. -/
theorem evaluation_depends_on_names {n : Node} {V F : Set String} {env env' : Environment}
    (hV : ∀ x ∈ n.reads, x ∈ V) (hF : ∀ f ∈ n.called, f ∈ F)
    (hc : env.ClosedUnderCalls F) (h : env.Agrees V F env') (trace trace₁ : Trace) :
    (∀ v env₁, Yields (n.evaluate · env) trace (.done (v, env₁)) trace₁ →
      ∃ env₁', Yields (n.evaluate · env') trace (.done (v, env₁')) trace₁ ∧
        env₁.Agrees V F env₁') ∧
    (∀ v env₁', Yields (n.evaluate · env') trace (.done (v, env₁')) trace₁ →
      ∃ env₁, Yields (n.evaluate · env) trace (.done (v, env₁)) trace₁ ∧
        env₁.Agrees V F env₁') ∧
    (∀ e, Yields (n.evaluate · env) trace (.failed e) trace₁ ↔
      Yields (n.evaluate · env') trace (.failed e) trace₁) ∧
    ∀ env'', env.Agrees ∅ F env'' → ∀ function : Function, (∀ g ∈ function.called, g ∈ F) →
      ∀ values outcome, Yields (invoke · function values env) trace outcome trace₁ ↔
        Yields (invoke · function values env'') trace outcome trace₁ := by
  have hstep : env.InStep V F env' := ⟨h, hc⟩
  have hback : env'.InStep V F env := ⟨h.symm, h.closedUnderCalls hc⟩
  refine ⟨fun v env₁ hv => yields_done_of_inStep hV hF hstep hv, fun v env₁' hv => ?_,
    fun e => ⟨yields_failed_of_inStep hV hF hstep, yields_failed_of_inStep hV hF hback⟩,
    fun env'' h'' function hcalled values outcome => ?_⟩
  · obtain ⟨env₁, hv', hagrees⟩ := yields_done_of_inStep hV hF hback hv
    exact ⟨env₁, hv', hagrees.symm⟩
  · constructor
    · exact yields_invoke_of_inStep hcalled ⟨h'', hc⟩
    · exact yields_invoke_of_inStep hcalled ⟨h''.symm, h''.closedUnderCalls hc⟩

def Environment.echoing : Environment :=
  empty.setFunction "f" (.defined ["x"] [.expression (.variable "x")])

def Node.peeking : Node :=
  .block [.define "g" [] [.expression (.call "f" [.variable "a"])],
    .expression (.binary .equal (.call "g" []) (.variable "c"))]

open Evaluation in
theorem evaluation_depends_on_names_of_peeking :
    (Environment.echoing.setVariable "a" (.int 1)).Agrees {"c"} {"f", "g"}
        ((Environment.echoing.setVariable "a" (.int 2)).setVariable "c" .null) ∧
      ∃ env', Yields (Node.peeking.evaluate ·
        ((Environment.echoing.setVariable "a" (.int 2)).setVariable "c" .null)) []
          (.done (.bool true, env')) [] := by
  have hV : ∀ x ∈ Node.peeking.reads, x ∈ ({"c"} : Set String) := by
    simp [Node.peeking, Node.reads, Statement.readsAll, Statement.reads,
      Expr.reads, Expr.readsAll]
  have hF : ∀ f ∈ Node.peeking.called, f ∈ ({"f", "g"} : Set String) := by
    simp [Node.peeking, Node.called, Statement.calledAll, Statement.called, Expr.called,
      Expr.calledAll]
  have hc : (Environment.echoing.setVariable "a" (.int 1)).ClosedUnderCalls {"f", "g"} := by
    apply Environment.ClosedUnderCalls.setFunction
    · simp [Environment.ClosedUnderCalls]
    · simp [Function.called, Statement.calledAll, Statement.called, Expr.called]
  have h : (Environment.echoing.setVariable "a" (.int 1)).Agrees {"c"} {"f", "g"}
      ((Environment.echoing.setVariable "a" (.int 2)).setVariable "c" .null) :=
    ⟨by rintro _ rfl; rfl, fun _ _ => rfl⟩
  have hrun : Yields (Node.peeking.evaluate · (Environment.echoing.setVariable "a" (.int 1))) []
      (.done (.bool true, (Environment.echoing.setVariable "a" (.int 1)).setFunction "g"
        (.defined [] [.expression (.call "f" [.variable "a"])]))) [] :=
    ⟨by simp, 20, rfl⟩
  obtain ⟨env', hrun', _⟩ := (evaluation_depends_on_names hV hF hc h [] []).1 _ _ hrun
  exact ⟨h, env', hrun'⟩

end Script
