import Script.Proofs.Names

/-!
# Descending calls

Without loops a run can go on forever only if functions call each other in a
circle. If the functions have ranks, and whatever is defined under a name calls
only names of a lower rank, then every run ends. A body may be larger than the
call it is run for, and a run may define functions anew, so neither the size of
a tree nor the table of functions says how long it takes. The induction is on
the rank and, for one rank, on the tree; every table that is met on the way
descends as the first one did.
-/

set_option autoImplicit false

namespace Script

/-! ### Trees and tables that descend -/

mutual

def Statement.invoked : Statement → List String
  | .expression e => e.called
  | .assign _ value => value.called
  | .branch condition body none => condition.called ++ Statement.invokedAll body
  | .branch condition body (some otherwise) =>
    condition.called ++ (Statement.invokedAll body ++ Statement.invokedAll otherwise)
  | .loop condition body => condition.called ++ Statement.invokedAll body
  | .define _ _ _ => []

def Statement.invokedAll : List Statement → List String
  | [] => []
  | s :: ss => s.invoked ++ Statement.invokedAll ss

end

section
variable (rank : String → Nat)

mutual

/-- There is no loop anywhere in a statement, and all that is defined under a
name calls names of a lower rank. Definitions within bodies count. -/
def Statement.Descends : Statement → Prop
  | .expression _ => True
  | .assign _ _ => True
  | .branch _ body none => Statement.DescendAll body
  | .branch _ body (some otherwise) =>
    Statement.DescendAll body ∧ Statement.DescendAll otherwise
  | .loop _ _ => False
  | .define f _ body =>
    (∀ g ∈ Statement.invokedAll body, rank g < rank f) ∧ Statement.DescendAll body

def Statement.DescendAll : List Statement → Prop
  | [] => True
  | s :: ss => s.Descends ∧ Statement.DescendAll ss

end

def Function.Descends (f : String) : Function → Prop
  | .defined _ body =>
    (∀ g ∈ Statement.invokedAll body, rank g < rank f) ∧ Statement.DescendAll rank body
  | .embedded _ _ => True

def Environment.Descends (env : Environment) : Prop :=
  ∀ f function, env.functionOf? f = some function → function.Descends rank f

namespace Node

def Descends : Node → Prop
  | .expr _ => True
  | .statement s => s.Descends rank
  | .block body => Statement.DescendAll rank body
  | .source program => Statement.DescendAll rank program.statements

def invoked : Node → List String
  | .expr e => e.called
  | .statement s => s.invoked
  | .block body => Statement.invokedAll body
  | .source program => Statement.invokedAll program.statements

end Node

end

namespace Environment.Descends
variable {rank : String → Nat} {env : Environment}

theorem setVariable (h : env.Descends rank) (x : String) (v : Value) :
    (env.setVariable x v).Descends rank :=
  h

theorem frame (h : env.Descends rank) (bindings : List (String × Value)) :
    (env.frame bindings).Descends rank :=
  h

theorem setFunction (h : env.Descends rank) {f : String} (function : Function)
    (hf : function.Descends rank f) : (env.setFunction f function).Descends rank := by
  intro g other hg
  rw [functionOf?_setFunction] at hg
  split at hg
  · subst f
    cases hg
    exact hf
  · exact h g other hg

end Environment.Descends

/-! ### Runs that settle -/

def Outcome.Settled {ε α : Type} (P : α → Prop) : Outcome ε α → Prop
  | .done a => P a
  | .failed _ => True
  | .exhausted => False

namespace Evaluation

/-- From some amount of fuel on the run ends, and always in the same way. -/
def Settles {α : Type} (P : α → Prop) (x : Nat → Evaluation α) : Prop :=
  ∀ trace, ∃ least outcome trace', outcome.Settled P ∧
    ∀ fuel, least ≤ fuel → x fuel trace = (outcome, trace')

namespace Settles
variable {α β : Type} {P : α → Prop} {Q : β → Prop} {x y : Nat → Evaluation α}

theorem of_succ (hy : Settles P y) (h : ∀ fuel, x (fuel + 1) = y fuel) : Settles P x := by
  intro trace
  obtain ⟨least, outcome, trace', ho, hrun⟩ := hy trace
  refine ⟨least + 1, outcome, trace', ho, fun fuel hfuel => ?_⟩
  cases fuel with
  | zero => omega
  | succ fuel => rw [h, hrun fuel (by omega)]

theorem pure {a : α} (h : P a) : Settles P fun _ => Pure.pure a :=
  fun trace => ⟨0, .done a, trace, h, fun _ _ => rfl⟩

theorem fail (e : EvalError) : Settles P fun _ => Evaluation.fail e :=
  fun trace => ⟨0, .failed e, trace, trivial, fun _ _ => rfl⟩

theorem ofExcept (a : Except EvalError α) :
    Settles (fun _ => True) fun _ => Evaluation.ofExcept a := by
  cases a with
  | ok a => exact .pure trivial
  | error e => exact .fail e

theorem ask (host : Host) (arguments : List Native) :
    Settles (fun _ => True) fun _ => Evaluation.ask host arguments :=
  fun trace => ⟨0, .done (host.reply trace arguments).1, _, trivial, fun _ _ => rfl⟩

theorem ite (c : Bool) (hx : Settles P x) (hy : Settles P y) :
    Settles P fun fuel => if c then x fuel else y fuel := by
  cases c with
  | true => exact hx
  | false => exact hy

theorem mono {P' : α → Prop} (h : Settles P x) (hP : ∀ a, P a → P' a) : Settles P' x := by
  intro trace
  obtain ⟨least, outcome, trace', ho, hrun⟩ := h trace
  refine ⟨least, outcome, trace', ?_, hrun⟩
  cases outcome with
  | done a => exact hP a ho
  | failed e => trivial
  | exhausted => exact ho

theorem bind {f : α → Nat → Evaluation β} (hx : Settles P x)
    (hf : ∀ a, P a → Settles Q (f a)) : Settles Q fun fuel => x fuel >>= (f · fuel) := by
  intro trace
  obtain ⟨m, outcome, trace₁, ho, hm⟩ := hx trace
  cases outcome with
  | done a =>
    obtain ⟨n, outcome, trace₂, ho, hn⟩ := hf a ho trace₁
    refine ⟨max m n, outcome, trace₂, ho, fun fuel hfuel => ?_⟩
    exact (bind_of_done (hm fuel (by omega)) _).trans (hn fuel (by omega))
  | failed e =>
    exact ⟨m, .failed e, trace₁, trivial, fun fuel hfuel => bind_of_failed (hm fuel hfuel) _⟩
  | exhausted => exact ho.elim

end Settles

/-! ### Calls below a rank -/

section
variable {rank : String → Nat} {r : Nat}

def CallsSettle (rank : String → Nat) (r : Nat) : Prop :=
  ∀ f function values env, rank f < r → function.Descends rank f → env.Descends rank →
    Settles (fun _ => True) (invoke · function values env)

theorem call_settles (hcalls : CallsSettle rank r) {f : String} {arguments : List Expr}
    {env : Environment} (hf : rank f < r) (henv : env.Descends rank)
    (harguments : Settles (fun p => p.2 = env) (exprs · arguments env)) :
    Settles (fun p => p.2 = env) (call · f arguments env) := by
  cases hfunction : env.functionOf? f with
  | none =>
    refine .of_succ (.fail (.undefinedFunction f)) fun fuel => ?_
    rw [call, hfunction]
  | some function =>
    have hrun (fuel : Nat) : call (fuel + 1) f arguments env =
        ofExcept (checkArity f function.arity arguments.length) >>= fun _ =>
          exprs fuel arguments env >>= fun p =>
            invoke fuel function p.1 p.2 >>= fun value => Pure.pure (value, p.2) := by
      rw [call, hfunction]
    refine .of_succ ?_ hrun
    refine .bind (.ofExcept (checkArity f function.arity arguments.length)) fun _ _ => ?_
    refine .bind harguments ?_
    rintro ⟨values, _⟩ rfl
    have hbody := hcalls f function values _ hf (henv f function hfunction) henv
    exact .bind hbody fun value _ => .pure rfl

mutual

theorem expr_settles (hcalls : CallsSettle rank r) : ∀ (e : Expr) (env : Environment),
    (∀ g ∈ e.called, rank g < r) → env.Descends rank →
      Settles (fun p => p.2 = env) (expr · e env)
  | .int _, _, _, _ => .of_succ (.pure rfl) fun _ => rfl
  | .bool _, _, _, _ => .of_succ (.pure rfl) fun _ => rfl
  | .string _, _, _, _ => .of_succ (.pure rfl) fun _ => rfl
  | .null, _, _, _ => .of_succ (.pure rfl) fun _ => rfl
  | .variable _, _, _, _ => .of_succ (.pure rfl) fun _ => rfl
  | .binary op left right, env, hr, henv => by
    rw [Expr.called, List.forall_mem_append] at hr
    refine .of_succ ?_ fun _ => rfl
    refine .bind (expr_settles hcalls left env hr.1 henv) ?_
    rintro ⟨a, _⟩ rfl
    refine .bind (expr_settles hcalls right _ hr.2 henv) ?_
    rintro ⟨b, _⟩ rfl
    exact .bind (.ofExcept (op.apply a b)) fun value _ => .pure rfl
  | .call f arguments, env, hr, henv => by
    rw [Expr.called, List.forall_mem_cons] at hr
    exact .of_succ (call_settles hcalls hr.1 henv (exprs_settles hcalls arguments env hr.2 henv))
      fun _ => rfl

theorem exprs_settles (hcalls : CallsSettle rank r) : ∀ (es : List Expr) (env : Environment),
    (∀ g ∈ Expr.calledAll es, rank g < r) → env.Descends rank →
      Settles (fun p => p.2 = env) (exprs · es env)
  | [], _, _, _ => .of_succ (.pure rfl) fun _ => rfl
  | e :: es, env, hr, henv => by
    rw [Expr.calledAll, List.forall_mem_append] at hr
    refine .of_succ ?_ fun _ => rfl
    refine .bind (expr_settles hcalls e env hr.1 henv) ?_
    rintro ⟨value, _⟩ rfl
    refine .bind (exprs_settles hcalls es _ hr.2 henv) ?_
    rintro ⟨values, _⟩ rfl
    exact .pure rfl

end

mutual

theorem statement_settles (hcalls : CallsSettle rank r) : ∀ (s : Statement) (env : Environment),
    s.Descends rank → (∀ g ∈ s.invoked, rank g < r) → env.Descends rank →
      Settles (fun p => p.2.Descends rank) (statement · s env)
  | .expression e, env, _, hr, henv => by
    refine .of_succ ?_ fun _ => rfl
    exact (expr_settles hcalls e env hr henv).mono fun p hp => hp ▸ henv
  | .assign x e, env, _, hr, henv => by
    refine .of_succ ?_ fun _ => rfl
    refine .bind (expr_settles hcalls e env hr henv) ?_
    rintro ⟨value, _⟩ rfl
    exact .pure (henv.setVariable x value)
  | .branch condition body none, env, hs, hr, henv => by
    rw [Statement.invoked, List.forall_mem_append] at hr
    refine .of_succ ?_ fun _ => rfl
    refine .bind (expr_settles hcalls condition env hr.1 henv) ?_
    rintro ⟨test, _⟩ rfl
    exact .ite test.isTruthy (statements_settles hcalls .null body _ hs hr.2 henv) (.pure henv)
  | .branch condition body (some otherwise), env, hs, hr, henv => by
    rw [Statement.invoked, List.forall_mem_append, List.forall_mem_append] at hr
    refine .of_succ ?_ fun _ => rfl
    refine .bind (expr_settles hcalls condition env hr.1 henv) ?_
    rintro ⟨test, _⟩ rfl
    exact .ite test.isTruthy (statements_settles hcalls .null body _ hs.1 hr.2.1 henv)
      (statements_settles hcalls .null otherwise _ hs.2 hr.2.2 henv)
  | .loop _ _, _, hs, _, _ => hs.elim
  | .define f params body, env, hs, _, henv =>
    .of_succ (.pure (henv.setFunction (.defined params body) hs)) fun _ => rfl

theorem statements_settles (hcalls : CallsSettle rank r) (value : Value) :
    ∀ (ss : List Statement) (env : Environment), Statement.DescendAll rank ss →
      (∀ g ∈ Statement.invokedAll ss, rank g < r) → env.Descends rank →
        Settles (fun p => p.2.Descends rank) (statements · value ss env)
  | [], _, _, _, henv => .of_succ (.pure henv) fun _ => rfl
  | s :: ss, env, hs, hr, henv => by
    rw [Statement.invokedAll, List.forall_mem_append] at hr
    refine .of_succ ?_ fun _ => rfl
    refine .bind (statement_settles hcalls s env hs.1 hr.1 henv) ?_
    rintro ⟨value, env⟩ henv
    exact statements_settles hcalls value ss env hs.2 hr.2 henv

end

/-- A function calls functions below its own rank, so the induction is on a
bound for the rank. -/
theorem callsSettle (rank : String → Nat) : ∀ r, CallsSettle rank r
  | 0, f, _, _, _, hr, _, _ => absurd hr (Nat.not_lt_zero (rank f))
  | r + 1, f, .embedded arity host, values, env, _, _, _ => by
    refine .of_succ ?_ fun _ => rfl
    exact .bind (.ask host (values.map Native.ofValue)) fun answer _ => .pure trivial
  | r + 1, f, .defined params body, values, env, hr, hf, henv => by
    have hbody : ∀ g ∈ Statement.invokedAll body, rank g < r := by
      intro g hg
      have := hf.1 g hg
      omega
    refine .of_succ ?_ fun _ => rfl
    refine .bind (statements_settles (callsSettle rank r) .null body _ hf.2 hbody
      (henv.frame (params.zip values))) ?_
    rintro ⟨value, _⟩ _
    exact .pure trivial

theorem node_settles {n : Node} {env : Environment} (hn : n.Descends rank)
    (hr : ∀ g ∈ n.invoked, rank g < r) (henv : env.Descends rank) :
    Settles (fun p => p.2.Descends rank) (n.evaluate · env) := by
  have hcalls := callsSettle rank r
  cases n with
  | expr e => exact (expr_settles hcalls e env hr henv).mono fun p hp => hp ▸ henv
  | statement s => exact statement_settles hcalls s env hn hr henv
  | block body => exact statements_settles hcalls .null body env hn hr henv
  | source program => exact statements_settles hcalls .null program.statements env hn hr henv

end

theorem exists_rank_above (rank : String → Nat) (names : List String) :
    ∃ r, ∀ g ∈ names, rank g < r := by
  induction names with
  | nil => exact ⟨0, nofun⟩
  | cons f names ih =>
    obtain ⟨r, hr⟩ := ih
    refine ⟨max (rank f + 1) r, List.forall_mem_cons.2 ⟨by omega, fun g hg => ?_⟩⟩
    have := hr g hg
    omega

end Evaluation

/-- Descending calls end. If there is no loop in a node, in what it defines and
in the functions that are bound, and functions have ranks so that all that is
bound to a name or defined under it calls names of a lower rank, then the run of
the node ends, with a result or an error, and with any amount of fuel from some
on in the same way. -/
theorem descending_calls_end {rank : String → Nat} {n : Node} {env : Environment}
    (hn : n.Descends rank) (henv : env.Descends rank) (trace : Trace) :
    ∃ outcome trace', outcome ≠ .exhausted ∧
      ∃ least, ∀ fuel, least ≤ fuel → n.evaluate fuel env trace = (outcome, trace') := by
  obtain ⟨r, hr⟩ := Evaluation.exists_rank_above rank n.invoked
  obtain ⟨least, outcome, trace', ho, hrun⟩ := Evaluation.node_settles hn hr henv trace
  refine ⟨outcome, trace', ?_, least, hrun⟩
  rintro rfl
  exact ho

def Environment.counting : Environment :=
  prelude.setFunction "thrice" (.defined ["x"]
    [.expression (.call "twice" [.variable "x"]), .expression (.call "print" [.variable "x"])])

def Node.renewing : Node := .block
  [.define "twice" ["x"]
    [.define "once" ["x"] [.expression (.call "print" [.variable "x"])],
      .expression (.call "once" [.call "once" [.variable "x"]])],
    .expression (.call "thrice" [.int 5]),
    .define "once" ["x"] [.expression (.variable "x")],
    .branch (.call "once" [.bool true])
      [.define "twice" ["x"] [.assign "x" (.call "once" [.call "once" [.variable "x"]])]] none,
    .expression (.call "thrice" [.int 7])]

def heightOf (f : String) : Nat :=
  if f = "thrice" then 3 else if f = "twice" then 2 else if f = "once" then 1 else 0

theorem Environment.counting_descends : counting.Descends heightOf := by
  intro f function hf
  simp only [counting, prelude, functionOf?_setFunction, functionOf?_empty] at hf
  split at hf
  · subst f
    cases hf
    simp [Function.Descends, Statement.DescendAll, Statement.Descends, Statement.invokedAll,
      Statement.invoked, Expr.called, Expr.calledAll, heightOf]
  · split at hf <;> cases hf
    trivial

theorem descending_calls_end_when_renewed :
    Node.renewing.Descends heightOf ∧ Environment.counting.Descends heightOf ∧
      ∃ outcome trace', outcome ≠ .exhausted ∧ ∃ least, ∀ fuel, least ≤ fuel →
        Node.renewing.evaluate fuel .counting [] = (outcome, trace') := by
  have hn : Node.renewing.Descends heightOf := by
    simp [Node.renewing, Node.Descends, Statement.DescendAll, Statement.Descends,
      Statement.invokedAll, Statement.invoked, Expr.called, Expr.calledAll, heightOf]
  exact ⟨hn, Environment.counting_descends,
    descending_calls_end hn Environment.counting_descends []⟩

end Script
