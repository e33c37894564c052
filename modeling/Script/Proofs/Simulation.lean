import Script.Proofs.Literals

/-!
# Runs that follow each other

One run follows another if it ends wherever the other does, with the same
error or with a related result, and adds the same events to what has been
observed. It may be given more fuel. What has been observed before is the same
for both, so a host function that looks at it answers both alike.

A run of a tree follows the run of the same tree with its literals put in
another way, if only the literals themselves do. So more fuel changes no run
that has ended.
-/

set_option autoImplicit false

namespace Script.Evaluation

/-- Wherever `x` ends, `y` ends, and both have added the same events. -/
structure Refines {α β : Type} (R : α → β → Prop) (x : Evaluation α) (y : Evaluation β) :
    Prop where
  done : ∀ {base trace : Trace} {a : α}, x base = (.done a, trace) →
    ∃ events b, trace = events ++ base ∧ y base = (.done b, trace) ∧ R a b
  failed : ∀ {base trace : Trace} {e : EvalError}, x base = (.failed e, trace) →
    ∃ events, trace = events ++ base ∧ y base = (.failed e, trace)

namespace Refines
variable {α β γ δ : Type} {R : α → β → Prop} {S : γ → δ → Prop}

theorem exhausted (y : Evaluation β) : Refines R Evaluation.exhausted y :=
  ⟨nofun, nofun⟩

theorem pure {a : α} {b : β} (h : R a b) : Refines R (Pure.pure a) (Pure.pure b) where
  done := by
    rintro base _ _ ⟨⟩
    exact ⟨[], b, rfl, rfl, h⟩
  failed := nofun

theorem fail (e : EvalError) :
    Refines R (Evaluation.fail e : Evaluation α) (Evaluation.fail e) where
  done := nofun
  failed := by
    rintro base _ _ ⟨⟩
    exact ⟨[], rfl, rfl⟩

theorem ofExcept (x : Except EvalError α) :
    Refines Eq (Evaluation.ofExcept x) (Evaluation.ofExcept x) := by
  cases x with
  | ok a => exact pure rfl
  | error e => exact fail e

theorem ask (host : Host) (arguments : List Native) :
    Refines Eq (Evaluation.ask host arguments) (Evaluation.ask host arguments) where
  done := by
    rintro base _ _ ⟨⟩
    exact ⟨(host.reply base arguments).2.reverse, _, rfl, rfl, rfl⟩
  failed := nofun

theorem bind {x : Evaluation α} {y : Evaluation β} {f : α → Evaluation γ}
    {g : β → Evaluation δ} (hx : Refines R x y) (hf : ∀ a b, R a b → Refines S (f a) (g b)) :
    Refines S (x >>= f) (y >>= g) where
  done := by
    intro base trace c h
    obtain ⟨a, trace₁, hr, hc⟩ | ⟨e, he, _⟩ := bind_cases h nofun
    · obtain ⟨first, b, rfl, hy, hab⟩ := hx.done hr
      obtain ⟨second, d, rfl, hg, hcd⟩ := (hf a b hab).done hc
      exact ⟨second ++ first, d, by rw [List.append_assoc], (bind_of_done hy g).trans hg, hcd⟩
    · cases he
  failed := by
    intro base trace e h
    obtain ⟨a, trace₁, hr, he⟩ | ⟨e', he, hr⟩ := bind_cases h nofun
    · obtain ⟨first, b, rfl, hy, hab⟩ := hx.done hr
      obtain ⟨second, rfl, hg⟩ := (hf a b hab).failed he
      exact ⟨second ++ first, by rw [List.append_assoc], (bind_of_done hy g).trans hg⟩
    · cases he
      obtain ⟨first, rfl, hy⟩ := hx.failed hr
      exact ⟨first, rfl, bind_of_failed hy g⟩

theorem mono {S : α → β → Prop} {x : Evaluation α} {y : Evaluation β} (h : Refines R x y)
    (hRS : ∀ a b, R a b → S a b) : Refines S x y where
  done := by
    intro base trace a ha
    obtain ⟨events, b, ht, hb, hab⟩ := h.done ha
    exact ⟨events, b, ht, hb, hRS a b hab⟩
  failed := h.failed

theorem of_pure {x : Evaluation α} {a : α} (h : Refines Eq x (Pure.pure a)) (b : β) :
    Refines (fun a' b' => a' = a ∧ b' = b) x (Pure.pure b) where
  done := by
    intro base trace a' ha
    obtain ⟨_, _, _, hp, rfl⟩ := h.done ha
    cases hp
    exact ⟨[], b, rfl, rfl, rfl, rfl⟩
  failed := by
    intro base trace e he
    obtain ⟨_, _, hp⟩ := h.failed he
    cases hp

end Refines

variable {more : Nat} {put put' : Int64 → Expr}

/-- Literals put in one way follow those put in the other: both are the
number and change nothing. -/
def Alike (more : Nat) (put put' : Int64 → Expr) : Prop :=
  ∀ (fuel : Nat) (n : Int64) (env env' : Environment),
    Refines (fun p q => p = (.int n, env) ∧ q = (.int n, env'))
      (expr fuel (put n) env) (expr (more + fuel) (put' n) env')

def Twins {α : Type} (put put' : Int64 → Expr) (p q : α × Environment) : Prop :=
  p.1 = q.1 ∧ ∃ env : Environment, p.2 = env.mapInts put ∧ q.2 = env.mapInts put'

theorem Twins.mk {α : Type} (a : α) (env : Environment) :
    Twins put put' (a, env.mapInts put) (a, env.mapInts put') :=
  ⟨rfl, env, rfl, rfl⟩

/-! ### One tree with its literals put in two ways

Each of these goes by the fuel, along the evaluator. The two runs stay in step
because every environment on the way is one environment put in two ways. -/

mutual

theorem expr_refines (h : Alike more put put') :
    ∀ (fuel : Nat) (e : Expr) (env : Environment), Refines (Twins put put')
      (expr fuel (e.mapInts put) (env.mapInts put))
      (expr (more + fuel) (e.mapInts put') (env.mapInts put'))
  | 0, _, _ => .exhausted _
  | fuel + 1, .int n, env => by
    -- the only place where the two trees differ
    have hn := h (fuel + 1) n (env.mapInts put) (env.mapInts put')
    refine hn.mono ?_
    rintro _ _ ⟨rfl, rfl⟩
    exact .mk _ env
  | _ + 1, .bool _, env => .pure (.mk _ env)
  | _ + 1, .string _, env => .pure (.mk _ env)
  | _ + 1, .null, env => .pure (.mk _ env)
  | _ + 1, .variable _, env => .pure (.mk _ env)
  | fuel + 1, .binary op left right, env => by
    refine Refines.bind (expr_refines h fuel left env) ?_
    rintro ⟨a, _⟩ ⟨_, _⟩ ⟨rfl, env₁, rfl, rfl⟩
    refine Refines.bind (expr_refines h fuel right env₁) ?_
    rintro ⟨b, _⟩ ⟨_, _⟩ ⟨rfl, env₂, rfl, rfl⟩
    refine Refines.bind (.ofExcept (op.apply a b)) ?_
    rintro value _ rfl
    exact .pure (.mk value env₂)
  | fuel + 1, .call f arguments, env => call_refines h fuel f arguments env

theorem call_refines (h : Alike more put put') :
    ∀ (fuel : Nat) (f : String) (arguments : List Expr) (env : Environment),
      Refines (Twins put put')
        (call fuel f (Expr.mapIntsAll put arguments) (env.mapInts put))
        (call (more + fuel) f (Expr.mapIntsAll put' arguments) (env.mapInts put'))
  | 0, _, _, _ => .exhausted _
  | fuel + 1, f, arguments, env => by
    rw [← Nat.add_assoc, call, call, Environment.functionOf?_mapInts,
      Environment.functionOf?_mapInts]
    cases env.functionOf? f with
    | none => exact .fail _
    | some function =>
      dsimp only [Option.map_some]
      -- arities are compared before any argument is run, and they are the same
      rw [Function.arity_mapInts, Function.arity_mapInts, Expr.length_mapIntsAll,
        Expr.length_mapIntsAll]
      refine Refines.bind (.ofExcept _) ?_
      rintro _ _ rfl
      refine Refines.bind (exprs_refines h fuel arguments env) ?_
      rintro ⟨values, _⟩ ⟨_, _⟩ ⟨rfl, env₁, rfl, rfl⟩
      refine Refines.bind (invoke_refines h fuel function values env₁) ?_
      rintro value _ rfl
      exact .pure (.mk value env₁)

theorem exprs_refines (h : Alike more put put') :
    ∀ (fuel : Nat) (es : List Expr) (env : Environment), Refines (Twins put put')
      (exprs fuel (Expr.mapIntsAll put es) (env.mapInts put))
      (exprs (more + fuel) (Expr.mapIntsAll put' es) (env.mapInts put'))
  | 0, _, _ => .exhausted _
  | _ + 1, [], env => .pure (.mk _ env)
  | fuel + 1, e :: es, env => by
    refine Refines.bind (expr_refines h fuel e env) ?_
    rintro ⟨value, _⟩ ⟨_, _⟩ ⟨rfl, env₁, rfl, rfl⟩
    refine Refines.bind (exprs_refines h fuel es env₁) ?_
    rintro ⟨values, _⟩ ⟨_, _⟩ ⟨rfl, env₂, rfl, rfl⟩
    exact .pure (.mk (value :: values) env₂)

theorem invoke_refines (h : Alike more put put') :
    ∀ (fuel : Nat) (function : Function) (values : List Value) (env : Environment),
      Refines Eq
        (invoke fuel (function.mapInts put) values (env.mapInts put))
        (invoke (more + fuel) (function.mapInts put') values (env.mapInts put'))
  | 0, _, _, _ => .exhausted _
  | _ + 1, .embedded _ host, values, _ => by
    refine Refines.bind (.ask host (values.map Native.ofValue)) ?_
    rintro answer _ rfl
    exact .pure rfl
  | fuel + 1, .defined params body, values, env => by
    refine Refines.bind
      (statements_refines h fuel .null body (env.frame (params.zip values))) ?_
    rintro ⟨value, _⟩ ⟨_, _⟩ ⟨rfl, _⟩
    exact .pure rfl

theorem statement_refines (h : Alike more put put') :
    ∀ (fuel : Nat) (s : Statement) (env : Environment), Refines (Twins put put')
      (statement fuel (s.mapInts put) (env.mapInts put))
      (statement (more + fuel) (s.mapInts put') (env.mapInts put'))
  | 0, _, _ => .exhausted _
  | fuel + 1, .expression e, env => expr_refines h fuel e env
  | fuel + 1, .assign x value, env => by
    refine Refines.bind (expr_refines h fuel value env) ?_
    rintro ⟨v, _⟩ ⟨_, _⟩ ⟨rfl, env₁, rfl, rfl⟩
    exact .pure (.mk Value.null (env₁.setVariable x v))
  | fuel + 1, .branch condition body none, env => by
    refine Refines.bind (expr_refines h fuel condition env) ?_
    rintro ⟨test, _⟩ ⟨_, _⟩ ⟨rfl, env₁, rfl, rfl⟩
    dsimp only
    split
    · exact statements_refines h fuel .null body env₁
    · exact .pure (.mk Value.null env₁)
  | fuel + 1, .branch condition body (some other), env => by
    refine Refines.bind (expr_refines h fuel condition env) ?_
    rintro ⟨test, _⟩ ⟨_, _⟩ ⟨rfl, env₁, rfl, rfl⟩
    dsimp only
    split
    · exact statements_refines h fuel .null body env₁
    · exact statements_refines h fuel .null other env₁
  | fuel + 1, .loop condition body, env => loop_refines h fuel .null condition body env
  | fuel + 1, .define f params body, env => by
    refine Refines.pure ⟨rfl, env.setFunction f (.defined params body), ?_, ?_⟩
    · exact (env.mapInts_setFunction f (.defined params body)).symm
    · exact (env.mapInts_setFunction f (.defined params body)).symm

theorem statements_refines (h : Alike more put put') :
    ∀ (fuel : Nat) (value : Value) (ss : List Statement) (env : Environment),
      Refines (Twins put put')
        (statements fuel value (Statement.mapIntsAll put ss) (env.mapInts put))
        (statements (more + fuel) value (Statement.mapIntsAll put' ss) (env.mapInts put'))
  | 0, _, _, _ => .exhausted _
  | _ + 1, value, [], env => .pure (.mk value env)
  | fuel + 1, _, s :: ss, env => by
    refine Refines.bind (statement_refines h fuel s env) ?_
    rintro ⟨value, _⟩ ⟨_, _⟩ ⟨rfl, env₁, rfl, rfl⟩
    exact statements_refines h fuel value ss env₁

theorem loop_refines (h : Alike more put put') :
    ∀ (fuel : Nat) (value : Value) (condition : Expr) (body : List Statement)
      (env : Environment), Refines (Twins put put')
        (loop fuel value (condition.mapInts put) (Statement.mapIntsAll put body)
          (env.mapInts put))
        (loop (more + fuel) value (condition.mapInts put') (Statement.mapIntsAll put' body)
          (env.mapInts put'))
  | 0, _, _, _, _ => .exhausted _
  | fuel + 1, value, condition, body, env => by
    refine Refines.bind (expr_refines h fuel condition env) ?_
    rintro ⟨test, _⟩ ⟨_, _⟩ ⟨rfl, env₁, rfl, rfl⟩
    dsimp only
    split
    · refine Refines.bind (statements_refines h fuel .null body env₁) ?_
      rintro ⟨value, _⟩ ⟨_, _⟩ ⟨rfl, env₂, rfl, rfl⟩
      exact loop_refines h fuel value condition body env₂
    · exact .pure (.mk value env₁)

end

/-! ### The same tree -/

theorem alike_int (more : Nat) : Alike more .int .int
  | 0, _, _, _ => .exhausted _
  | _ + 1, _, _, _ => .pure ⟨rfl, rfl⟩

theorem Twins.eq {α : Type} {p q : α × Environment} (h : Twins .int .int p q) : p = q := by
  obtain ⟨a, env₁⟩ := p
  obtain ⟨b, env₂⟩ := q
  obtain ⟨hab, env, h₁, h₂⟩ := h
  exact Prod.ext hab (h₁.trans h₂.symm)

theorem expr_again (more fuel : Nat) (e : Expr) (env : Environment) :
    Refines Eq (expr fuel e env) (expr (more + fuel) e env) := by
  have h := expr_refines (alike_int more) fuel e env
  rw [Expr.mapInts_int, Environment.mapInts_int] at h
  exact h.mono fun _ _ => Twins.eq

theorem statement_again (more fuel : Nat) (s : Statement)
    (env : Environment) :
    Refines Eq (statement fuel s env) (statement (more + fuel) s env) := by
  have h := statement_refines (alike_int more) fuel s env
  rw [Statement.mapInts_int, Environment.mapInts_int] at h
  exact h.mono fun _ _ => Twins.eq

theorem exprs_again (more fuel : Nat) (es : List Expr)
    (env : Environment) :
    Refines Eq (exprs fuel es env) (exprs (more + fuel) es env) := by
  have h := exprs_refines (alike_int more) fuel es env
  rw [Expr.mapIntsAll_int, Environment.mapInts_int] at h
  exact h.mono fun _ _ => Twins.eq

theorem statements_again (more fuel : Nat) (value : Value)
    (ss : List Statement) (env : Environment) :
    Refines Eq (statements fuel value ss env)
      (statements (more + fuel) value ss env) := by
  have h := statements_refines (alike_int more) fuel value ss env
  rw [Statement.mapIntsAll_int, Environment.mapInts_int] at h
  exact h.mono fun _ _ => Twins.eq

end Script.Evaluation
