import Script.Evaluation

/-!
# What a result is sure to be

A condition on the results of a run, whatever has been observed before it and
however much fuel it has, and one on its errors. The first use: expressions
leave the environment as it is, since a call gives back the environment of its
caller.
-/

set_option autoImplicit false

namespace Script

/-! ### The errors of a call -/

/-- The errors of a call that is not even tried: there is no such function, or
it takes another number of arguments. -/
def EvalError.OfCall : EvalError → Prop
  | .undefinedFunction _ => True
  | .argumentCount _ _ _ => True
  | _ => False

namespace Operator
variable {op : Operator} {e : EvalError}

theorem not_ofCall_of_fitting {n : Int} (h : op.fitting n = .error e) : ¬ e.OfCall := by
  unfold fitting at h
  split at h <;> cases h
  exact id

theorem not_ofCall_of_compute {m n : Int64} (h : op.compute m n = .error e) : ¬ e.OfCall := by
  unfold compute at h
  split at h
  · exact not_ofCall_of_fitting h
  · exact not_ofCall_of_fitting h
  · exact not_ofCall_of_fitting h
  · split at h
    · cases h
      exact id
    · exact not_ofCall_of_fitting h
  · cases h
    exact id

theorem not_ofCall_of_arithmetic {a b : Value} (h : op.arithmetic a b = .error e) :
    ¬ e.OfCall := by
  unfold arithmetic at h
  split at h
  · next m n =>
    cases hc : op.compute m n with
    | ok k =>
      rw [hc] at h
      cases h
    | error e' =>
      rw [hc] at h
      cases h
      exact not_ofCall_of_compute hc
  · split at h <;> cases h
    exact id
  · cases h
    exact id

theorem not_ofCall_of_comparison {a b : Value} (h : op.comparison a b = .error e) :
    ¬ e.OfCall := by
  unfold comparison at h
  split at h
  · cases h
  · cases h
  · split at h <;> cases h
    exact id

theorem not_ofCall_of_apply {a b : Value} (h : op.apply a b = .error e) : ¬ e.OfCall := by
  unfold apply at h
  split at h
  · exact not_ofCall_of_comparison h
  · exact not_ofCall_of_arithmetic h

end Operator

namespace Evaluation

structure Ensures {α : Type} (P : α → Prop) (x : Evaluation α) : Prop where
  result : ∀ {trace trace' : Trace} {a : α}, x trace = (.done a, trace') → P a

namespace Ensures
variable {α β : Type} {P : α → Prop} {Q : β → Prop}

theorem exhausted : Ensures P Evaluation.exhausted :=
  ⟨nofun⟩

theorem fail (e : EvalError) : Ensures P (Evaluation.fail e) :=
  ⟨nofun⟩

theorem pure {a : α} (h : P a) : Ensures P (Pure.pure a) where
  result := by
    rintro _ _ _ ⟨⟩
    exact h

theorem any (x : Evaluation α) : Ensures (fun _ => True) x :=
  ⟨fun _ => trivial⟩

theorem mono {P' : α → Prop} {x : Evaluation α} (h : Ensures P x) (hP : ∀ a, P a → P' a) :
    Ensures P' x :=
  ⟨fun hx => hP _ (h.result hx)⟩

theorem bind {x : Evaluation α} {f : α → Evaluation β} (hx : Ensures P x)
    (hf : ∀ a, P a → Ensures Q (f a)) : Ensures Q (x >>= f) where
  result := by
    intro trace trace' b h
    obtain ⟨a, trace₁, hr, hb⟩ | ⟨e, he, _⟩ := bind_cases h nofun
    · exact (hf a (hx.result hr)).result hb
    · cases he

end Ensures

/-- Every result of the run meets one condition, and every error another. -/
structure Obeys {α : Type} (P : α → Prop) (E : EvalError → Prop) (x : Evaluation α) : Prop
    extends Ensures P x where
  error : ∀ {trace trace' : Trace} {e : EvalError}, x trace = (.failed e, trace') → E e

namespace Obeys
variable {α β : Type} {P : α → Prop} {Q : β → Prop} {E : EvalError → Prop}

theorem exhausted : Obeys P E Evaluation.exhausted :=
  ⟨.exhausted, nofun⟩

theorem pure {a : α} (h : P a) : Obeys P E (Pure.pure a) :=
  ⟨.pure h, nofun⟩

theorem ofExcept {x : Except EvalError α} (h : ∀ e, x = .error e → E e) :
    Obeys (fun a => x = .ok a) E (Evaluation.ofExcept x) := by
  cases x with
  | ok a => exact .pure rfl
  | error e =>
    refine ⟨.fail e, ?_⟩
    rintro _ _ _ ⟨⟩
    exact h e rfl

theorem ask (host : Host) (arguments : List Native) :
    Obeys (fun _ => True) E (Evaluation.ask host arguments) :=
  ⟨.any _, nofun⟩

theorem bind {x : Evaluation α} {f : α → Evaluation β} (hx : Obeys P E x)
    (hf : ∀ a, P a → Obeys Q E (f a)) : Obeys Q E (x >>= f) where
  toEnsures := hx.toEnsures.bind fun a ha => (hf a ha).toEnsures
  error := by
    intro trace trace' e h
    obtain ⟨a, trace₁, hr, he⟩ | ⟨e', he, hr⟩ := bind_cases h nofun
    · exact (hf a (hx.result hr)).error he
    · cases he
      exact hx.error hr

end Obeys

/-! ### Expressions keep the environment

The induction is on the fuel. What the body of a function leaves does not
matter, since only its value is taken. -/

abbrev Keeps {α : Type} (env : Environment) (x : Evaluation (α × Environment)) : Prop :=
  Ensures (fun p => p.2 = env) x

mutual

theorem expr_keeps : ∀ (fuel : Nat) (e : Expr) (env : Environment), Keeps env (expr fuel e env)
  | 0, _, _ => .exhausted
  | _ + 1, .int _, _ => .pure rfl
  | _ + 1, .bool _, _ => .pure rfl
  | _ + 1, .string _, _ => .pure rfl
  | _ + 1, .null, _ => .pure rfl
  | _ + 1, .variable _, _ => .pure rfl
  | fuel + 1, .binary op left right, env => by
    apply Ensures.bind (expr_keeps fuel left env)
    rintro ⟨a, _⟩ rfl
    apply Ensures.bind (expr_keeps fuel right _)
    rintro ⟨b, _⟩ rfl
    apply Ensures.bind (.any (ofExcept (op.apply a b)))
    intro value _
    exact .pure rfl
  | fuel + 1, .call f arguments, env => call_keeps fuel f arguments env

theorem call_keeps : ∀ (fuel : Nat) (f : String) (arguments : List Expr) (env : Environment),
    Keeps env (call fuel f arguments env)
  | 0, _, _, _ => .exhausted
  | fuel + 1, f, arguments, env => by
    rw [call]
    cases env.functionOf? f with
    | none => exact .fail _
    | some function =>
      apply Ensures.bind (.any (ofExcept _))
      intro _ _
      apply Ensures.bind (exprs_keeps fuel arguments env)
      rintro ⟨values, _⟩ rfl
      apply Ensures.bind (.any (invoke fuel function values _))
      intro value _
      exact .pure rfl

theorem exprs_keeps : ∀ (fuel : Nat) (es : List Expr) (env : Environment),
    Keeps env (exprs fuel es env)
  | 0, _, _ => .exhausted
  | _ + 1, [], _ => .pure rfl
  | fuel + 1, e :: es, env => by
    apply Ensures.bind (expr_keeps fuel e env)
    rintro ⟨value, _⟩ rfl
    apply Ensures.bind (exprs_keeps fuel es _)
    rintro ⟨values, _⟩ rfl
    exact .pure rfl

end

end Evaluation

end Script
