import Script.Proofs.Simulation

/-!
# How runs end

With enough fuel a run either ends in one way, whatever the fuel, or never
ends. A run that ends adds to what has been observed and takes nothing away.
Statements in a row are one run after another, so a list of statements may be
cut anywhere.
-/

set_option autoImplicit false

namespace Script.Evaluation

/-- The run ends so if it is given enough fuel. -/
def Yields {α : Type} (x : Nat → Evaluation α) (trace : Trace)
    (outcome : Outcome EvalError α) (trace' : Trace) : Prop :=
  outcome ≠ .exhausted ∧ ∃ fuel, x fuel trace = (outcome, trace')

/-- How the run ends does not depend on the fuel. -/
def Steady {α : Type} (x : Nat → Evaluation α) : Prop :=
  ∀ more fuel : Nat, Refines Eq (x fuel) (x (more + fuel))

theorem steady_expr (e : Expr) (env : Environment) : Steady fun fuel => expr fuel e env :=
  fun more fuel => expr_again more fuel e env

theorem steady_statement (s : Statement) (env : Environment) :
    Steady fun fuel => statement fuel s env :=
  fun more fuel => statement_again more fuel s env

theorem steady_statements (value : Value) (ss : List Statement) (env : Environment) :
    Steady fun fuel => statements fuel value ss env :=
  fun more fuel => statements_again more fuel value ss env

theorem steady_exprs (es : List Expr) (env : Environment) :
    Steady fun fuel => exprs fuel es env :=
  fun more fuel => exprs_again more fuel es env

theorem steady_evaluate (node : Node) (env : Environment) :
    Steady fun fuel => node.evaluate fuel env := by
  cases node with
  | expr e => exact steady_expr e env
  | statement s => exact steady_statement s env
  | block body => exact steady_statements .null body env
  | source program => exact steady_statements .null program.statements env

variable {α β : Type} {x : Nat → Evaluation α} {f : α → Nat → Evaluation β}
  {trace trace₁ trace₂ : Trace}

theorem Steady.again (h : Steady x) {outcome : Outcome EvalError α} {fuel : Nat}
    (hr : x fuel trace = (outcome, trace₁)) (ho : outcome ≠ .exhausted) (more : Nat) :
    ∃ events, trace₁ = events ++ trace ∧ x (more + fuel) trace = (outcome, trace₁) := by
  have hx := h more fuel
  cases outcome with
  | done a =>
    obtain ⟨events, b, ht, hb, rfl⟩ := hx.done hr
    exact ⟨events, ht, hb⟩
  | failed e => exact hx.failed hr
  | exhausted => exact absurd rfl ho

theorem Steady.more (h : Steady x) {outcome : Outcome EvalError α} {fuel fuel' : Nat}
    (hr : x fuel trace = (outcome, trace₁)) (ho : outcome ≠ .exhausted) (hle : fuel ≤ fuel') :
    x fuel' trace = (outcome, trace₁) := by
  obtain ⟨_, _, hx⟩ := h.again hr ho (fuel' - fuel)
  rwa [Nat.sub_add_cancel hle] at hx

theorem Yields.unique (hx : Steady x) {p q : Outcome EvalError α}
    (hp : Yields x trace p trace₁) (hq : Yields x trace q trace₂) : p = q ∧ trace₁ = trace₂ := by
  obtain ⟨hp, m, hm⟩ := hp
  obtain ⟨hq, n, hn⟩ := hq
  have h := hx.more hm hp (Nat.le_max_left m n)
  rw [hx.more hn hq (Nat.le_max_right m n)] at h
  cases h
  exact ⟨rfl, rfl⟩

theorem Yields.adds (hx : Steady x) {outcome : Outcome EvalError α}
    (h : Yields x trace outcome trace₁) : ∃ events, trace₁ = events ++ trace := by
  obtain ⟨ho, fuel, hr⟩ := h
  obtain ⟨events, ht, _⟩ := hx.again hr ho 0
  exact ⟨events, ht⟩

/-- What is observed after some events comes after all of them. -/
theorem Yields.adds_to (hx : Steady x) {outcome : Outcome EvalError α} {base first all : Trace}
    (h : Yields x (first ++ base) outcome (all ++ base)) :
    ∃ rest, all = rest ++ first ∧
      Yields x (first ++ base) outcome (rest ++ (first ++ base)) := by
  obtain ⟨rest, htrace⟩ := h.adds hx
  have hall : all = rest ++ first := by
    rw [← List.append_assoc] at htrace
    exact List.append_cancel_right htrace
  rw [htrace] at h
  exact ⟨rest, hall, h⟩

theorem Steady.bind (hx : Steady x) (hf : ∀ a, Steady (f a)) :
    Steady fun fuel => x fuel >>= (f · fuel) := by
  intro more fuel
  refine Refines.bind (hx more fuel) ?_
  rintro a _ rfl
  exact hf a more fuel

theorem yields_bind_of_done (hx : Steady x) (hf : ∀ a, Steady (f a)) {a : α}
    (ha : Yields x trace (.done a) trace₁) {outcome : Outcome EvalError β} :
    Yields (fun fuel => x fuel >>= (f · fuel)) trace outcome trace₂ ↔
      Yields (f a) trace₁ outcome trace₂ := by
  obtain ⟨hn, m, hm⟩ := ha
  constructor
  · rintro ⟨ho, n, hr⟩
    refine ⟨ho, max m n, ?_⟩
    have hmax := (hx.bind hf).more hr ho (Nat.le_max_right m n)
    rwa [bind_of_done (hx.more hm hn (Nat.le_max_left m n))] at hmax
  · rintro ⟨ho, n, hr⟩
    have hmax := (hf a).more hr ho (Nat.le_max_right m n)
    exact ⟨ho, max m n, (bind_of_done (hx.more hm hn (Nat.le_max_left m n)) _).trans hmax⟩

theorem Yields.bind_cases {outcome : Outcome EvalError β}
    (h : Yields (fun fuel => x fuel >>= (f · fuel)) trace outcome trace₂) :
    (∃ a trace₁, Yields x trace (.done a) trace₁ ∧ Yields (f a) trace₁ outcome trace₂) ∨
      ∃ e, outcome = .failed e ∧ Yields x trace (.failed e) trace₂ := by
  obtain ⟨ho, n, hr⟩ := h
  obtain ⟨a, trace₁, hx, hf⟩ | ⟨e, he, hx⟩ := Evaluation.bind_cases hr ho
  · exact .inl ⟨a, trace₁, ⟨nofun, n, hx⟩, ho, n, hf⟩
  · exact .inr ⟨e, he, nofun, n, hx⟩

theorem Yields.bind_inv {b : β}
    (h : Yields (fun fuel => x fuel >>= (f · fuel)) trace (.done b) trace₂) :
    ∃ a trace₁, Yields x trace (.done a) trace₁ := by
  obtain ⟨a, trace₁, ha, _⟩ | ⟨e, he, _⟩ := h.bind_cases
  · exact ⟨a, trace₁, ha⟩
  · cases he

/-! ### Ends with enough fuel -/

/-- From some amount of fuel on the run ends so. -/
def Ends {α : Type} (x : Nat → Evaluation α) (trace : Trace) (outcome : Outcome EvalError α)
    (trace' : Trace) : Prop :=
  ∃ least, ∀ fuel, least ≤ fuel → x fuel trace = (outcome, trace')

theorem Ends.yields {outcome : Outcome EvalError α} (h : Ends x trace outcome trace₁)
    (ho : outcome ≠ .exhausted) : Yields x trace outcome trace₁ := by
  obtain ⟨least, hleast⟩ := h
  exact ⟨ho, least, hleast least (Nat.le_refl least)⟩

theorem Yields.ends (hx : Steady x) {outcome : Outcome EvalError α}
    (h : Yields x trace outcome trace₁) : Ends x trace outcome trace₁ := by
  obtain ⟨ho, least, hr⟩ := h
  exact ⟨least, fun fuel hfuel => hx.more hr ho hfuel⟩

namespace Ends

theorem of_succ {y : Nat → Evaluation α} {outcome : Outcome EvalError α}
    (h : Ends y trace outcome trace₁) (hxy : ∀ fuel, x (fuel + 1) = y fuel) :
    Ends x trace outcome trace₁ := by
  obtain ⟨least, hleast⟩ := h
  refine ⟨least + 1, fun fuel hfuel => ?_⟩
  obtain ⟨fuel, rfl⟩ := Nat.exists_eq_add_of_le' (Nat.le_trans (Nat.le_add_left 1 _) hfuel)
  rw [hxy, hleast fuel (by omega)]

theorem pure (a : α) (trace : Trace) : Ends (fun _ => Pure.pure a) trace (.done a) trace :=
  ⟨0, fun _ _ => rfl⟩

theorem bind {a : α} {outcome : Outcome EvalError β} (ha : Ends x trace (.done a) trace₁)
    (h : Ends (f a) trace₁ outcome trace₂) :
    Ends (fun fuel => x fuel >>= (f · fuel)) trace outcome trace₂ := by
  obtain ⟨m, hm⟩ := ha
  obtain ⟨n, hn⟩ := h
  refine ⟨max m n, fun fuel hfuel => ?_⟩
  show (x fuel >>= (f · fuel)) trace = (outcome, trace₂)
  rw [bind_of_done (hm fuel (by omega)), hn fuel (by omega)]

theorem bind_of_failed {e : EvalError} (h : Ends x trace (.failed e) trace₁) :
    Ends (fun fuel => x fuel >>= (f · fuel)) trace (.failed e) trace₁ := by
  obtain ⟨least, hleast⟩ := h
  exact ⟨least, fun fuel hfuel => Evaluation.bind_of_failed (hleast fuel hfuel) _⟩

theorem ite_pos {c : Prop} [Decidable c] {y : Nat → Evaluation α}
    {outcome : Outcome EvalError α} (hc : c) (h : Ends x trace outcome trace₁) :
    Ends (fun fuel => if c then x fuel else y fuel) trace outcome trace₁ := by
  simpa only [if_pos hc] using h

theorem ite_neg {c : Prop} [Decidable c] {y : Nat → Evaluation α}
    {outcome : Outcome EvalError α} (hc : ¬ c) (h : Ends y trace outcome trace₁) :
    Ends (fun fuel => if c then x fuel else y fuel) trace outcome trace₁ := by
  simpa only [if_neg hc] using h

end Ends

section
variable {R : α → β → Prop} (y : Nat → Evaluation β) (more : Nat)

theorem Yields.done_of_refines (h : ∀ fuel, Refines R (x fuel) (y (more + fuel))) {a : α}
    (ha : Yields x trace (.done a) trace₁) :
    ∃ b, Yields y trace (.done b) trace₁ ∧ R a b := by
  obtain ⟨_, fuel, hr⟩ := ha
  obtain ⟨_, b, _, hy, hab⟩ := (h fuel).done hr
  exact ⟨b, ⟨nofun, more + fuel, hy⟩, hab⟩

theorem Yields.failed_of_refines (h : ∀ fuel, Refines R (x fuel) (y (more + fuel)))
    {e : EvalError} (he : Yields x trace (.failed e) trace₁) :
    Yields y trace (.failed e) trace₁ := by
  obtain ⟨_, fuel, hr⟩ := he
  obtain ⟨_, _, hy⟩ := (h fuel).failed hr
  exact ⟨nofun, more + fuel, hy⟩

end

/-! ### Statements in a row -/

theorem yields_statements_nil {value : Value} {env : Environment}
    {outcome : Outcome EvalError (Value × Environment)} :
    Yields (statements · value [] env) trace outcome trace₁ ↔
      outcome = .done (value, env) ∧ trace₁ = trace := by
  constructor
  · rintro ⟨ho, fuel, hr⟩
    cases fuel with
    | zero =>
      cases hr
      exact absurd rfl ho
    | succ fuel =>
      cases hr
      exact ⟨rfl, rfl⟩
  · rintro ⟨rfl, rfl⟩
    exact ⟨nofun, 1, rfl⟩

theorem yields_statements_cons {value : Value} {s : Statement} {ss : List Statement}
    {env : Environment} {outcome : Outcome EvalError (Value × Environment)} :
    Yields (statements · value (s :: ss) env) trace outcome trace₁ ↔
      Yields (fun fuel => statement fuel s env >>= fun p => statements fuel p.1 ss p.2)
        trace outcome trace₁ := by
  constructor
  · rintro ⟨ho, fuel, hr⟩
    cases fuel with
    | zero =>
      cases hr
      exact absurd rfl ho
    | succ fuel => exact ⟨ho, fuel, hr⟩
  · rintro ⟨ho, fuel, hr⟩
    exact ⟨ho, fuel + 1, hr⟩

theorem yields_statements_cons_iff {value : Value} {s : Statement} {ss : List Statement}
    {env : Environment} {outcome : Outcome EvalError (Value × Environment)} :
    Yields (statements · value (s :: ss) env) trace outcome trace₂ ↔
      (∃ v env₁ trace₁, Yields (statement · s env) trace (.done (v, env₁)) trace₁ ∧
        Yields (statements · v ss env₁) trace₁ outcome trace₂) ∨
      ∃ e, outcome = .failed e ∧ Yields (statement · s env) trace (.failed e) trace₂ := by
  have hs := steady_statement s env
  have hss (p : Value × Environment) : Steady fun fuel => statements fuel p.1 ss p.2 :=
    steady_statements p.1 ss p.2
  rw [yields_statements_cons]
  constructor
  · intro h
    obtain ⟨p, trace₁, hfirst, hrest⟩ | hfails := h.bind_cases
    · exact .inl ⟨p.1, p.2, trace₁, hfirst, hrest⟩
    · exact .inr hfails
  · rintro (⟨v, env₁, trace₁, hfirst, hrest⟩ | ⟨e, rfl, hfails⟩)
    · exact (yields_bind_of_done hs hss hfirst).2 hrest
    · exact (hfails.ends hs).bind_of_failed.yields nofun

theorem yields_statements_singleton {value : Value} {s : Statement} {env : Environment}
    {outcome : Outcome EvalError (Value × Environment)} :
    Yields (statements · value [s] env) trace outcome trace₁ ↔
      Yields (statement · s env) trace outcome trace₁ := by
  rw [yields_statements_cons_iff]
  constructor
  · rintro (⟨v, env₁, trace₁, hfirst, hrest⟩ | ⟨e, rfl, hfails⟩)
    · obtain ⟨rfl, rfl⟩ := yields_statements_nil.1 hrest
      exact hfirst
    · exact hfails
  · intro h
    cases outcome with
    | done p => exact .inl ⟨p.1, p.2, trace₁, h, yields_statements_nil.2 ⟨rfl, rfl⟩⟩
    | failed e => exact .inr ⟨e, rfl, h⟩
    | exhausted => exact absurd rfl h.1

/-- Statements after others that have ended go on from where those ended. -/
theorem yields_statements_append {value v : Value} {ss more : List Statement}
    {env env₁ : Environment} (h : Yields (statements · value ss env) trace (.done (v, env₁)) trace₁)
    {outcome : Outcome EvalError (Value × Environment)} :
    Yields (statements · value (ss ++ more) env) trace outcome trace₂ ↔
      Yields (statements · v more env₁) trace₁ outcome trace₂ := by
  induction ss generalizing value env trace with
  | nil =>
    obtain ⟨hv, rfl⟩ := yields_statements_nil.1 h
    cases hv
    rfl
  | cons s ss ih =>
    -- the first statement ends in both lists, and the same way
    have hs := steady_statement s env
    have hrest (rest : List Statement) (p : Value × Environment) :
        Steady fun fuel => statements fuel p.1 rest p.2 := steady_statements p.1 rest p.2
    rw [yields_statements_cons] at h
    obtain ⟨p, trace', hp⟩ := h.bind_inv
    have h := (yields_bind_of_done hs (hrest ss) hp).1 h
    rw [List.cons_append, yields_statements_cons, yields_bind_of_done hs (hrest _) hp]
    exact ih h

theorem yields_statements_of_ne_nil {ss : List Statement} (hss : ss ≠ []) (v w : Value)
    {env : Environment} {outcome : Outcome EvalError (Value × Environment)} :
    Yields (statements · v ss env) trace outcome trace₁ ↔
      Yields (statements · w ss env) trace outcome trace₁ := by
  cases ss with
  | nil => exact absurd rfl hss
  | cons s ss => rw [yields_statements_cons, yields_statements_cons]

end Script.Evaluation
