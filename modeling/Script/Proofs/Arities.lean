import Script.Proofs.Changes

/-!
# Calls that fit

A table says how many arguments functions take. A tree fits the table if it
calls only functions of the table, each with as many arguments as it takes,
and gives a function of the table no other number of parameters. An
environment fits if it has all functions of the table and if the bodies of its
functions fit, whatever their names.

A tree that fits, run under an environment that fits, leaves one that fits.
No call in it is refused, however deep, because a function can be replaced but
always by one that takes as many arguments. So a program that first defines
what it calls can never fail on a call.
-/

set_option autoImplicit false

namespace Script

structure Signature where
  name : String
  arity : Nat
  deriving DecidableEq

/-! ### What a tree calls and defines -/

mutual

def Expr.calls : Expr → List Signature
  | .int _ => []
  | .bool _ => []
  | .string _ => []
  | .null => []
  | .variable _ => []
  | .binary _ left right => left.calls ++ right.calls
  | .call f arguments => ⟨f, arguments.length⟩ :: Expr.callsAll arguments

def Expr.callsAll : List Expr → List Signature
  | [] => []
  | e :: es => e.calls ++ Expr.callsAll es

end

mutual

/-- The calls in a statement, in the bodies of definitions too. -/
def Statement.calls : Statement → List Signature
  | .expression e => e.calls
  | .assign _ value => value.calls
  | .branch condition body none => condition.calls ++ Statement.callsAll body
  | .branch condition body (some otherwise) =>
    condition.calls ++ (Statement.callsAll body ++ Statement.callsAll otherwise)
  | .loop condition body => condition.calls ++ Statement.callsAll body
  | .define _ _ body => Statement.callsAll body

def Statement.callsAll : List Statement → List Signature
  | [] => []
  | s :: ss => s.calls ++ Statement.callsAll ss

end

mutual

/-- The functions that are defined in a statement, in the bodies of
definitions too. -/
def Statement.signatures : Statement → List Signature
  | .expression _ => []
  | .assign _ _ => []
  | .branch _ body none => Statement.signaturesAll body
  | .branch _ body (some otherwise) =>
    Statement.signaturesAll body ++ Statement.signaturesAll otherwise
  | .loop _ body => Statement.signaturesAll body
  | .define f params body => ⟨f, params.length⟩ :: Statement.signaturesAll body

def Statement.signaturesAll : List Statement → List Signature
  | [] => []
  | s :: ss => s.signatures ++ Statement.signaturesAll ss

end

namespace Node

def calls : Node → List Signature
  | .expr e => e.calls
  | .statement s => s.calls
  | .block body => Statement.callsAll body
  | .source program => Statement.callsAll program.statements

def signatures : Node → List Signature
  | .expr _ => []
  | .statement s => s.signatures
  | .block body => Statement.signaturesAll body
  | .source program => Statement.signaturesAll program.statements

end Node

namespace Function

def calls : Function → List Signature
  | .defined _ body => Statement.callsAll body
  | .embedded _ _ => []

def signatures : Function → List Signature
  | .defined _ body => Statement.signaturesAll body
  | .embedded _ _ => []

end Function

/-! ### Fitting a table -/

abbrev Arities := Bindings Nat

namespace Arities

abbrev Covers (G : Arities) (calls : List Signature) : Prop :=
  ∀ c ∈ calls, G[c.name]? = some c.arity

abbrev Permits (G : Arities) (signatures : List Signature) : Prop :=
  ∀ d ∈ signatures, ∀ n ∈ G[d.name]?, n = d.arity

end Arities

structure Node.Fits (G : Arities) (n : Node) : Prop where
  calls : G.Covers n.calls
  signatures : G.Permits n.signatures

structure Function.Fits (G : Arities) (function : Function) : Prop where
  calls : G.Covers function.calls
  signatures : G.Permits function.signatures

/-- All functions of the table are there, and the body of every function fits,
also of one that is not in the table. -/
structure Environment.Fits (G : Arities) (env : Environment) : Prop where
  arities : ∀ f n, G[f]? = some n → (env.functionOf? f).map Function.arity = some n
  bodies : ∀ f function, env.functionOf? f = some function → function.Fits G

variable {G : Arities} {env : Environment}

namespace Environment.Fits

theorem setVariable (h : env.Fits G) (x : String) (v : Value) : (env.setVariable x v).Fits G :=
  ⟨h.arities, h.bodies⟩

theorem frame (h : env.Fits G) (bindings : List (String × Value)) : (env.frame bindings).Fits G :=
  ⟨h.arities, h.bodies⟩

end Environment.Fits

/-- The environment fits but for some functions that are still to be defined. -/
structure Environment.Awaits (G : Arities) (names : List String) (env : Environment) : Prop where
  arities : ∀ f n, G[f]? = some n → (env.functionOf? f).map Function.arity = some n ∨ f ∈ names
  bodies : ∀ f function, env.functionOf? f = some function → function.Fits G

namespace Environment.Awaits

theorem setFunction {f : String} {names : List String} (h : env.Awaits G (f :: names))
    {function : Function} (hf : function.Fits G) (hn : ∀ n, G[f]? = some n → n = function.arity) :
    (env.setFunction f function).Awaits G names where
  arities g n hg := by
    rw [functionOf?_setFunction]
    by_cases hfg : f = g
    · subst hfg
      rw [if_pos rfl, hn n hg]
      exact .inl rfl
    · rw [if_neg hfg]
      exact (h.arities g n hg).imp_right fun hmem =>
        (List.mem_cons.1 hmem).resolve_left (Ne.symm hfg)
  bodies g function' hg := by
    rw [functionOf?_setFunction] at hg
    by_cases hfg : f = g
    · rw [if_pos hfg] at hg
      cases hg
      exact hf
    · rw [if_neg hfg] at hg
      exact h.bodies g function' hg

theorem fits (h : env.Awaits G []) : env.Fits G :=
  ⟨fun f n hf => (h.arities f n hf).resolve_right List.not_mem_nil, h.bodies⟩

end Environment.Awaits

theorem Environment.Fits.setFunction (h : env.Fits G) {f : String} {function : Function}
    (hf : function.Fits G) (hn : ∀ n, G[f]? = some n → n = function.arity) :
    (env.setFunction f function).Fits G := by
  have hawaits : env.Awaits G [f] := ⟨fun g n hg => .inl (h.arities g n hg), h.bodies⟩
  exact (hawaits.setFunction hf hn).fits

namespace Evaluation

abbrev Fitting {α : Type} (G : Arities) (x : Evaluation (α × Environment)) : Prop :=
  Obeys (fun p => p.2.Fits G) (fun e => ¬ e.OfCall) x

theorem fitting_apply (op : Operator) (a b : Value) :
    Obeys (fun v => op.apply a b = .ok v) (fun e => ¬ e.OfCall) (ofExcept (op.apply a b)) :=
  .ofExcept fun _ => Operator.not_ofCall_of_apply

theorem fitting_checkArity (f : String) (n : Nat) :
    Obeys (fun _ => True) (fun e => ¬ e.OfCall) (ofExcept (checkArity f n n)) := by
  rw [checkArity, if_pos rfl]
  exact .pure trivial

mutual

theorem expr_fitting : ∀ (fuel : Nat) (e : Expr) {env : Environment}, G.Covers e.calls →
    env.Fits G → Fitting G (expr fuel e env)
  | 0, _, _, _, _ => .exhausted
  | _ + 1, .int _, _, _, h => .pure h
  | _ + 1, .bool _, _, _, h => .pure h
  | _ + 1, .string _, _, _, h => .pure h
  | _ + 1, .null, _, _, h => .pure h
  | _ + 1, .variable _, _, _, h => .pure h
  | fuel + 1, .binary op left right, _, hc, h => by
    obtain ⟨hl, hr⟩ := List.forall_mem_append.1 hc
    apply Obeys.bind (expr_fitting fuel left hl h)
    rintro ⟨a, env₁⟩ h₁
    apply Obeys.bind (expr_fitting fuel right hr h₁)
    rintro ⟨b, env₂⟩ h₂
    apply Obeys.bind (fitting_apply op a b)
    intro value _
    exact .pure h₂
  | fuel + 1, .call f arguments, _, hc, h => call_fitting fuel f arguments hc h

theorem call_fitting : ∀ (fuel : Nat) (f : String) (arguments : List Expr) {env : Environment},
    G.Covers (⟨f, arguments.length⟩ :: Expr.callsAll arguments) → env.Fits G →
      Fitting G (call fuel f arguments env)
  | 0, _, _, _, _, _ => .exhausted
  | fuel + 1, f, arguments, env, hc, h => by
    obtain ⟨hf, hc⟩ := List.forall_mem_cons.1 hc
    obtain ⟨function, hfunction, harity⟩ := Option.map_eq_some_iff.1 (h.arities f _ hf)
    rw [call, hfunction]
    dsimp only
    rw [harity]
    apply Obeys.bind (fitting_checkArity f _)
    intro _ _
    apply Obeys.bind (exprs_fitting fuel arguments hc h)
    rintro ⟨values, env₁⟩ h₁
    apply Obeys.bind (invoke_fitting fuel function values (h.bodies f function hfunction) h₁)
    intro value _
    exact .pure h₁

theorem exprs_fitting : ∀ (fuel : Nat) (es : List Expr) {env : Environment},
    G.Covers (Expr.callsAll es) → env.Fits G → Fitting G (exprs fuel es env)
  | 0, _, _, _, _ => .exhausted
  | _ + 1, [], _, _, h => .pure h
  | fuel + 1, e :: es, _, hc, h => by
    obtain ⟨he, hc⟩ := List.forall_mem_append.1 hc
    apply Obeys.bind (expr_fitting fuel e he h)
    rintro ⟨value, env₁⟩ h₁
    apply Obeys.bind (exprs_fitting fuel es hc h₁)
    rintro ⟨values, env₂⟩ h₂
    exact .pure h₂

theorem invoke_fitting : ∀ (fuel : Nat) (function : Function) (values : List Value)
    {env : Environment}, function.Fits G → env.Fits G →
      Obeys (fun _ => True) (fun e => ¬ e.OfCall) (invoke fuel function values env)
  | 0, _, _, _, _, _ => .exhausted
  | _ + 1, .embedded _ host, values, _, _, _ => by
    apply Obeys.bind (.ask host (values.map Native.ofValue))
    intro answer _
    exact .pure trivial
  | fuel + 1, .defined params body, values, _, hf, h => by
    apply Obeys.bind (statements_fitting fuel .null body hf.calls hf.signatures (h.frame _))
    rintro ⟨value, _⟩ _
    exact .pure trivial

theorem statement_fitting : ∀ (fuel : Nat) (s : Statement) {env : Environment},
    G.Covers s.calls → G.Permits s.signatures → env.Fits G → Fitting G (statement fuel s env)
  | 0, _, _, _, _, _ => .exhausted
  | fuel + 1, .expression e, _, hc, _, h => expr_fitting fuel e hc h
  | fuel + 1, .assign x value, _, hc, _, h => by
    apply Obeys.bind (expr_fitting fuel value hc h)
    rintro ⟨v, env₁⟩ h₁
    exact .pure (h₁.setVariable x v)
  | fuel + 1, .branch condition body none, _, hc, hd, h => by
    obtain ⟨hc, hbody⟩ := List.forall_mem_append.1 hc
    apply Obeys.bind (expr_fitting fuel condition hc h)
    rintro ⟨test, env₁⟩ h₁
    dsimp only
    split
    · exact statements_fitting fuel .null body hbody hd h₁
    · exact .pure h₁
  | fuel + 1, .branch condition body (some other), _, hc, hd, h => by
    obtain ⟨hc, hbodies⟩ := List.forall_mem_append.1 hc
    obtain ⟨hbody, hother⟩ := List.forall_mem_append.1 hbodies
    obtain ⟨hd, hd'⟩ := List.forall_mem_append.1 hd
    apply Obeys.bind (expr_fitting fuel condition hc h)
    rintro ⟨test, env₁⟩ h₁
    dsimp only
    split
    · exact statements_fitting fuel .null body hbody hd h₁
    · exact statements_fitting fuel .null other hother hd' h₁
  | fuel + 1, .loop condition body, _, hc, hd, h =>
    loop_fitting fuel .null condition body hc hd h
  | _ + 1, .define f params body, _, hc, hd, h => by
    obtain ⟨hf, hd⟩ := List.forall_mem_cons.1 hd
    exact .pure (h.setFunction ⟨hc, hd⟩ hf)

theorem statements_fitting : ∀ (fuel : Nat) (value : Value) (ss : List Statement)
    {env : Environment}, G.Covers (Statement.callsAll ss) →
      G.Permits (Statement.signaturesAll ss) → env.Fits G →
        Fitting G (statements fuel value ss env)
  | 0, _, _, _, _, _, _ => .exhausted
  | _ + 1, _, [], _, _, _, h => .pure h
  | fuel + 1, _, s :: ss, _, hc, hd, h => by
    obtain ⟨hs, hc⟩ := List.forall_mem_append.1 hc
    obtain ⟨hsd, hd⟩ := List.forall_mem_append.1 hd
    apply Obeys.bind (statement_fitting fuel s hs hsd h)
    rintro ⟨value, env₁⟩ h₁
    exact statements_fitting fuel value ss hc hd h₁

theorem loop_fitting : ∀ (fuel : Nat) (value : Value) (condition : Expr)
    (body : List Statement) {env : Environment},
      G.Covers (condition.calls ++ Statement.callsAll body) →
        G.Permits (Statement.signaturesAll body) → env.Fits G →
          Fitting G (loop fuel value condition body env)
  | 0, _, _, _, _, _, _, _ => .exhausted
  | fuel + 1, value, condition, body, _, hc, hd, h => by
    obtain ⟨hcond, hbody⟩ := List.forall_mem_append.1 hc
    apply Obeys.bind (expr_fitting fuel condition hcond h)
    rintro ⟨test, env₁⟩ h₁
    dsimp only
    split
    · apply Obeys.bind (statements_fitting fuel .null body hbody hd h₁)
      rintro ⟨value, env₂⟩ h₂
      exact loop_fitting fuel value condition body hc hd h₂
    · exact .pure h₁

end

theorem node_fitting {n : Node} (hn : n.Fits G) (h : env.Fits G) (fuel : Nat) :
    Fitting G (n.evaluate fuel env) := by
  obtain ⟨hc, hd⟩ := hn
  cases n with
  | expr e => exact expr_fitting fuel e hc h
  | statement s => exact statement_fitting fuel s hc hd h
  | block body => exact statements_fitting fuel .null body hc hd h
  | source program => exact statements_fitting fuel .null program.statements hc hd h

end Evaluation

/-! ### Tables of signatures -/

def Signature.Agree (cs : List Signature) : Prop :=
  ∀ c ∈ cs, ∀ d ∈ cs, c.name = d.name → c.arity = d.arity

instance (cs : List Signature) : Decidable (Signature.Agree cs) :=
  inferInstanceAs (Decidable (∀ c ∈ cs, ∀ d ∈ cs, _ → _))

namespace Arities

def of : List Signature → Arities
  | [] => ∅
  | c :: cs => (of cs).insert c.name c.arity

theorem getElem?_of_cons (c : Signature) (cs : List Signature) (f : String) :
    (of (c :: cs))[f]? = if c.name = f then some c.arity else (of cs)[f]? := by
  simp only [of, Std.ExtTreeMap.getElem?_insert, Std.LawfulEqCmp.compare_eq_iff_eq]

theorem mem_of_getElem? {cs : List Signature} {f : String} {n : Nat}
    (h : (of cs)[f]? = some n) : ⟨f, n⟩ ∈ cs := by
  induction cs with
  | nil => simp [of] at h
  | cons c cs ih =>
    rw [getElem?_of_cons] at h
    by_cases hf : c.name = f
    · rw [if_pos hf] at h
      cases h
      rw [← hf]
      exact List.mem_cons_self
    · rw [if_neg hf] at h
      exact List.mem_cons_of_mem c (ih h)

theorem exists_getElem?_of_mem {cs : List Signature} {c : Signature} (h : c ∈ cs) :
    ∃ n, (of cs)[c.name]? = some n := by
  induction cs with
  | nil => cases h
  | cons d cs ih =>
    rw [getElem?_of_cons]
    by_cases hd : d.name = c.name
    · exact ⟨_, if_pos hd⟩
    · rw [if_neg hd]
      apply ih
      exact (List.mem_cons.1 h).resolve_left fun hc => hd (by rw [hc])

theorem covers_of {cs calls : List Signature} (h : Signature.Agree cs)
    (hcalls : ∀ c ∈ calls, c ∈ cs) : (of cs).Covers calls := by
  intro c hc
  obtain ⟨n, hn⟩ := exists_getElem?_of_mem (hcalls c hc)
  have harity : n = c.arity := h _ (mem_of_getElem? hn) c (hcalls c hc) rfl
  rw [hn, harity]

theorem permits_of {cs ds : List Signature} (h : Signature.Agree ds) (hcs : ∀ c ∈ cs, c ∈ ds)
    {signatures : List Signature} (hsignatures : ∀ d ∈ signatures, d ∈ ds) :
    (of cs).Permits signatures :=
  fun d hd _ hn => h _ (hcs _ (mem_of_getElem? hn)) d (hsignatures d hd) rfl

end Arities

/-! ### Programs that define first -/

namespace Evaluation

/-- The definitions at the head of a program make the environment fit, and
then the rest of the program is run under it. -/
theorem definitions_fitting {defs rest : List Statement}
    (hdefs : ∀ s ∈ defs, s.definition?.isSome) (fuel : Nat) (value : Value) {env : Environment}
    (hc : G.Covers (Statement.callsAll (defs ++ rest)))
    (hd : G.Permits (Statement.signaturesAll (defs ++ rest)))
    (h : env.Awaits G (Statement.definedAll defs)) :
    Fitting G (statements fuel value (defs ++ rest) env) := by
  induction defs generalizing fuel value env with
  | nil => exact statements_fitting fuel value rest hc hd h.fits
  | cons s defs ih =>
    obtain ⟨hs, hmore⟩ := List.forall_mem_cons.1 hdefs
    cases s with
    | define f params body =>
      obtain ⟨hbody, hc⟩ := List.forall_mem_append.1 hc
      obtain ⟨hf, hd⟩ := List.forall_mem_cons.1 hd
      obtain ⟨hsignatures, hd⟩ := List.forall_mem_append.1 hd
      cases fuel with
      | zero => exact .exhausted
      | succ fuel =>
        cases fuel with
        | zero => exact .exhausted
        | succ fuel =>
          exact ih hmore (fuel + 1) .null hc hd (h.setFunction ⟨hbody, hsignatures⟩ hf)
    | _ => cases hs

end Evaluation

namespace Source

def calls (s : Source) : List Signature :=
  Statement.callsAll s.statements

def signatures (s : Source) : List Signature :=
  Statement.signaturesAll s.statements

def callable (s : Source) : List Signature :=
  ⟨"print", 1⟩ :: s.definitions.map fun (f, function) => ⟨f, function.arity⟩

/-- A program defines its functions before it does anything else, never a name
with two arities, which `print` has one of already, and calls nothing else. -/
structure Prepared (s : Source) : Prop where
  first : ∃ defs rest, s.statements = defs ++ rest ∧ (∀ t ∈ defs, t.definition?.isSome) ∧
    ∀ t ∈ rest, t.definition? = none
  agree : Signature.Agree (⟨"print", 1⟩ :: s.signatures)
  calls : ∀ c ∈ s.calls, c ∈ s.callable

end Source

theorem Statement.definedAll_eq_flatMap (ss : List Statement) :
    Statement.definedAll ss = ss.flatMap Statement.defined := by
  induction ss with
  | nil => rfl
  | cons s ss ih => rw [Statement.definedAll, ih, List.flatMap_cons]

theorem Statement.signaturesAll_eq_flatMap (ss : List Statement) :
    Statement.signaturesAll ss = ss.flatMap Statement.signatures := by
  induction ss with
  | nil => rfl
  | cons s ss ih => rw [Statement.signaturesAll, ih, List.flatMap_cons]

theorem Statement.eq_define_of_definition? {s : Statement} {f : String} {function : Function}
    (h : s.definition? = some (f, function)) :
    ∃ params body, s = .define f params body ∧ function = .defined params body := by
  cases s with
  | define g params body =>
    cases h
    exact ⟨params, body, rfl, rfl⟩
  | _ => cases h

namespace Source
variable {s : Source}

theorem mem_signatures_of_mem_callable {c : Signature} (h : c ∈ s.callable) :
    c ∈ (⟨"print", 1⟩ :: s.signatures : List Signature) := by
  obtain rfl | h := List.mem_cons.1 h
  · exact List.mem_cons_self
  obtain ⟨⟨f, function⟩, hdefinition, rfl⟩ := List.mem_map.1 h
  obtain ⟨t, ht, hdefinition⟩ := List.mem_filterMap.1 hdefinition
  obtain ⟨params, body, rfl, rfl⟩ := Statement.eq_define_of_definition? hdefinition
  apply List.mem_cons_of_mem
  rw [signatures, Statement.signaturesAll_eq_flatMap]
  exact List.mem_flatMap.2 ⟨_, ht, List.mem_cons_self⟩

theorem prelude_awaits {defs rest : List Statement} (hs : s.statements = defs ++ rest)
    (hrest : ∀ t ∈ rest, t.definition? = none) :
    Environment.prelude.Awaits (.of s.callable) (Statement.definedAll defs) where
  arities f n hf := by
    obtain hprint | hmem := List.mem_cons.1 (Arities.mem_of_getElem? hf)
    · cases hprint
      exact .inl rfl
    · obtain ⟨⟨g, function⟩, hdefinition, hg⟩ := List.mem_map.1 hmem
      cases hg
      obtain ⟨t, ht, hdefinition⟩ := List.mem_filterMap.1 hdefinition
      rw [hs] at ht
      have htdefs : t ∈ defs := by
        refine (List.mem_append.1 ht).resolve_right fun htrest => ?_
        rw [hrest t htrest] at hdefinition
        cases hdefinition
      obtain ⟨params, body, rfl, rfl⟩ := Statement.eq_define_of_definition? hdefinition
      right
      rw [Statement.definedAll_eq_flatMap]
      exact List.mem_flatMap.2 ⟨_, htdefs, List.mem_cons_self⟩
  bodies f function hf := by
    rw [Environment.prelude, Environment.functionOf?_setFunction] at hf
    by_cases hprint : "print" = f
    · rw [if_pos hprint] at hf
      cases hf
      exact ⟨nofun, nofun⟩
    · rw [if_neg hprint] at hf
      simp at hf

namespace Prepared

theorem agree_callable (h : s.Prepared) : Signature.Agree s.callable :=
  fun c hc d hd => h.agree c (mem_signatures_of_mem_callable hc) d
    (mem_signatures_of_mem_callable hd)

theorem covers (h : s.Prepared) : (Arities.of s.callable).Covers s.calls :=
  Arities.covers_of h.agree_callable h.calls

theorem permits (h : s.Prepared) : (Arities.of s.callable).Permits s.signatures :=
  Arities.permits_of h.agree (fun _ => mem_signatures_of_mem_callable)
    fun _ => List.mem_cons_of_mem _

open Evaluation in
theorem fitting (h : s.Prepared) (fuel : Nat) :
    Fitting (.of s.callable) ((Node.source s).evaluate fuel .prelude) := by
  obtain ⟨defs, rest, hs, hdefs, hrest⟩ := h.first
  have hc := h.covers
  have hd := h.permits
  rw [Source.calls, hs] at hc
  rw [Source.signatures, hs] at hd
  rw [Node.evaluate, hs]
  exact definitions_fitting hdefs fuel .null hc hd (prelude_awaits hs hrest)

end Prepared

end Source

open Evaluation in
/-- Calls that fit are never refused. A node that fits a table, run under an
environment that fits it, leaves an environment that fits it again, and no
call on the way, however deep, is of a function that is not there or has
another number of arguments. So under the prelude no call of a program is
refused that first defines its functions, each with one arity, and calls
nothing else than those and `print`. -/
theorem fitting_calls_are_never_refused :
    (∀ (G : Arities) (n : Node) (env : Environment), n.Fits G → env.Fits G →
      ∀ trace trace₁,
        (∀ e, Yields (n.evaluate · env) trace (.failed e) trace₁ → ¬ e.OfCall) ∧
        ∀ v env₁, Yields (n.evaluate · env) trace (.done (v, env₁)) trace₁ → env₁.Fits G) ∧
    ∀ s : Source, s.Prepared →
      (∀ e trace trace₁,
        Yields ((Node.source s).evaluate · .prelude) trace (.failed e) trace₁ → ¬ e.OfCall) ∧
      ∀ text e before trace, read text = .ok s →
        Runs text .prelude before (.failed (.evaluation e)) trace → ¬ e.OfCall := by
  refine ⟨fun G n env hn henv trace trace₁ => ⟨?_, ?_⟩, fun s hs => ?_⟩
  · rintro e ⟨_, fuel, he⟩
    exact (node_fitting hn henv fuel).error he
  · rintro v env₁ ⟨_, fuel, hv⟩
    exact (node_fitting hn henv fuel).result hv
  have hsource : ∀ e trace trace₁,
      Yields ((Node.source s).evaluate · .prelude) trace (.failed e) trace₁ → ¬ e.OfCall := by
    rintro e trace trace₁ ⟨_, fuel, he⟩
    exact (hs.fitting fuel).error he
  refine ⟨hsource, fun text e before trace hread hrun => ?_⟩
  obtain ⟨o, ho, hyields⟩ := (runs_of_read hread).1 hrun
  cases o with
  | failed e' =>
    cases ho
    exact hsource e _ _ hyields
  | done p => cases ho
  | exhausted => cases ho

def Environment.renewing : Environment :=
  empty.setFunction "f" (.defined ["x"]
    [.define "f" ["y"] [.expression (.variable "y")], .expression (.call "f" [.variable "x"])])

def Source.alternating : Source :=
  ⟨[.define "even" ["n"] [.branch (.binary .equal (.variable "n") (.int 0))
      [.expression (.bool true)]
      (some [.expression (.call "odd" [.binary .subtract (.variable "n") (.int 1)])])],
    .define "odd" ["n"] [.expression (.call "even" [.binary .subtract (.variable "n") (.int 1)])],
    .expression (.call "print" [.call "even" [.int 3]])]⟩

open Evaluation in
theorem fitting_calls_are_never_refused_when_renewed :
    (∃ env₁, Yields ((Node.block [.define "f" ["z"] [.expression (.variable "z")],
        .expression (.call "f" [.int 1])]).evaluate · .renewing) [] (.done (.int 1, env₁)) [] ∧
      env₁.Fits (.of [⟨"f", 1⟩])) ∧
    Source.alternating.Prepared ∧
    ∀ e trace, Runs ("def even(n) { if (n == 0) { true; } else { odd(n - 1); } }" ++
        "def odd(n) { even(n - 1); } print(even(3));") .prelude [] (.failed (.evaluation e))
        trace → ¬ e.OfCall := by
  have hn : (Node.block [.define "f" ["z"] [.expression (.variable "z")],
      .expression (.call "f" [.int 1])]).Fits (.of [⟨"f", 1⟩]) := by
    constructor <;> decide
  have hbody : (Function.defined ["x"] [.define "f" ["y"] [.expression (.variable "y")],
      .expression (.call "f" [.variable "x"])]).Fits (.of [⟨"f", 1⟩]) := by
    constructor <;> decide
  have henv : Environment.renewing.Fits (.of [⟨"f", 1⟩]) := by
    constructor
    · intro f n hf
      obtain ⟨rfl, rfl⟩ : f = "f" ∧ n = 1 := by simpa using Arities.mem_of_getElem? hf
      rfl
    · intro f function hf
      rw [Environment.renewing, Environment.functionOf?_setFunction] at hf
      split at hf
      · cases hf
        exact hbody
      · simp at hf
  have hrun : Yields ((Node.block [.define "f" ["z"] [.expression (.variable "z")],
      .expression (.call "f" [.int 1])]).evaluate · .renewing) [] (.done (.int 1,
        Environment.renewing.setFunction "f" (.defined ["z"] [.expression (.variable "z")]))) [] :=
    ⟨nofun, 20, rfl⟩
  have hprepared : Source.alternating.Prepared := by
    refine ⟨⟨Source.alternating.statements.take 2, _, rfl, ?_, ?_⟩, ?_, ?_⟩
    · decide
    · decide
    · decide
    · decide
  have hread : read ("def even(n) { if (n == 0) { true; } else { odd(n - 1); } }" ++
      "def odd(n) { even(n - 1); } print(even(3));") = .ok .alternating := by
    cbv
  obtain ⟨hnode, hprogram⟩ := fitting_calls_are_never_refused
  refine ⟨⟨_, hrun, (hnode _ _ _ hn henv [] []).2 _ _ hrun⟩, hprepared, fun e trace => ?_⟩
  exact (hprogram _ hprepared).2 _ e [] trace hread

end Script
