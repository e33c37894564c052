import Mathlib.Logic.Equiv.Basic
import Script.Proofs.Ending
import Script.Proofs.Keeping

/-!
# New names

A renaming gives every variable a name of its own and every function a name of
its own. The two have nothing to do with each other: a variable and a function
may get one name or lose the one that they shared. Names are changed all
through a tree and all through an environment, in the bodies of its functions
too.

Nothing that a run does depends on what the names are. A run under new names
is the same run with the new names in the environment that it leaves, and in
the error of a call.
-/

set_option autoImplicit false

namespace Script

/-- New names for the variables and for the functions, none given twice. -/
structure Renaming where
  vars : String → String
  funcs : String → String
  vars_injective : Function.Injective vars
  funcs_injective : Function.Injective funcs

/-! ### Trees -/

mutual

def Expr.rename (ρ : Renaming) : Expr → Expr
  | .int n => .int n
  | .bool b => .bool b
  | .string text => .string text
  | .null => .null
  | .variable x => .variable (ρ.vars x)
  | .binary op left right => .binary op (left.rename ρ) (right.rename ρ)
  | .call f arguments => .call (ρ.funcs f) (Expr.renameAll ρ arguments)

def Expr.renameAll (ρ : Renaming) : List Expr → List Expr
  | [] => []
  | e :: es => e.rename ρ :: Expr.renameAll ρ es

end

mutual

def Statement.rename (ρ : Renaming) : Statement → Statement
  | .expression e => .expression (e.rename ρ)
  | .assign x value => .assign (ρ.vars x) (value.rename ρ)
  | .branch condition body none =>
    .branch (condition.rename ρ) (Statement.renameAll ρ body) none
  | .branch condition body (some otherwise) =>
    .branch (condition.rename ρ) (Statement.renameAll ρ body)
      (some (Statement.renameAll ρ otherwise))
  | .loop condition body => .loop (condition.rename ρ) (Statement.renameAll ρ body)
  | .define f params body =>
    .define (ρ.funcs f) (params.map ρ.vars) (Statement.renameAll ρ body)

def Statement.renameAll (ρ : Renaming) : List Statement → List Statement
  | [] => []
  | s :: ss => s.rename ρ :: Statement.renameAll ρ ss

end

def Node.rename (ρ : Renaming) : Node → Node
  | .expr e => .expr (e.rename ρ)
  | .statement s => .statement (s.rename ρ)
  | .block body => .block (Statement.renameAll ρ body)
  | .source program => .source ⟨Statement.renameAll ρ program.statements⟩

def Function.rename (ρ : Renaming) : Function → Function
  | .defined params body => .defined (params.map ρ.vars) (Statement.renameAll ρ body)
  | .embedded arity host => .embedded arity host

def EvalError.rename (ρ : Renaming) : EvalError → EvalError
  | .undefinedFunction f => .undefinedFunction (ρ.funcs f)
  | .argumentCount f expected found => .argumentCount (ρ.funcs f) expected found
  | e => e

variable {ρ : Renaming}

theorem Expr.length_renameAll (es : List Expr) : (Expr.renameAll ρ es).length = es.length := by
  induction es with
  | nil => rfl
  | cons e es ih => simp only [Expr.renameAll, List.length_cons, ih]

theorem Function.arity_rename (function : Function) :
    (function.rename ρ).arity = function.arity := by
  cases function with
  | defined params body => exact List.length_map ρ.vars
  | embedded arity host => rfl

/-! ### Environments -/

namespace Bindings
variable {α β : Type} {new : String → String} {put : α → β}

def rename (new : String → String) (put : α → β) (bindings : Bindings α) : Bindings β :=
  .ofList (bindings.toList.map fun p => (new p.1, put p.2))

theorem getElem?_rename_of_ne {bindings : Bindings α} {y : String}
    (h : ∀ x a, bindings[x]? = some a → new x ≠ y) : (bindings.rename new put)[y]? = none := by
  apply Std.ExtTreeMap.getElem?_ofList_of_contains_eq_false
  rw [Bool.eq_false_iff]
  intro hc
  rw [List.contains_iff_mem, List.map_map] at hc
  obtain ⟨⟨x, a⟩, hmem, hxy⟩ := List.mem_map.1 hc
  exact h x a (Std.ExtTreeMap.mem_toList_iff_getElem?_eq_some.1 hmem) hxy

theorem getElem?_rename (hnew : Function.Injective new) (bindings : Bindings α) (x : String) :
    (bindings.rename new put)[new x]? = bindings[x]?.map put := by
  cases h : bindings[x]? with
  | none =>
    apply getElem?_rename_of_ne
    intro x' a hx' heq
    rw [hnew heq, h] at hx'
    cases hx'
  | some a =>
    apply Std.ExtTreeMap.getElem?_ofList_of_mem (k := new x) Std.ReflCmp.compare_self
    · -- names that differ have new names that differ
      rw [List.pairwise_map]
      apply bindings.distinct_keys_toList.imp
      intro p q hne heq
      rw [Std.LawfulEqCmp.compare_eq_iff_eq] at hne heq
      exact hne (hnew heq)
    · exact List.mem_map.2 ⟨(x, a), Std.ExtTreeMap.mem_toList_iff_getElem?_eq_some.2 h, rfl⟩

theorem rename_empty : (∅ : Bindings α).rename new put = ∅ := by
  rw [rename, Std.ExtTreeMap.toList_eq_nil_iff.2 rfl, List.map_nil, Std.ExtTreeMap.ofList_nil]

theorem rename_insert (hnew : Function.Injective new) (bindings : Bindings α) (x : String)
    (a : α) :
    Bindings.rename new put (bindings.insert x a) =
      (bindings.rename new put).insert (new x) (put a) := by
  apply Std.ExtTreeMap.ext_getElem?
  intro y
  rw [Std.ExtTreeMap.getElem?_insert]
  by_cases hy : ∃ z, new z = y
  · obtain ⟨z, rfl⟩ := hy
    rw [getElem?_rename hnew, getElem?_rename hnew, Std.ExtTreeMap.getElem?_insert]
    simp only [Std.LawfulEqCmp.compare_eq_iff_eq, hnew.eq_iff]
    split <;> rfl
  · have hne (b : Bindings α) : (b.rename new put)[y]? = none :=
      getElem?_rename_of_ne fun z _ _ hz => hy ⟨z, hz⟩
    have hx : ¬ compare (new x) y = .eq := fun hx =>
      hy ⟨x, Std.LawfulEqCmp.compare_eq_iff_eq.1 hx⟩
    rw [hne, hne, if_neg hx]

theorem rename_insertMany (hnew : Function.Injective new) (bindings : Bindings α)
    (l : List (String × α)) :
    Bindings.rename new put (bindings.insertMany l) =
      (bindings.rename new put).insertMany (l.map fun p => (new p.1, put p.2)) := by
  induction l generalizing bindings with
  | nil => rw [List.map_nil, Std.ExtTreeMap.insertMany_nil, Std.ExtTreeMap.insertMany_nil]
  | cons p l ih =>
    rw [List.map_cons, Std.ExtTreeMap.insertMany_cons, Std.ExtTreeMap.insertMany_cons, ih,
      rename_insert hnew]

end Bindings

namespace Environment

def rename (ρ : Renaming) (env : Environment) : Environment where
  vars := env.vars.rename ρ.vars id
  funcs := env.funcs.rename ρ.funcs (Function.rename ρ)

theorem valueOf?_rename (env : Environment) (x : String) :
    (env.rename ρ).valueOf? (ρ.vars x) = env.valueOf? x :=
  (Bindings.getElem?_rename ρ.vars_injective env.vars x).trans Option.map_id_apply

theorem functionOf?_rename (env : Environment) (f : String) :
    (env.rename ρ).functionOf? (ρ.funcs f) = (env.functionOf? f).map (Function.rename ρ) :=
  Bindings.getElem?_rename ρ.funcs_injective env.funcs f

theorem rename_setVariable (env : Environment) (x : String) (v : Value) :
    (env.setVariable x v).rename ρ = (env.rename ρ).setVariable (ρ.vars x) v := by
  rw [rename, setVariable, Bindings.rename_insert ρ.vars_injective]
  rfl

theorem rename_setFunction (env : Environment) (f : String) (function : Function) :
    (env.setFunction f function).rename ρ =
      (env.rename ρ).setFunction (ρ.funcs f) (function.rename ρ) := by
  rw [rename, setFunction, Bindings.rename_insert ρ.funcs_injective]
  rfl

/-- A parameter gets the value that it had under its old name. Of equal names
the last one counts before and after. -/
theorem rename_frame (env : Environment) (params : List String) (values : List Value) :
    (env.frame (params.zip values)).rename ρ =
      (env.rename ρ).frame ((params.map ρ.vars).zip values) := by
  rw [rename, frame, Std.ExtTreeMap.ofList_eq_insertMany_empty,
    Bindings.rename_insertMany ρ.vars_injective, Bindings.rename_empty, frame,
    Std.ExtTreeMap.ofList_eq_insertMany_empty, List.zip_map_left]
  rfl

end Environment

/-! ### Runs with results and errors in another form -/

def Outcome.recast {ε δ α β : Type} (f : α → β) (g : ε → δ) : Outcome ε α → Outcome δ β
  | .done a => .done (f a)
  | .failed e => .failed (g e)
  | .exhausted => .exhausted

namespace Evaluation
variable {α β γ δ : Type} {f : α → β} {f' : γ → δ} {g : EvalError → EvalError}

/-- The run ends where it did and observes what it did, with what it ends with
in another form. -/
def recast (f : α → β) (g : EvalError → EvalError) (x : Evaluation α) : Evaluation β :=
  fun trace => ((x trace).1.recast f g, (x trace).2)

theorem ofExcept_recast {x : Except EvalError α} (h : ∀ e, x = .error e → g e = e) :
    ofExcept x = (ofExcept x).recast id g := by
  cases x with
  | ok a => rfl
  | error e =>
    funext trace
    simp only [ofExcept, recast, Outcome.recast, h e rfl]

theorem ask_recast (host : Host) (arguments : List Native) :
    ask host arguments = (ask host arguments).recast id g :=
  rfl

theorem bind_recast {x : Evaluation α} {x' : Evaluation β} {k : α → Evaluation γ}
    {k' : β → Evaluation δ} (hx : x' = x.recast f g) (hk : ∀ a, k' (f a) = (k a).recast f' g) :
    x' >>= k' = (x >>= k).recast f' g := by
  subst hx
  funext trace
  simp only [bind, Evaluation.bind, recast]
  cases x trace with
  | mk outcome trace₁ =>
    cases outcome with
    | done a => exact congrFun (hk a) trace₁
    | failed e => rfl
    | exhausted => rfl

theorem yields_recast_iff {x : Nat → Evaluation α} {trace trace₁ : Trace}
    {outcome : Outcome EvalError β} :
    Yields (fun fuel => (x fuel).recast f g) trace outcome trace₁ ↔
      ∃ o, Yields x trace o trace₁ ∧ outcome = o.recast f g := by
  constructor
  · rintro ⟨ho, fuel, hr⟩
    cases hr
    refine ⟨(x fuel trace).1, ⟨?_, fuel, rfl⟩, rfl⟩
    intro hx
    rw [hx] at ho
    exact ho rfl
  · rintro ⟨o, ⟨ho, fuel, hr⟩, rfl⟩
    refine ⟨?_, fuel, ?_⟩
    · cases o <;> simp_all [Outcome.recast]
    · dsimp only [recast]
      rw [hr]

end Evaluation

/-! ### One tree under old and new names -/

theorem EvalError.rename_of_not_ofCall {e : EvalError} (h : ¬ e.OfCall) : e.rename ρ = e := by
  cases e with
  | undefinedFunction f => exact absurd trivial h
  | argumentCount f expected found => exact absurd trivial h
  | _ => rfl

namespace Evaluation

def renamed {α : Type} (ρ : Renaming) (p : α × Environment) : α × Environment :=
  (p.1, p.2.rename ρ)

theorem ofExcept_apply_rename (op : Operator) (a b : Value) :
    ofExcept (op.apply a b) = (ofExcept (op.apply a b)).recast id (EvalError.rename ρ) :=
  ofExcept_recast fun _ he => EvalError.rename_of_not_ofCall (Operator.not_ofCall_of_apply he)

theorem ofExcept_checkArity_rename (f : String) (expected found : Nat) :
    ofExcept (checkArity (ρ.funcs f) expected found) =
      (ofExcept (checkArity f expected found)).recast id (EvalError.rename ρ) := by
  by_cases h : expected = found
  · rw [checkArity, checkArity, if_pos h, if_pos h]
    rfl
  · rw [checkArity, checkArity, if_neg h, if_neg h]
    rfl

/-! Each of these goes by the fuel, along the evaluator. -/

mutual

theorem expr_rename : ∀ (fuel : Nat) (e : Expr) (env : Environment),
    expr fuel (e.rename ρ) (env.rename ρ) =
      (expr fuel e env).recast (renamed ρ) (EvalError.rename ρ)
  | 0, _, _ => rfl
  | _ + 1, .int _, _ => rfl
  | _ + 1, .bool _, _ => rfl
  | _ + 1, .string _, _ => rfl
  | _ + 1, .null, _ => rfl
  | fuel + 1, .variable x, env => by
    simp only [Expr.rename, expr, env.valueOf?_rename]
    rfl
  | fuel + 1, .binary op left right, env => by
    refine bind_recast (expr_rename fuel left env) ?_
    rintro ⟨a, env₁⟩
    refine bind_recast (expr_rename fuel right env₁) ?_
    rintro ⟨b, env₂⟩
    refine bind_recast (ofExcept_apply_rename op a b) ?_
    intro value
    rfl
  | fuel + 1, .call f arguments, env => call_rename fuel f arguments env

theorem call_rename : ∀ (fuel : Nat) (f : String) (arguments : List Expr) (env : Environment),
    call fuel (ρ.funcs f) (Expr.renameAll ρ arguments) (env.rename ρ) =
      (call fuel f arguments env).recast (renamed ρ) (EvalError.rename ρ)
  | 0, _, _, _ => rfl
  | fuel + 1, f, arguments, env => by
    rw [call, call, env.functionOf?_rename]
    cases env.functionOf? f with
    | none => rfl
    | some function =>
      dsimp only [Option.map_some]
      rw [function.arity_rename, Expr.length_renameAll]
      refine bind_recast (ofExcept_checkArity_rename f _ _) ?_
      intro _
      refine bind_recast (exprs_rename fuel arguments env) ?_
      rintro ⟨values, env₁⟩
      refine bind_recast (invoke_rename fuel function values env₁) ?_
      intro value
      rfl

theorem exprs_rename : ∀ (fuel : Nat) (es : List Expr) (env : Environment),
    exprs fuel (Expr.renameAll ρ es) (env.rename ρ) =
      (exprs fuel es env).recast (renamed ρ) (EvalError.rename ρ)
  | 0, _, _ => rfl
  | _ + 1, [], _ => rfl
  | fuel + 1, e :: es, env => by
    refine bind_recast (expr_rename fuel e env) ?_
    rintro ⟨value, env₁⟩
    refine bind_recast (exprs_rename fuel es env₁) ?_
    rintro ⟨values, env₂⟩
    rfl

theorem invoke_rename : ∀ (fuel : Nat) (function : Function) (values : List Value)
    (env : Environment),
    invoke fuel (function.rename ρ) values (env.rename ρ) =
      (invoke fuel function values env).recast id (EvalError.rename ρ)
  | 0, _, _, _ => rfl
  | _ + 1, .embedded _ host, values, _ => by
    refine bind_recast (ask_recast host (values.map Native.ofValue)) ?_
    intro answer
    rfl
  | fuel + 1, .defined params body, values, env => by
    rw [Function.rename, invoke, ← env.rename_frame]
    refine bind_recast (statements_rename fuel .null body (env.frame (params.zip values))) ?_
    rintro ⟨value, env₁⟩
    rfl

theorem statement_rename : ∀ (fuel : Nat) (s : Statement) (env : Environment),
    statement fuel (s.rename ρ) (env.rename ρ) =
      (statement fuel s env).recast (renamed ρ) (EvalError.rename ρ)
  | 0, _, _ => rfl
  | fuel + 1, .expression e, env => expr_rename fuel e env
  | fuel + 1, .assign x value, env => by
    refine bind_recast (expr_rename fuel value env) ?_
    rintro ⟨v, env₁⟩
    dsimp only [renamed]
    rw [← env₁.rename_setVariable]
    rfl
  | fuel + 1, .branch condition body none, env => by
    refine bind_recast (expr_rename fuel condition env) ?_
    rintro ⟨test, env₁⟩
    dsimp only [renamed]
    split
    · exact statements_rename fuel .null body env₁
    · rfl
  | fuel + 1, .branch condition body (some other), env => by
    refine bind_recast (expr_rename fuel condition env) ?_
    rintro ⟨test, env₁⟩
    dsimp only [renamed]
    split
    · exact statements_rename fuel .null body env₁
    · exact statements_rename fuel .null other env₁
  | fuel + 1, .loop condition body, env => loop_rename fuel .null condition body env
  | fuel + 1, .define f params body, env => by
    rw [Statement.rename, statement, statement, ← Function.rename, ← env.rename_setFunction]
    rfl

theorem statements_rename : ∀ (fuel : Nat) (value : Value) (ss : List Statement)
    (env : Environment),
    statements fuel value (Statement.renameAll ρ ss) (env.rename ρ) =
      (statements fuel value ss env).recast (renamed ρ) (EvalError.rename ρ)
  | 0, _, _, _ => rfl
  | _ + 1, _, [], _ => rfl
  | fuel + 1, _, s :: ss, env => by
    refine bind_recast (statement_rename fuel s env) ?_
    rintro ⟨value, env₁⟩
    exact statements_rename fuel value ss env₁

theorem loop_rename : ∀ (fuel : Nat) (value : Value) (condition : Expr) (body : List Statement)
    (env : Environment),
    loop fuel value (condition.rename ρ) (Statement.renameAll ρ body) (env.rename ρ) =
      (loop fuel value condition body env).recast (renamed ρ) (EvalError.rename ρ)
  | 0, _, _, _, _ => rfl
  | fuel + 1, value, condition, body, env => by
    refine bind_recast (expr_rename fuel condition env) ?_
    rintro ⟨test, env₁⟩
    dsimp only [renamed]
    split
    · refine bind_recast (statements_rename fuel .null body env₁) ?_
      rintro ⟨value, env₂⟩
      exact loop_rename fuel value condition body env₂
    · rfl

end

theorem node_rename (fuel : Nat) (n : Node) (env : Environment) :
    (n.rename ρ).evaluate fuel (env.rename ρ) =
      (n.evaluate fuel env).recast (renamed ρ) (EvalError.rename ρ) := by
  cases n with
  | expr e => exact expr_rename fuel e env
  | statement s => exact statement_rename fuel s env
  | block body => exact statements_rename fuel .null body env
  | source program => exact statements_rename fuel .null program.statements env

end Evaluation

open Evaluation in
/-- Names are only names, and variables and functions never mix. Under new
names a node ends exactly if it does under the old ones, after the same has
been observed: with the same value, and with the new names in the environment
that it leaves, or with the same error, which names a function by its new
name. -/
theorem evaluation_under_new_names (ρ : Renaming) (n : Node) (env : Environment)
    (trace trace₁ : Trace) :
    (∀ v env', Yields ((n.rename ρ).evaluate · (env.rename ρ)) trace (.done (v, env')) trace₁ ↔
      ∃ env₁, Yields (n.evaluate · env) trace (.done (v, env₁)) trace₁ ∧
        env' = env₁.rename ρ) ∧
    ∀ e', Yields ((n.rename ρ).evaluate · (env.rename ρ)) trace (.failed e') trace₁ ↔
      ∃ e, Yields (n.evaluate · env) trace (.failed e) trace₁ ∧ e' = e.rename ρ := by
  simp only [node_rename, yields_recast_iff]
  constructor
  · intro v env'
    constructor
    · rintro ⟨o, h, ho⟩
      cases o <;> cases ho
      exact ⟨_, h, rfl⟩
    · rintro ⟨env₁, h, rfl⟩
      exact ⟨_, h, rfl⟩
  · intro e'
    constructor
    · rintro ⟨o, h, ho⟩
      cases o <;> cases ho
      exact ⟨_, h, rfl⟩
    · rintro ⟨e, h, rfl⟩
      exact ⟨_, h, rfl⟩

def Renaming.exchanged : Renaming where
  vars := Equiv.swap "x" "f"
  funcs := Equiv.swap "x" "f"
  vars_injective := Equiv.injective _
  funcs_injective := Equiv.injective _

def Environment.announcing : Environment :=
  (prelude.setVariable "x" (.int 2)).setFunction "f"
    (.defined ["x"] [.expression (.call "print" [.variable "x"])])

open Evaluation in
theorem evaluation_under_new_names_exchanged :
    Yields (((Node.expr (.call "f" [.variable "x"])).rename .exchanged).evaluate ·
        (Environment.announcing.rename .exchanged)) []
      (.done (.null, Environment.announcing.rename .exchanged)) [.printed "2\n"] ∧
    Yields (((Node.expr (.call "f" [.variable "x"])).rename .exchanged).evaluate ·
        (Environment.empty.rename .exchanged)) [] (.failed (.undefinedFunction "x")) [] := by
  have hprints : Yields ((Node.expr (.call "f" [.variable "x"])).evaluate · .announcing) []
      (.done (.null, .announcing)) [.printed "2\n"] := ⟨nofun, 20, rfl⟩
  have hfails : Yields ((Node.expr (.call "f" [.variable "x"])).evaluate · .empty) []
      (.failed (.undefinedFunction "f")) [] := ⟨nofun, 20, rfl⟩
  exact ⟨((evaluation_under_new_names _ _ _ _ _).1 _ _).2 ⟨_, hprints, rfl⟩,
    ((evaluation_under_new_names _ _ _ _ _).2 _).2 ⟨_, hfails, rfl⟩⟩

end Script
