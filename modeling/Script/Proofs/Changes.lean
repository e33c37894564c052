import Mathlib
import Script.Proofs.Joining
import Script.Proofs.Keeping
import Script.Proofs.Names
import Script.Proofs.RoundTrip

/-!
# What a program can change

A statement binds the variables that it assigns and the functions that it
defines, and nothing else. What the functions that it calls bind stays with
them. No name is ever unbound. In a program that has been read no definition
stands below the top, so its functions are those of the environment,
overridden in order by the definitions at its top.
-/

set_option autoImplicit false

namespace Script

/-- One environment comes from another by binding names out of two sets. -/
structure Environment.Binds (V F : Set String) (env env' : Environment) : Prop where
  valueOf? : ∀ x, x ∉ V → env'.valueOf? x = env.valueOf? x
  functionOf? : ∀ f, f ∉ F → env'.functionOf? f = env.functionOf? f
  values : ∀ x, (env.valueOf? x).isSome → (env'.valueOf? x).isSome
  functions : ∀ f, (env.functionOf? f).isSome → (env'.functionOf? f).isSome

namespace Environment.Binds
variable {V F : Set String} {env env' env'' : Environment}

theorem refl (env : Environment) : env.Binds V F env :=
  ⟨fun _ _ => rfl, fun _ _ => rfl, fun _ => id, fun _ => id⟩

theorem trans (h : env.Binds V F env') (h' : env'.Binds V F env'') : env.Binds V F env'' where
  valueOf? x hx := (h'.valueOf? x hx).trans (h.valueOf? x hx)
  functionOf? f hf := (h'.functionOf? f hf).trans (h.functionOf? f hf)
  values x hx := h'.values x (h.values x hx)
  functions f hf := h'.functions f (h.functions f hf)

theorem setVariable {x : String} (hx : x ∈ V) (v : Value) :
    env.Binds V F (env.setVariable x v) where
  valueOf? y hy := by
    have hne : x ≠ y := fun h => hy (h ▸ hx)
    rw [valueOf?_setVariable, if_neg hne]
  functionOf? f _ := functionOf?_setVariable env x f v
  values y hy := by
    rw [valueOf?_setVariable]
    split
    · rfl
    · exact hy
  functions _ := id

theorem setFunction {f : String} (hf : f ∈ F) (function : Function) :
    env.Binds V F (env.setFunction f function) where
  valueOf? x _ := valueOf?_setFunction env f x function
  functionOf? g hg := by
    have hne : f ≠ g := fun h => hg (h ▸ hf)
    rw [functionOf?_setFunction, if_neg hne]
  values _ := id
  functions g hg := by
    rw [functionOf?_setFunction]
    split
    · rfl
    · exact hg

theorem funcs_eq (h : env.Binds V ∅ env') : env'.funcs = env.funcs :=
  Std.ExtTreeMap.ext_getElem? fun f => h.functionOf? f (Set.notMem_empty f)

end Environment.Binds

namespace Evaluation

abbrev Binding (V F : Set String) (env : Environment) (x : Evaluation (Value × Environment)) :
    Prop :=
  Ensures (fun p => env.Binds V F p.2) x

section
variable {V F : Set String}

theorem Binding.trans {env env' : Environment} {x : Evaluation (Value × Environment)}
    (h : env.Binds V F env') (hx : Binding V F env' x) : Binding V F env x :=
  hx.mono fun _ => h.trans

theorem Keeps.binding {env : Environment} {x : Evaluation (Value × Environment)}
    (h : Keeps env x) : Binding V F env x := by
  apply Ensures.mono h
  rintro ⟨v, _⟩ rfl
  exact .refl _

mutual

theorem statement_binding : ∀ (fuel : Nat) (s : Statement) (env : Environment),
    (∀ x ∈ s.assigned, x ∈ V) → (∀ f ∈ s.defined, f ∈ F) →
      Binding V F env (statement fuel s env)
  | 0, _, _, _, _ => .exhausted
  | fuel + 1, .expression e, env, _, _ => (expr_keeps fuel e env).binding
  | fuel + 1, .assign x value, env, hV, _ => by
    apply Ensures.bind (expr_keeps fuel value env)
    rintro ⟨v, _⟩ rfl
    exact .pure (.setVariable (hV x List.mem_cons_self) v)
  | fuel + 1, .branch condition body none, env, hV, hF => by
    apply Ensures.bind (expr_keeps fuel condition env)
    rintro ⟨test, _⟩ rfl
    dsimp only
    split
    · exact statements_binding fuel .null body _ hV hF
    · exact .pure (.refl _)
  | fuel + 1, .branch condition body (some other), env, hV, hF => by
    obtain ⟨hV, hV'⟩ := List.forall_mem_append.1 hV
    obtain ⟨hF, hF'⟩ := List.forall_mem_append.1 hF
    apply Ensures.bind (expr_keeps fuel condition env)
    rintro ⟨test, _⟩ rfl
    dsimp only
    split
    · exact statements_binding fuel .null body _ hV hF
    · exact statements_binding fuel .null other _ hV' hF'
  | fuel + 1, .loop condition body, env, hV, hF =>
    loop_binding fuel .null condition body env hV hF
  | _ + 1, .define f _ _, _, _, hF => .pure (.setFunction (hF f List.mem_cons_self) _)

theorem statements_binding : ∀ (fuel : Nat) (value : Value) (ss : List Statement)
    (env : Environment), (∀ x ∈ Statement.assignedAll ss, x ∈ V) →
      (∀ f ∈ Statement.definedAll ss, f ∈ F) → Binding V F env (statements fuel value ss env)
  | 0, _, _, _, _, _ => .exhausted
  | _ + 1, _, [], env, _, _ => .pure (.refl env)
  | fuel + 1, _, s :: ss, env, hV, hF => by
    obtain ⟨hV, hV'⟩ := List.forall_mem_append.1 hV
    obtain ⟨hF, hF'⟩ := List.forall_mem_append.1 hF
    apply Ensures.bind (statement_binding fuel s env hV hF)
    rintro ⟨value, env'⟩ h
    exact (statements_binding fuel value ss env' hV' hF').trans h

theorem loop_binding : ∀ (fuel : Nat) (value : Value) (condition : Expr) (body : List Statement)
    (env : Environment), (∀ x ∈ Statement.assignedAll body, x ∈ V) →
      (∀ f ∈ Statement.definedAll body, f ∈ F) →
        Binding V F env (loop fuel value condition body env)
  | 0, _, _, _, _, _, _ => .exhausted
  | fuel + 1, value, condition, body, env, hV, hF => by
    apply Ensures.bind (expr_keeps fuel condition env)
    rintro ⟨test, _⟩ rfl
    dsimp only
    split
    · apply Ensures.bind (statements_binding fuel .null body _ hV hF)
      rintro ⟨value, env'⟩ h
      exact (loop_binding fuel value condition body env' hV hF).trans h
    · exact .pure (.refl _)

end

end

end Evaluation

/-! ### Definitions -/

def Statement.definition? : Statement → Option (String × Function)
  | .define f params body => some (f, .defined params body)
  | _ => none

def Source.definitions (source : Source) : List (String × Function) :=
  source.statements.filterMap Statement.definition?

mutual

theorem Statement.defined_of_proper {ok : Int64 → Prop} :
    ∀ s : Statement, s.Proper ok → s.defined = []
  | .expression _, _ => rfl
  | .assign _ _, _ => rfl
  | .branch _ body none, h => Statement.definedAll_of_proper body h.2
  | .branch _ body (some other), h => by
    rw [Statement.defined, Statement.definedAll_of_proper body h.2.1,
      Statement.definedAll_of_proper other h.2.2]
    rfl
  | .loop _ body, h => Statement.definedAll_of_proper body h.2

theorem Statement.definedAll_of_proper {ok : Int64 → Prop} :
    ∀ ss : List Statement, Statement.AllProper ok ss → Statement.definedAll ss = []
  | [], _ => rfl
  | s :: ss, h => by
    rw [Statement.definedAll, Statement.defined_of_proper s h.1,
      Statement.definedAll_of_proper ss h.2]
    rfl

end

namespace Evaluation
variable {ok : Int64 → Prop}

theorem statement_defines (fuel : Nat) {s : Statement} (hs : s.ProperAtTop ok)
    (env : Environment) :
    Ensures (fun p => p.2.funcs = env.funcs.insertMany s.definition?.toList)
      (statement fuel s env) := by
  have unchanged (hs : s.Proper ok) (hd : s.definition? = none) :
      Ensures (fun p => p.2.funcs = env.funcs.insertMany s.definition?.toList)
        (statement fuel s env) := by
    have hdefined : ∀ f ∈ s.defined, f ∈ (∅ : Set String) := by
      simp [Statement.defined_of_proper s hs]
    apply (statement_binding (V := Set.univ) fuel s env (fun _ _ => trivial) hdefined).mono
    intro p h
    rw [hd]
    exact h.funcs_eq.trans Std.ExtTreeMap.insertMany_nil.symm
  cases s with
  | define f params body =>
    cases fuel with
    | zero => exact .exhausted
    | succ fuel =>
      apply Ensures.pure
      exact Std.ExtTreeMap.insertMany_list_singleton.symm
  | _ => exact unchanged hs rfl

/-- The functions after a program are those before it, overridden in order by
the definitions at its top. -/
theorem statements_define {ss : List Statement} (hss : ∀ s ∈ ss, s.ProperAtTop ok) (fuel : Nat)
    (value : Value) (env : Environment) :
    Ensures (fun p => p.2.funcs = env.funcs.insertMany (ss.filterMap Statement.definition?))
      (statements fuel value ss env) := by
  induction ss generalizing fuel value env with
  | nil =>
    cases fuel with
    | zero => exact .exhausted
    | succ fuel => exact .pure Std.ExtTreeMap.insertMany_nil.symm
  | cons s ss ih =>
    obtain ⟨hs, hss⟩ := List.forall_mem_cons.1 hss
    cases fuel with
    | zero => exact .exhausted
    | succ fuel =>
      apply Ensures.bind (statement_defines fuel hs env)
      rintro ⟨value, env'⟩ henv
      apply (ih hss fuel value env').mono
      intro p h
      have hcons : (s :: ss).filterMap Statement.definition? =
          s.definition?.toList ++ ss.filterMap Statement.definition? := by
        rw [List.filterMap_cons]
        cases s.definition? <;> rfl
      rw [hcons, Std.ExtTreeMap.insertMany_append, ← henv]
      exact h

end Evaluation

open Evaluation in
/-- What a text can change is bounded by what it says. After a run the
functions are those before it, overridden in order by the definitions at the
top of the program, so the last one of a name counts. A variable that is not
assigned outside the bodies of definitions is bound to what it was bound to,
or to nothing as before. No name is unbound. -/
theorem runs_binds_names_of_text {text : String} {env env' : Environment} {v : Value}
    {before trace : Trace} (h : Runs text env before (.done (v, env')) trace) :
    ∃ s, parse (tokenize text) = .ok s ∧
      env'.funcs = env.funcs.insertMany s.definitions ∧
      (∀ f, env'.functionOf? f =
        (s.definitions.findSomeRev? fun (g, function) =>
          if g = f then some function else none).or (env.functionOf? f)) ∧
      (∀ x, x ∉ Statement.assignedAll s.statements → env'.valueOf? x = env.valueOf? x) ∧
      (∀ x, (env.valueOf? x).isSome → (env'.valueOf? x).isSome) ∧
      ∀ f, (env.functionOf? f).isSome → (env'.functionOf? f).isSome := by
  obtain ⟨s, hread, _, fuel, hrun⟩ := h.read_of_done
  have hparse := (read_eq_ok_iff.1 hread).2
  have hfuncs : env'.funcs = env.funcs.insertMany s.definitions :=
    (statements_define (wellFormed_of_parse hparse) fuel .null env).result hrun
  have hbinds : env.Binds {x | x ∈ Statement.assignedAll s.statements} Set.univ env' :=
    (statements_binding fuel .null s.statements env (fun _ => id) fun _ _ => trivial).result hrun
  refine ⟨s, hparse, hfuncs, fun f => ?_, hbinds.valueOf?, hbinds.values, hbinds.functions⟩
  rw [Environment.functionOf?, hfuncs, Std.ExtTreeMap.getElem?_insertMany_list]
  simp only [Std.LawfulEqCmp.compare_eq_iff_eq]
  rfl

def Environment.meddled : Environment :=
  (empty.setVariable "x" (.int 1)).setFunction "f"
    (.defined [] [.assign "x" (.int 2), .define "g" [] [], .expression (.variable "x")])

open Evaluation in
theorem runs_binds_names_around_call :
    ∃ env', Runs "def h() {} while (y == null) { y = f(); }" .meddled [] (.done (.null, env')) [] ∧
      env'.valueOf? "x" = some (.int 1) ∧ env'.functionOf? "g" = none ∧
      env'.functionOf? "h" = some (.defined [] []) := by
  have hread : read "def h() {} while (y == null) { y = f(); }" =
      .ok ⟨[.define "h" [] [],
        .loop (.binary .equal (.variable "y") .null) [.assign "y" (.call "f" [])]]⟩ := by
    cbv
  have hrun : Runs "def h() {} while (y == null) { y = f(); }" .meddled []
      (.done (.null, (Environment.meddled.setFunction "h" (.defined [] [])).setVariable "y"
        (.int 2))) [] :=
    runs_done_of_read hread 20 rfl
  obtain ⟨s, hparse, _, hfunctions, hvalues, _⟩ := runs_binds_names_of_text hrun
  cases (read_eq_ok_iff.1 hread).2.symm.trans hparse
  refine ⟨_, hrun, (hvalues "x" ?_).trans rfl, (hfunctions "g").trans rfl,
    (hfunctions "h").trans rfl⟩
  decide

end Script
