import Std.Data.ExtTreeMap
import Script.Native
import Script.Tree

/-!
# Environments

An environment binds variables to values and function names to functions.
The two kinds of names are apart: one name may be bound in both. Nothing is
changed in place, so an environment that is kept stays as it is.

A function is either defined by the program or embedded by the host. A
defined function closes over nothing. A host function answers a list of host
values and may do something that can be observed on the way. What it answers
may depend on what has been observed before, so it may keep a state.
-/

set_option autoImplicit false

namespace Script

inductive Event where
  | printed (text : String)
  | recorded (arguments : List Native)

def Event.output : Event → String
  | .printed text => text
  | .recorded _ => ""

/-- What has been observed so far, the latest first. -/
abbrev Trace := List Event

/-- A function of the host, which answers and does something. Two host functions
are the same only if they were registered as one, which their identity tells. -/
structure Host where
  identity : Nat
  reply : Trace → List Native → Native × List Event

/-- What a host function does before anything has been observed. -/
def Host.respond (host : Host) (arguments : List Native) : Native × List Event :=
  host.reply [] arguments

inductive Function where
  | defined (params : List String) (body : List Statement)
  | embedded (arity : Nat) (host : Host)

namespace Function

def arity : Function → Nat
  | .defined params _ => params.length
  | .embedded arity _ => arity

/-- Whether two functions are the same: defined ones by what they say, host
functions by arity and identity. -/
def same : Function → Function → Bool
  | .defined ps ss, .defined qs ts => ps == qs && ss == ts
  | .embedded m g, .embedded n h => m == n && g.identity == h.identity
  | _, _ => false

end Function

abbrev Bindings (α : Type) := Std.ExtTreeMap String α

structure Environment where
  vars : Bindings Value
  funcs : Bindings Function

namespace Environment

def empty : Environment :=
  ⟨∅, ∅⟩

def valueOf? (env : Environment) (name : String) : Option Value :=
  env.vars[name]?

def functionOf? (env : Environment) (name : String) : Option Function :=
  env.funcs[name]?

def setVariable (env : Environment) (name : String) (value : Value) : Environment :=
  { env with vars := env.vars.insert name value }

def setFunction (env : Environment) (name : String) (function : Function) : Environment :=
  { env with funcs := env.funcs.insert name function }

/-- What the body of a defined function sees: its parameters, and the
functions of the caller but none of its variables. Of equal parameter names
the last one counts. -/
def frame (env : Environment) (bindings : List (String × Value)) : Environment :=
  { env with vars := Std.ExtTreeMap.ofList bindings }

def same (a b : Environment) : Bool :=
  a.vars.toList == b.vars.toList &&
    a.funcs.keys == b.funcs.keys &&
    (a.funcs.toList.zip b.funcs.toList).all fun (p, q) => p.2.same q.2

theorem eq_of_lookups {a b : Environment} (hv : ∀ x, a.valueOf? x = b.valueOf? x)
    (hf : ∀ f, a.functionOf? f = b.functionOf? f) : a = b := by
  cases a
  cases b
  congr 1
  · exact Std.ExtTreeMap.ext_getElem? hv
  · exact Std.ExtTreeMap.ext_getElem? hf

theorem valueOf?_setVariable (env : Environment) (x y : String) (v : Value) :
    (env.setVariable x v).valueOf? y = if x = y then some v else env.valueOf? y := by
  simp only [valueOf?, setVariable, Std.ExtTreeMap.getElem?_insert,
    Std.LawfulEqCmp.compare_eq_iff_eq]

theorem functionOf?_setVariable (env : Environment) (x f : String) (v : Value) :
    (env.setVariable x v).functionOf? f = env.functionOf? f :=
  rfl

theorem functionOf?_setFunction (env : Environment) (f g : String) (function : Function) :
    (env.setFunction f function).functionOf? g =
      if f = g then some function else env.functionOf? g := by
  simp only [functionOf?, setFunction, Std.ExtTreeMap.getElem?_insert,
    Std.LawfulEqCmp.compare_eq_iff_eq]

theorem valueOf?_setFunction (env : Environment) (f x : String) (function : Function) :
    (env.setFunction f function).valueOf? x = env.valueOf? x :=
  rfl

theorem functionOf?_frame (env : Environment) (bindings : List (String × Value)) (f : String) :
    (env.frame bindings).functionOf? f = env.functionOf? f :=
  rfl

theorem valueOf?_frame (env : Environment) (bindings : List (String × Value)) (x : String) :
    (env.frame bindings).valueOf? x =
      bindings.findSomeRev? fun (y, v) => if y = x then some v else none := by
  simp only [valueOf?, frame, Std.ExtTreeMap.ofList_eq_insertMany_empty,
    Std.ExtTreeMap.getElem?_insertMany_list, Std.LawfulEqCmp.compare_eq_iff_eq]
  simp

@[simp] theorem functionOf?_empty (f : String) : empty.functionOf? f = none := by
  simp [functionOf?, empty]

end Environment

def Host.print : Host where
  identity := 0
  reply
    | _, [value] => (.null, [.printed (String.ofList (value.display ++ ['\n']))])
    | _, _ => (.null, [])

def Environment.prelude : Environment :=
  empty.setFunction "print" (.embedded 1 Host.print)

end Script
