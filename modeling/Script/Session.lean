import Script.Execution
import Script.Stock

/-!
# Sessions

A session carries an environment from one step to the next. A step that
evaluates leaves the environment it ends in, or the one it found if it
fails. Environments can be set aside under a name and taken up again, and
each registration of a host function makes a function of its own.
-/

set_option autoImplicit false

namespace Script

structure Session where
  current : Environment
  saved : Bindings Environment
  /-- How many host functions have been registered, that of the prelude
  included. -/
  registered : Nat

def Session.start (env : Environment) : Session :=
  ⟨env, ∅, 1⟩

inductive Step where
  | run (source : String)
  | evaluate (node : Node)
  | call (name : String) (arguments : List Expr)
  | setVariable (name : String) (value : Value)
  | embed (name : String) (arity : Nat) (stock : Stock)
  | define (name : String) (params : List String) (body : List Statement)
  | frame (bindings : List (String × Value))
  | clear
  | save (slot : String)
  | load (slot : String)
  | compare (slot : String)
  | variable (name : String)
  | function (name : String)
  | inspect

inductive Answer where
  | nothing
  | outcome (result : Outcome Failure Value)
  | same (b : Bool)
  | variable (value : Option Value)
  | function (function : Option Function)
  | environment (env : Environment)

namespace Session

def resume (session : Session) :
    Outcome Failure (Value × Environment) → Answer × Session
  | .done (value, env) => (.outcome (.done value), { session with current := env })
  | .failed e => (.outcome (.failed e), session)
  | .exhausted => (.outcome .exhausted, session)

def turnTo (session : Session) (env : Environment) : Answer × Session :=
  (.nothing, { session with current := env })

/-- Performs a step. What is observed in it is given apart. -/
def perform (fuel : Nat) (session : Session) (step : Step) : Answer × Session × Trace :=
  let env := session.current
  let evaluated (run : Outcome EvalError (Value × Environment) × Trace) :=
    let (answer, after) := session.resume (run.1.mapError .evaluation)
    (answer, after, run.2)
  let quiet (result : Answer × Session) := (result.1, result.2, [])
  match step with
  | .run source =>
    let (result, trace) := Script.run fuel source env []
    let (answer, after) := session.resume result
    (answer, after, trace)
  | .evaluate node => evaluated (node.evaluate fuel env [])
  | .call name arguments => evaluated (Evaluation.call fuel name arguments env [])
  | .setVariable name value => quiet (session.turnTo (env.setVariable name value))
  | .embed name arity stock =>
    let function := .embedded arity (stock.host session.registered)
    quiet (.nothing,
      { session with
        current := env.setFunction name function
        registered := session.registered + 1 })
  | .define name params body =>
    quiet (session.turnTo (env.setFunction name (.defined params body)))
  | .frame bindings => quiet (session.turnTo (env.frame bindings))
  | .clear => quiet (session.turnTo .empty)
  | .save slot => quiet (.nothing, { session with saved := session.saved.insert slot env })
  | .load slot => quiet (session.turnTo (session.saved[slot]?.getD env))
  | .compare slot => quiet (.same ((session.saved[slot]?.map env.same).getD false), session)
  | .variable name => quiet (.variable (env.valueOf? name), session)
  | .function name => quiet (.function (env.functionOf? name), session)
  | .inspect => quiet (.environment env, session)

end Session

end Script
