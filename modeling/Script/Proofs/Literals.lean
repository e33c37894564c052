import Script.Evaluation

/-!
# Writing literals in another way

A tree stays the same but for its integer literals when each of them is put
as some expression. Functions and environments follow from the trees that
they hold. Nothing changes when every literal is put as itself.
-/

set_option autoImplicit false

namespace Script

mutual

/-- The expression with each integer literal put as an expression. -/
def Expr.mapInts (put : Int64 → Expr) : Expr → Expr
  | .int n => put n
  | .bool b => .bool b
  | .string text => .string text
  | .null => .null
  | .variable x => .variable x
  | .binary op left right => .binary op (left.mapInts put) (right.mapInts put)
  | .call f arguments => .call f (Expr.mapIntsAll put arguments)

def Expr.mapIntsAll (put : Int64 → Expr) : List Expr → List Expr
  | [] => []
  | e :: es => e.mapInts put :: Expr.mapIntsAll put es

end

mutual

def Statement.mapInts (put : Int64 → Expr) : Statement → Statement
  | .expression e => .expression (e.mapInts put)
  | .assign x value => .assign x (value.mapInts put)
  | .branch condition body none =>
    .branch (condition.mapInts put) (Statement.mapIntsAll put body) none
  | .branch condition body (some otherwise) =>
    .branch (condition.mapInts put) (Statement.mapIntsAll put body)
      (some (Statement.mapIntsAll put otherwise))
  | .loop condition body => .loop (condition.mapInts put) (Statement.mapIntsAll put body)
  | .define f params body => .define f params (Statement.mapIntsAll put body)

def Statement.mapIntsAll (put : Int64 → Expr) : List Statement → List Statement
  | [] => []
  | s :: ss => s.mapInts put :: Statement.mapIntsAll put ss

end

def Function.mapInts (put : Int64 → Expr) : Function → Function
  | .defined params body => .defined params (Statement.mapIntsAll put body)
  | .embedded arity host => .embedded arity host

def Environment.mapInts (put : Int64 → Expr) (env : Environment) : Environment :=
  { env with funcs := env.funcs.map fun _ function => function.mapInts put }

variable {put put' : Int64 → Expr}

theorem Expr.length_mapIntsAll (es : List Expr) :
    (Expr.mapIntsAll put es).length = es.length := by
  induction es with
  | nil => rfl
  | cons e es ih => simp [Expr.mapIntsAll, ih]

theorem Function.arity_mapInts (function : Function) :
    (function.mapInts put).arity = function.arity := by
  cases function <;> rfl

/-! ### What an environment holds -/

namespace Environment

theorem functionOf?_mapInts (env : Environment) (f : String) :
    (env.mapInts put).functionOf? f = (env.functionOf? f).map (Function.mapInts put) := by
  simp only [functionOf?, mapInts, Std.ExtTreeMap.getElem?_map]

theorem mapInts_setFunction (env : Environment) (f : String) (function : Function) :
    (env.setFunction f function).mapInts put =
      (env.mapInts put).setFunction f (function.mapInts put) := by
  apply eq_of_lookups
  · intro x
    rfl
  · intro g
    rw [functionOf?_mapInts, functionOf?_setFunction, functionOf?_setFunction,
      functionOf?_mapInts]
    by_cases h : f = g
    · rw [if_pos h, if_pos h]
      rfl
    · rw [if_neg h, if_neg h]

end Environment

/-! ### Putting literals twice -/

mutual

theorem Expr.mapInts_mapInts :
    ∀ e : Expr, (e.mapInts put).mapInts put' = e.mapInts fun n => (put n).mapInts put'
  | .int _ => rfl
  | .bool _ => rfl
  | .string _ => rfl
  | .null => rfl
  | .variable _ => rfl
  | .binary op left right => by
    simp only [Expr.mapInts, left.mapInts_mapInts, right.mapInts_mapInts]
  | .call f es => by simp only [Expr.mapInts, Expr.mapIntsAll_mapIntsAll es]

theorem Expr.mapIntsAll_mapIntsAll : ∀ es : List Expr,
    Expr.mapIntsAll put' (Expr.mapIntsAll put es) =
      Expr.mapIntsAll (fun n => (put n).mapInts put') es
  | [] => rfl
  | e :: es => by
    simp only [Expr.mapIntsAll, e.mapInts_mapInts, Expr.mapIntsAll_mapIntsAll es]

end

mutual

theorem Statement.mapInts_mapInts :
    ∀ s : Statement, (s.mapInts put).mapInts put' = s.mapInts fun n => (put n).mapInts put'
  | .expression e => by simp only [Statement.mapInts, e.mapInts_mapInts]
  | .assign x value => by simp only [Statement.mapInts, value.mapInts_mapInts]
  | .branch c body none => by
    simp only [Statement.mapInts, c.mapInts_mapInts, Statement.mapIntsAll_mapIntsAll body]
  | .branch c body (some other) => by
    simp only [Statement.mapInts, c.mapInts_mapInts, Statement.mapIntsAll_mapIntsAll body,
      Statement.mapIntsAll_mapIntsAll other]
  | .loop c body => by
    simp only [Statement.mapInts, c.mapInts_mapInts, Statement.mapIntsAll_mapIntsAll body]
  | .define f params body => by
    simp only [Statement.mapInts, Statement.mapIntsAll_mapIntsAll body]

theorem Statement.mapIntsAll_mapIntsAll : ∀ ss : List Statement,
    Statement.mapIntsAll put' (Statement.mapIntsAll put ss) =
      Statement.mapIntsAll (fun n => (put n).mapInts put') ss
  | [] => rfl
  | s :: ss => by
    simp only [Statement.mapIntsAll, s.mapInts_mapInts, Statement.mapIntsAll_mapIntsAll ss]

end

/-! ### Putting each literal as itself -/

mutual

theorem Expr.mapInts_int : ∀ e : Expr, e.mapInts .int = e
  | .int _ => rfl
  | .bool _ => rfl
  | .string _ => rfl
  | .null => rfl
  | .variable _ => rfl
  | .binary op left right => by simp only [Expr.mapInts, left.mapInts_int, right.mapInts_int]
  | .call f es => by simp only [Expr.mapInts, Expr.mapIntsAll_int es]

theorem Expr.mapIntsAll_int : ∀ es : List Expr, Expr.mapIntsAll .int es = es
  | [] => rfl
  | e :: es => by simp only [Expr.mapIntsAll, e.mapInts_int, Expr.mapIntsAll_int es]

end

mutual

theorem Statement.mapInts_int : ∀ s : Statement, s.mapInts .int = s
  | .expression e => by simp only [Statement.mapInts, e.mapInts_int]
  | .assign x value => by simp only [Statement.mapInts, value.mapInts_int]
  | .branch c body none => by
    simp only [Statement.mapInts, c.mapInts_int, Statement.mapIntsAll_int body]
  | .branch c body (some other) => by
    simp only [Statement.mapInts, c.mapInts_int, Statement.mapIntsAll_int body,
      Statement.mapIntsAll_int other]
  | .loop c body => by
    simp only [Statement.mapInts, c.mapInts_int, Statement.mapIntsAll_int body]
  | .define f params body => by simp only [Statement.mapInts, Statement.mapIntsAll_int body]

theorem Statement.mapIntsAll_int : ∀ ss : List Statement, Statement.mapIntsAll .int ss = ss
  | [] => rfl
  | s :: ss => by simp only [Statement.mapIntsAll, s.mapInts_int, Statement.mapIntsAll_int ss]

end

theorem Function.mapInts_int (function : Function) : function.mapInts .int = function := by
  cases function with
  | defined params body => rw [Function.mapInts, Statement.mapIntsAll_int]
  | embedded arity host => rfl

theorem Environment.mapInts_int (env : Environment) : env.mapInts .int = env := by
  apply eq_of_lookups
  · intro x
    rfl
  · intro f
    rw [functionOf?_mapInts]
    cases env.functionOf? f with
    | none => rfl
    | some function => rw [Option.map_some, function.mapInts_int]

end Script
