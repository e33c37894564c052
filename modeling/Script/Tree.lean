import Script.Operator

/-!
# Program trees

Expressions, statements and whole programs. A sign before an expression has
no node of its own: it is a sum or difference with zero on the left. A
function may be defined only at the top of a program that is read, but a
tree may hold a definition anywhere.
-/

set_option autoImplicit false

namespace Script

inductive Expr where
  | int (value : Int64)
  | bool (value : Bool)
  | string (text : String)
  | null
  | variable (name : String)
  | binary (op : Operator) (left right : Expr)
  | call (name : String) (arguments : List Expr)

inductive Statement where
  | expression (e : Expr)
  | assign (name : String) (value : Expr)
  | branch (condition : Expr) (body : List Statement) (otherwise : Option (List Statement))
  | loop (condition : Expr) (body : List Statement)
  | define (name : String) (params : List String) (body : List Statement)

structure Source where
  statements : List Statement

/-! ### Equality of trees -/

mutual

def Expr.same : Expr → Expr → Bool
  | .int m, .int n => m == n
  | .bool a, .bool b => a == b
  | .string s, .string t => s == t
  | .null, .null => true
  | .variable x, .variable y => x == y
  | .binary p a b, .binary q c d => p == q && a.same c && b.same d
  | .call f as, .call g bs => f == g && Expr.sameAll as bs
  | _, _ => false

def Expr.sameAll : List Expr → List Expr → Bool
  | [], [] => true
  | a :: as, b :: bs => a.same b && Expr.sameAll as bs
  | _, _ => false

end

mutual

theorem Expr.same_iff : ∀ a b : Expr, a.same b = true ↔ a = b
  | .int _, b => by cases b <;> simp [Expr.same]
  | .bool _, b => by cases b <;> simp [Expr.same]
  | .string _, b => by cases b <;> simp [Expr.same]
  | .null, b => by cases b <;> simp [Expr.same]
  | .variable _, b => by cases b <;> simp [Expr.same]
  | .binary _ a b, c => by
    cases c with
    | binary _ c d => simp [Expr.same, Expr.same_iff a c, Expr.same_iff b d, and_assoc]
    | _ => simp [Expr.same]
  | .call _ as, b => by
    cases b with
    | call _ bs => simp [Expr.same, Expr.sameAll_iff as bs]
    | _ => simp [Expr.same]

theorem Expr.sameAll_iff : ∀ as bs : List Expr, Expr.sameAll as bs = true ↔ as = bs
  | [], bs => by cases bs <;> simp [Expr.sameAll]
  | a :: as, bs => by
    cases bs with
    | nil => simp [Expr.sameAll]
    | cons b bs => simp [Expr.sameAll, Expr.same_iff a b, Expr.sameAll_iff as bs]

end

instance : DecidableEq Expr := fun a b => decidable_of_iff _ (Expr.same_iff a b)

mutual

def Statement.same : Statement → Statement → Bool
  | .expression a, .expression b => a == b
  | .assign x a, .assign y b => x == y && a == b
  | .branch a ss none, .branch b ts none => a == b && Statement.sameAll ss ts
  | .branch a ss (some us), .branch b ts (some vs) =>
    a == b && Statement.sameAll ss ts && Statement.sameAll us vs
  | .loop a ss, .loop b ts => a == b && Statement.sameAll ss ts
  | .define f ps ss, .define g qs ts => f == g && ps == qs && Statement.sameAll ss ts
  | _, _ => false

def Statement.sameAll : List Statement → List Statement → Bool
  | [], [] => true
  | s :: ss, t :: ts => s.same t && Statement.sameAll ss ts
  | _, _ => false

end

mutual

theorem Statement.same_iff : ∀ s t : Statement, s.same t = true ↔ s = t
  | .expression _, t => by cases t <;> simp [Statement.same]
  | .assign _ _, t => by cases t <;> simp [Statement.same]
  | .branch _ ss none, t => by
    cases t with
    | branch _ ts us => cases us <;> simp [Statement.same, Statement.sameAll_iff ss ts]
    | _ => simp [Statement.same]
  | .branch _ ss (some us), t => by
    cases t with
    | branch _ ts vs =>
      cases vs with
      | none => simp [Statement.same]
      | some vs =>
        simp [Statement.same, Statement.sameAll_iff ss ts, Statement.sameAll_iff us vs, and_assoc]
    | _ => simp [Statement.same]
  | .loop _ ss, t => by
    cases t with
    | loop _ ts => simp [Statement.same, Statement.sameAll_iff ss ts]
    | _ => simp [Statement.same]
  | .define _ _ ss, t => by
    cases t with
    | define _ _ ts => simp [Statement.same, Statement.sameAll_iff ss ts, and_assoc]
    | _ => simp [Statement.same]

theorem Statement.sameAll_iff :
    ∀ ss ts : List Statement, Statement.sameAll ss ts = true ↔ ss = ts
  | [], ts => by cases ts <;> simp [Statement.sameAll]
  | s :: ss, ts => by
    cases ts with
    | nil => simp [Statement.sameAll]
    | cons t ts => simp [Statement.sameAll, Statement.same_iff s t, Statement.sameAll_iff ss ts]

end

instance : DecidableEq Statement := fun s t => decidable_of_iff _ (Statement.same_iff s t)

deriving instance DecidableEq for Source

end Script
