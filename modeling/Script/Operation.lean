import Script.Failure
import Script.Word

/-!
# Operations on two values

Arithmetic on integers is exact or fails: a result is computed without
bounds and has to be an integer of the language. Division drops the
fraction. A sum of two strings joins them. Any two values can be compared
for equality, but only integers have an order.
-/

set_option autoImplicit false

namespace Script

namespace Operator

def fitting (op : Operator) (result : Int) : Except EvalError Int64 :=
  match word? result with
  | some n => .ok n
  | none => .error (.overflow op)

def compute (op : Operator) (left right : Int64) : Except EvalError Int64 :=
  match op with
  | .add => op.fitting (left.toInt + right.toInt)
  | .subtract => op.fitting (left.toInt - right.toInt)
  | .multiply => op.fitting (left.toInt * right.toInt)
  | .divide =>
    if right.toInt = 0 then .error .divisionByZero
    else op.fitting (left.toInt.tdiv right.toInt)
  | _ => .error (.typeMismatch op .int .int)

/-- Whether two integers stand in the order that an operator asks for.
Operators that ask for no order hold of none. -/
def holds (op : Operator) (left right : Int64) : Bool :=
  match op with
  | .less => decide (left.toInt < right.toInt)
  | .lessEqual => decide (left.toInt ≤ right.toInt)
  | .greater => decide (right.toInt < left.toInt)
  | .greaterEqual => decide (right.toInt ≤ left.toInt)
  | _ => false

def mismatch (op : Operator) (left right : Value) : EvalError :=
  .typeMismatch op left.kind right.kind

def arithmetic (op : Operator) (left right : Value) : Except EvalError Value :=
  match left, right with
  | .int m, .int n => (op.compute m n).map Value.int
  | .string s, .string t =>
    if op = .add then .ok (.string (s ++ t)) else .error (op.mismatch left right)
  | _, _ => .error (op.mismatch left right)

def comparison (op : Operator) (left right : Value) : Except EvalError Value :=
  match op with
  | .equal => .ok (.bool (left == right))
  | .notEqual => .ok (.bool (left != right))
  | op =>
    match left, right with
    | .int m, .int n => .ok (.bool (op.holds m n))
    | _, _ => .error (op.mismatch left right)

/-- What a binary operator gives for two values. -/
def apply (op : Operator) (left right : Value) : Except EvalError Value :=
  match op.level with
  | .comparison => op.comparison left right
  | _ => op.arithmetic left right

end Operator

end Script
