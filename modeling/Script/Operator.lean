/-!
# Binary operators

Ten operators on three levels of binding. Comparisons bind loosest, then
sums, then products.
-/

set_option autoImplicit false

namespace Script

inductive Operator where
  | add
  | subtract
  | multiply
  | divide
  | equal
  | notEqual
  | less
  | lessEqual
  | greater
  | greaterEqual
  deriving DecidableEq

/-- How tightly a chain of operators binds, loosest first. -/
inductive Level where
  | comparison
  | additive
  | multiplicative
  deriving DecidableEq

namespace Operator

def level : Operator → Level
  | .add | .subtract => .additive
  | .multiply | .divide => .multiplicative
  | _ => .comparison

def spelling : Operator → String
  | .add => "+"
  | .subtract => "-"
  | .multiply => "*"
  | .divide => "/"
  | .equal => "=="
  | .notEqual => "!="
  | .less => "<"
  | .lessEqual => "<="
  | .greater => ">"
  | .greaterEqual => ">="

end Operator

end Script
