import Script.Token
import Script.Value

/-!
# What can go wrong

A program fails when its text holds a word that does not exist, when its
tokens are no program, or when it is evaluated. The wording of each message
is here and nowhere else.
-/

set_option autoImplicit false

namespace Script

inductive EvalError where
  | typeMismatch (op : Operator) (left right : Kind)
  | undefinedFunction (name : String)
  | argumentCount (name : String) (expected found : Nat)
  | divisionByZero
  | overflow (op : Operator)
  deriving DecidableEq

inductive Failure where
  | unknownText (text : String) (line : Nat)
  | unexpectedToken (found : Located)
  | evaluation (e : EvalError)
  deriving DecidableEq

private def number (n : Nat) : String :=
  String.ofList (Numeral.ofNat n)

def EvalError.message : EvalError → String
  | .typeMismatch op left right =>
    "Type error: cannot apply '" ++ op.spelling ++ "' to " ++ left.name ++ " and " ++
      right.name ++ "."
  | .undefinedFunction name => "Undefined function '" ++ name ++ "'."
  | .argumentCount name expected found =>
    "Function '" ++ name ++ "' expects " ++ number expected ++ " argument(s), but " ++
      number found ++ " were given."
  | .divisionByZero => "Division by zero."
  | .overflow op => "Integer overflow while computing '" ++ op.spelling ++ "'."

def Failure.message : Failure → String
  | .unknownText text line =>
    "Error on line " ++ number line ++ ": Unknown character '" ++ text ++ "'."
  | .unexpectedToken found =>
    "Error on line " ++ number found.line ++ ": Unexpected token '" ++
      String.ofList found.token.display ++ "'."
  | .evaluation e => e.message

end Script
