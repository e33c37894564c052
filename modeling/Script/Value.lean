import Script.Numeral
import Script.Text.Quoted

/-!
# Values

What an expression evaluates to. Two values are equal when they are of one
kind and carry the same.
-/

set_option autoImplicit false

namespace Script

inductive Value where
  | int (n : Int64)
  | bool (b : Bool)
  | string (text : String)
  | null
  deriving DecidableEq

inductive Kind where
  | int
  | bool
  | string
  | null
  deriving DecidableEq

def Kind.name : Kind → String
  | .int => "int"
  | .bool => "bool"
  | .string => "string"
  | .null => "null"

namespace Value

def kind : Value → Kind
  | .int _ => .int
  | .bool _ => .bool
  | .string _ => .string
  | .null => .null

/-- Whether a condition takes the value for true. Only `false` and `null`
are not. -/
def isTruthy : Value → Bool
  | .bool b => b
  | .null => false
  | _ => true

def display : Value → List Char
  | .int n => Numeral.ofInt n.toInt
  | .bool true => "true".toList
  | .bool false => "false".toList
  | .string text => Text.quoted text
  | .null => "null".toList

end Value

end Script
