import Script.Double
import Script.Value

/-!
# Values of the host

Host functions take and give values of their own. They may give a number
with a fraction, which the language does not have.
-/

set_option autoImplicit false

namespace Script

inductive Native where
  | int (n : Int64)
  | float (x : Double)
  | bool (b : Bool)
  | text (s : String)
  | null
  deriving DecidableEq

namespace Native

def ofValue : Value → Native
  | .int n => .int n
  | .bool b => .bool b
  | .string s => .text s
  | .null => .null

/-- A host value as the language sees it. A number loses its fraction; one
that is then no integer of the language is null. -/
def toValue : Native → Value
  | .int n => .int n
  | .float x => (x.truncate.map Value.int).getD .null
  | .bool b => .bool b
  | .text s => .string s
  | .null => .null

def display : Native → List Char
  | .int n => Numeral.ofInt n.toInt
  | .float x => x.display
  | .bool true => "true".toList
  | .bool false => "false".toList
  | .text s => s.toList
  | .null => "null".toList

end Native

end Script
