import Script.Environment
import Script.Word

/-!
# Host functions in stock

A few host functions that can be embedded under any name and with any arity.
They take whatever arguments they are given.
-/

set_option autoImplicit false

namespace Script

inductive Stock where
  | constant (answer : Native)
  | first
  | count
  | join
  | add
  | half
  | record

namespace Stock

def answer : Stock → List Native → Native
  | .constant answer, _ => answer
  | .first, arguments => arguments.head?.getD .null
  | .count, arguments => .int (Int64.ofNat arguments.length)
  | .join, arguments =>
    .text (String.ofList (List.intercalate ['|'] (arguments.map Native.display)))
  | .add, [.int m, .int n] => ((word? (m.toInt + n.toInt)).map Native.int).getD .null
  | .half, [.int n] => .float (Double.half n)
  | _, _ => .null

def events : Stock → List Native → List Event
  | .record, arguments => [.recorded arguments]
  | _, _ => []

def host (stock : Stock) (identity : Nat) : Host where
  identity := identity
  reply _ arguments := (stock.answer arguments, stock.events arguments)

end Stock

end Script
