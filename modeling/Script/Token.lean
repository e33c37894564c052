import Script.Numeral
import Script.Operator
import Script.Text.Quoted

/-!
# Tokens

The words of a program. Four kinds carry what they denote; an unknown token
carries text that is no word at all, so that reading goes on past it. The
two comment tokens and the newline token are part of the alphabet although
comments and newlines never become tokens when a text is read.
-/

set_option autoImplicit false

namespace Script

inductive Token where
  | int (value : Int64)
  | string (text : String)
  | bool (value : Bool)
  | ident (name : String)
  | unknown (text : String)
  | nullWord
  | ifWord
  | elseWord
  | whileWord
  | defWord
  | breakWord
  | lineComment
  | blockComment
  | plus
  | minus
  | star
  | slash
  | assign
  | equal
  | notEqual
  | less
  | lessEqual
  | greater
  | greaterEqual
  | bang
  | leftParen
  | rightParen
  | leftBrace
  | rightBrace
  | comma
  | semicolon
  | newline
  deriving DecidableEq

structure Located where
  token : Token
  line : Nat
  deriving DecidableEq

namespace Token

def display : Token → List Char
  | .int n => Numeral.ofInt n.toInt
  | .string text => Text.quoted text
  | .bool b => (if b then "true" else "false").toList
  | .ident name => name.toList
  | .unknown text => text.toList
  | .nullWord => "null".toList
  | .ifWord => "if".toList
  | .elseWord => "else".toList
  | .whileWord => "while".toList
  | .defWord => "def".toList
  | .breakWord => "break".toList
  | .lineComment => "//".toList
  | .blockComment => "/*".toList
  | .plus => ['+']
  | .minus => ['-']
  | .star => ['*']
  | .slash => ['/']
  | .assign => ['=']
  | .equal => "==".toList
  | .notEqual => "!=".toList
  | .less => ['<']
  | .lessEqual => "<=".toList
  | .greater => ['>']
  | .greaterEqual => ">=".toList
  | .bang => ['!']
  | .leftParen => ['(']
  | .rightParen => [')']
  | .leftBrace => ['{']
  | .rightBrace => ['}']
  | .comma => [',']
  | .semicolon => [';']
  | .newline => ['\n']

/-- The binary operator that a token stands for between two operands. -/
def operator? : Token → Option Operator
  | .plus => some .add
  | .minus => some .subtract
  | .star => some .multiply
  | .slash => some .divide
  | .equal => some .equal
  | .notEqual => some .notEqual
  | .less => some .less
  | .lessEqual => some .lessEqual
  | .greater => some .greater
  | .greaterEqual => some .greaterEqual
  | _ => none

def ofWord? (word : String) : Option Token :=
  match word with
  | "true" => some (.bool true)
  | "false" => some (.bool false)
  | "null" => some .nullWord
  | "if" => some .ifWord
  | "else" => some .elseWord
  | "while" => some .whileWord
  | "def" => some .defWord
  | "break" => some .breakWord
  | _ => none

end Token

end Script
