import Script.Numeral
import Script.Tree

/-!
# Trees as program text

Every tree is written as text that reads back as the same program. Each
operation stands in parentheses of its own, and a negative literal, which
no text can hold, is written as a difference from zero. Each writer is given
the text that follows, so writing takes time in proportion to the text.
-/

set_option autoImplicit false

namespace Script

def literalChar : Char → List Char
  | '\n' => ['\\', 'n']
  | '\t' => ['\\', 't']
  | '"' => ['\\', '"']
  | '\\' => ['\\', '\\']
  | c => [c]

def literal (text : String) : List Char :=
  '"' :: (text.toList.flatMap literalChar ++ ['"'])

/-- The least integer has no opposite, so its difference is taken twice. -/
def writeInt (n : Int64) : List Char :=
  if n = Int64.minValue then
    "((0 - ".toList ++ (Numeral.ofInt Int64.maxValue.toInt ++ ") - 1)".toList)
  else if n.toInt < 0 then
    "(0 - ".toList ++ (Numeral.ofNat n.toInt.natAbs ++ [')'])
  else
    Numeral.ofNat n.toInt.natAbs

mutual

def Expr.write : Expr → List Char → List Char
  | .int n, after => writeInt n ++ after
  | .bool true, after => "true".toList ++ after
  | .bool false, after => "false".toList ++ after
  | .string text, after => literal text ++ after
  | .null, after => "null".toList ++ after
  | .variable name, after => name.toList ++ after
  | .binary op left right, after =>
    '(' :: left.write (' ' :: (op.spelling.toList ++ ' ' :: right.write (')' :: after)))
  | .call name arguments, after =>
    name.toList ++ '(' :: Expr.writeAll arguments (')' :: after)

def Expr.writeAll : List Expr → List Char → List Char
  | [], after => after
  | [e], after => e.write after
  | e :: es, after => e.write (',' :: ' ' :: Expr.writeAll es after)

end

def writeNames : List String → List Char → List Char
  | [], after => after
  | [name], after => name.toList ++ after
  | name :: names, after => name.toList ++ ',' :: ' ' :: writeNames names after

def intoBlock : List Char :=
  [')', ' ', '{']

def blockEnd : List Char :=
  [' ', '}']

def intoElse : List Char :=
  blockEnd ++ " else ".toList ++ ['{']

mutual

def Statement.write : Statement → List Char → List Char
  | .expression e, after => e.write (';' :: after)
  | .assign name value, after =>
    name.toList ++ (" = ".toList ++ value.write (';' :: after))
  | .branch condition body none, after =>
    "if (".toList ++
      condition.write (intoBlock ++ Statement.writeAll body (blockEnd ++ after))
  | .branch condition body (some otherwise), after =>
    "if (".toList ++
      condition.write (intoBlock ++ Statement.writeAll body
        (intoElse ++ Statement.writeAll otherwise (blockEnd ++ after)))
  | .loop condition body, after =>
    "while (".toList ++
      condition.write (intoBlock ++ Statement.writeAll body (blockEnd ++ after))
  | .define name params body, after =>
    "def ".toList ++ (name.toList ++ '(' ::
      writeNames params (intoBlock ++ Statement.writeAll body (blockEnd ++ after)))

def Statement.writeAll : List Statement → List Char → List Char
  | [], after => after
  | s :: ss, after => ' ' :: s.write (Statement.writeAll ss after)

end

theorem Expr.write_int (n : Int64) (after : List Char) :
    (Expr.int n).write after = writeInt n ++ after :=
  rfl

theorem Expr.write_binary (op : Operator) (left right : Expr) (after : List Char) :
    (Expr.binary op left right).write after =
      '(' :: left.write (' ' :: (op.spelling.toList ++ ' ' :: right.write (')' :: after))) :=
  rfl

theorem Expr.write_call (name : String) (arguments : List Expr) (after : List Char) :
    (Expr.call name arguments).write after =
      name.toList ++ '(' :: Expr.writeAll arguments (')' :: after) :=
  rfl

namespace Statement
variable (condition : Expr) (body otherwise : List Statement) (after : List Char)

theorem write_expression (e : Expr) : (expression e).write after = e.write (';' :: after) :=
  rfl

theorem write_assign (name : String) (value : Expr) :
    (assign name value).write after =
      name.toList ++ (" = ".toList ++ value.write (';' :: after)) :=
  rfl

theorem write_branch : (branch condition body none).write after =
    "if (".toList ++ condition.write (intoBlock ++ writeAll body (blockEnd ++ after)) :=
  rfl

theorem write_branch_otherwise : (branch condition body (some otherwise)).write after =
    "if (".toList ++ condition.write (intoBlock ++ writeAll body
      (intoElse ++ writeAll otherwise (blockEnd ++ after))) :=
  rfl

theorem write_loop : (loop condition body).write after =
    "while (".toList ++ condition.write (intoBlock ++ writeAll body (blockEnd ++ after)) :=
  rfl

theorem write_define (name : String) (params : List String) :
    (define name params body).write after = "def ".toList ++ (name.toList ++ '(' ::
      writeNames params (intoBlock ++ writeAll body (blockEnd ++ after))) :=
  rfl

end Statement

def writeLines : List Statement → List Char → List Char
  | [], after => after
  | [s], after => s.write after
  | s :: ss, after => s.write ('\n' :: writeLines ss after)

/-- A program as text, one statement on each line. -/
def Source.print (source : Source) : String :=
  String.ofList (writeLines source.statements [])

end Script
