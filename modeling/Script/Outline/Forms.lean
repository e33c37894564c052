import Script.Environment
import Script.Outline
import Script.Token

/-!
# Outlines of programs

How tokens, trees, values and environments look when their structure is
shown.
-/

set_option autoImplicit false

namespace Script

namespace Outline

def ofText (text : String) : Outline :=
  .leaf (Text.quoted text)

def ofInt (n : Int64) : Outline :=
  .leaf (Numeral.ofInt n.toInt)

def ofNat (n : Nat) : Outline :=
  .leaf (Numeral.ofNat n)

def ofBool (b : Bool) : Outline :=
  atom (if b then "true" else "false")

end Outline

open Outline

def Token.outline : Token → Outline
  | .int n => tuple "Int" [ofInt n]
  | .string text => tuple "Str" [ofText text]
  | .bool b => tuple "Bool" [ofBool b]
  | .ident name => tuple "Ident" [ofText name]
  | .unknown text => tuple "Unknown" [ofText text]
  | .nullWord => atom "Null"
  | .ifWord => atom "If"
  | .elseWord => atom "Else"
  | .whileWord => atom "While"
  | .defWord => atom "Def"
  | .breakWord => atom "Break"
  | .lineComment => atom "LineComment"
  | .blockComment => atom "BlockComment"
  | .plus => atom "Plus"
  | .minus => atom "Minus"
  | .star => atom "Star"
  | .slash => atom "Slash"
  | .assign => atom "Equal"
  | .equal => atom "EqualEqual"
  | .notEqual => atom "BangEqual"
  | .less => atom "Less"
  | .lessEqual => atom "LessEqual"
  | .greater => atom "Greater"
  | .greaterEqual => atom "GreaterEqual"
  | .bang => atom "Bang"
  | .leftParen => atom "LParen"
  | .rightParen => atom "RParen"
  | .leftBrace => atom "LBrace"
  | .rightBrace => atom "RBrace"
  | .comma => atom "Comma"
  | .semicolon => atom "Semicolon"
  | .newline => atom "NewLine"

def Operator.outline : Operator → Outline
  | .add => atom "Add"
  | .subtract => atom "Subtract"
  | .multiply => atom "Multiply"
  | .divide => atom "Division"
  | .equal => atom "IsEqual"
  | .notEqual => atom "IsNotEqual"
  | .less => atom "IsLesser"
  | .lessEqual => atom "IsLesserOrEqual"
  | .greater => atom "IsGreater"
  | .greaterEqual => atom "IsGreaterOrEqual"

mutual

def Expr.outline : Expr → Outline
  | .int n => tuple "Int" [ofInt n]
  | .bool b => tuple "Bool" [ofBool b]
  | .string text => tuple "Str" [ofText text]
  | .null => atom "Null"
  | .variable name => record "Variable" [labelled "name" (ofText name)]
  | .binary op left right =>
    record "Binary"
      [labelled "op" op.outline, labelled "left" left.outline, labelled "right" right.outline]
  | .call name arguments =>
    record "Call"
      [labelled "name" (ofText name), labelled "arguments" (list (Expr.outlines arguments))]

def Expr.outlines : List Expr → List Outline
  | [] => []
  | e :: es => e.outline :: Expr.outlines es

end

mutual

def Statement.outline : Statement → Outline
  | .expression e => tuple "Expression" [e.outline]
  | .assign name value =>
    record "Assignment" [labelled "name" (ofText name), labelled "value" value.outline]
  | .branch condition body none =>
    record "If"
      [labelled "condition" condition.outline,
       labelled "then_block" (list (Statement.outlines body)),
       labelled "else_block" (atom "None")]
  | .branch condition body (some otherwise) =>
    record "If"
      [labelled "condition" condition.outline,
       labelled "then_block" (list (Statement.outlines body)),
       labelled "else_block" (tuple "Some" [list (Statement.outlines otherwise)])]
  | .loop condition body =>
    record "While"
      [labelled "condition" condition.outline, labelled "body" (list (Statement.outlines body))]
  | .define name params body =>
    tuple "FuncDef"
      [record "FunctionDef"
        [labelled "name" (ofText name),
         labelled "params" (list (params.map ofText)),
         labelled "body" (list (Statement.outlines body))]]

def Statement.outlines : List Statement → List Outline
  | [] => []
  | s :: ss => s.outline :: Statement.outlines ss

end

def Source.outline (source : Source) : Outline :=
  record "Source" [labelled "statements" (list (Statement.outlines source.statements))]

def Value.outline : Value → Outline
  | .int n => tuple "Int" [ofInt n]
  | .bool b => tuple "Bool" [ofBool b]
  | .string text => tuple "Str" [ofText text]
  | .null => atom "Null"

/-- Of a host function only the arity is shown. -/
def Function.outline : Function → Outline
  | .defined params body =>
    record "Defined"
      [labelled "params" (list (params.map ofText)),
       labelled "body" (list (Statement.outlines body))]
  | .embedded arity _ => record "Embedded" [labelled "arity" (ofNat arity), atom ".."]

def Bindings.outline {α : Type} (form : α → Outline) (bindings : Bindings α) : Outline :=
  .group ['{'] [] ['}'] (bindings.toList.map fun (name, a) => .field (Text.quoted name) (form a))

def Environment.outline (env : Environment) : Outline :=
  record "Environment"
    [labelled "variables" (Bindings.outline Value.outline env.vars),
     labelled "functions" (Bindings.outline Function.outline env.funcs)]

end Script
