import Script.Token
import Script.Tree

/-!
# From tokens to trees

Each production either fails or gives a tree and the tokens after it. What
it leaves is shorter than what it was given, so every production ends on
every list of tokens. Alternatives are tried in a fixed order on the same
tokens, and the first that succeeds is taken.
-/

set_option autoImplicit false

namespace Script

/-- What a production makes of the tokens `ts`: a node and the tokens after
it, of which there are fewer. -/
structure Parsed (α : Type) (ts : List Located) where
  node : α
  rest : List Located
  shorter : rest.length < ts.length

def Token.operatorAt? (level : Level) (t : Token) : Option Operator :=
  t.operator?.filter fun op => op.level == level

namespace Parsing

def rank : Level → Nat
  | .multiplicative => 4
  | .additive => 6
  | .comparison => 8

def primary : (ts : List Located) → Option (Parsed Expr ts)
  | ⟨.int n, _⟩ :: rest => some ⟨.int n, rest, Nat.lt_succ_self _⟩
  | ⟨.string s, _⟩ :: rest => some ⟨.string s, rest, Nat.lt_succ_self _⟩
  | ⟨.bool b, _⟩ :: rest => some ⟨.bool b, rest, Nat.lt_succ_self _⟩
  | ⟨.nullWord, _⟩ :: rest => some ⟨.null, rest, Nat.lt_succ_self _⟩
  | ⟨.ident name, _⟩ :: rest => some ⟨.variable name, rest, Nat.lt_succ_self _⟩
  | _ => none

mutual

def chain (level : Level) (ts : List Located) : Option (Parsed Expr ts) :=
  match operand level ts with
  | some p => chainFrom level ts p.node p.rest p.shorter
  | none => none
termination_by (ts.length, rank level)
decreasing_by
  · exact Prod.Lex.right _ (by cases level <;> decide)
  · exact Prod.Lex.left _ _ p.shorter

/-- The rest of a chain that starts at the tokens `start` and of which
`left` has been read. An operator must have an operand after it. -/
def chainFrom (level : Level) (start : List Located) (left : Expr) (ts : List Located)
    (h : ts.length < start.length) : Option (Parsed Expr start) :=
  match ts with
  | [] => some ⟨left, [], h⟩
  | t :: rest =>
    match t.token.operatorAt? level with
    | none => some ⟨left, t :: rest, h⟩
    | some op =>
      match operand level rest with
      | some p =>
        chainFrom level start (.binary op left p.node) p.rest
          (Nat.lt_trans p.shorter (Nat.lt_of_succ_lt h))
      | none => none
termination_by (ts.length, 0)
decreasing_by
  · exact Prod.Lex.left _ _ (Nat.lt_succ_self _)
  · exact Prod.Lex.left _ _ (Nat.lt_succ_of_lt p.shorter)

def operand (level : Level) (ts : List Located) : Option (Parsed Expr ts) :=
  match level with
  | .comparison => chain .additive ts
  | .additive => chain .multiplicative ts
  | .multiplicative => unary ts
termination_by (ts.length, rank level - 1)
decreasing_by all_goals exact Prod.Lex.right _ (by decide)

/-- A signed operand. A sign stands for a sum or difference with zero. -/
def unary (ts : List Located) : Option (Parsed Expr ts) :=
  match ts with
  | ⟨.minus, _⟩ :: rest =>
    match unary rest with
    | some p => some ⟨.binary .subtract (.int 0) p.node, p.rest, Nat.lt_succ_of_lt p.shorter⟩
    | none => none
  | ⟨.plus, _⟩ :: rest =>
    match unary rest with
    | some p => some ⟨.binary .add (.int 0) p.node, p.rest, Nat.lt_succ_of_lt p.shorter⟩
    | none => none
  | ts => call ts
termination_by (ts.length, 2)
decreasing_by
  · exact Prod.Lex.left _ _ (Nat.lt_succ_self _)
  · exact Prod.Lex.left _ _ (Nat.lt_succ_self _)
  · exact Prod.Lex.right _ (by decide)

/-- A call, or else a group. A name before arguments that do not read is
left to stand for a variable. -/
def call (ts : List Located) : Option (Parsed Expr ts) :=
  match ts with
  | ⟨.ident name, line⟩ :: ⟨.leftParen, line'⟩ :: rest =>
    match arguments rest with
    | some ⟨args, after, h⟩ =>
      some ⟨.call name args, after, Nat.lt_succ_of_lt (Nat.lt_succ_of_lt h)⟩
    | none => group (⟨.ident name, line⟩ :: ⟨.leftParen, line'⟩ :: rest)
  | ts => group ts
termination_by (ts.length, 1)
decreasing_by
  · exact Prod.Lex.left _ _ (Nat.lt_succ_of_lt (Nat.lt_succ_self _))
  · exact Prod.Lex.right _ (by decide)
  · exact Prod.Lex.right _ (by decide)

def group (ts : List Located) : Option (Parsed Expr ts) :=
  match ts with
  | ⟨.leftParen, _⟩ :: rest =>
    match chain .comparison rest with
    | some ⟨e, ⟨.rightParen, _⟩ :: after, h⟩ =>
      some ⟨e, after, Nat.lt_succ_of_lt (Nat.lt_of_succ_lt h)⟩
    | _ => none
  | ts => primary ts
termination_by (ts.length, 0)
decreasing_by exact Prod.Lex.left _ _ (Nat.lt_succ_self _)

def arguments (ts : List Located) : Option (Parsed (List Expr) ts) :=
  match ts with
  | ⟨.rightParen, _⟩ :: rest => some ⟨[], rest, Nat.lt_succ_self _⟩
  | ts => argumentList ts
termination_by (ts.length, 10)
decreasing_by exact Prod.Lex.right _ (by decide)

def argumentList (ts : List Located) : Option (Parsed (List Expr) ts) :=
  match chain .comparison ts with
  | some ⟨e, ⟨.comma, _⟩ :: after, h⟩ =>
    match argumentList after with
    | some p => some ⟨e :: p.node, p.rest, Nat.lt_trans p.shorter (Nat.lt_of_succ_lt h)⟩
    | none => none
  | some ⟨e, ⟨.rightParen, _⟩ :: after, h⟩ => some ⟨[e], after, Nat.lt_of_succ_lt h⟩
  | _ => none
termination_by (ts.length, 9)
decreasing_by
  · exact Prod.Lex.right _ (by decide)
  · exact Prod.Lex.left _ _ (Nat.lt_of_succ_lt h)

end

def expression (ts : List Located) : Option (Parsed Expr ts) :=
  chain .comparison ts

def expressionStatement (ts : List Located) : Option (Parsed Statement ts) :=
  match expression ts with
  | some ⟨e, ⟨.semicolon, _⟩ :: after, h⟩ =>
    some ⟨.expression e, after, Nat.lt_of_succ_lt h⟩
  | _ => none

def assignment (ts : List Located) : Option (Parsed Statement ts) :=
  match ts with
  | ⟨.ident name, _⟩ :: ⟨.assign, _⟩ :: rest =>
    match expression rest with
    | some ⟨e, ⟨.semicolon, _⟩ :: after, h⟩ =>
      some ⟨.assign name e, after, Nat.lt_succ_of_lt (Nat.lt_succ_of_lt (Nat.lt_of_succ_lt h))⟩
    | _ => none
  | _ => none

def condition (ts : List Located) : Option (Parsed Expr ts) :=
  match ts with
  | ⟨.leftParen, _⟩ :: rest =>
    match expression rest with
    | some ⟨e, ⟨.rightParen, _⟩ :: after, h⟩ =>
      some ⟨e, after, Nat.lt_succ_of_lt (Nat.lt_of_succ_lt h)⟩
    | _ => none
  | _ => none

mutual

def statement (ts : List Located) : Option (Parsed Statement ts) :=
  match expressionStatement ts with
  | some p => some p
  | none =>
    match assignment ts with
    | some p => some p
    | none =>
      match branch ts with
      | some p => some p
      | none => loop ts
termination_by (ts.length, 1)
decreasing_by all_goals exact Prod.Lex.right _ (by decide)

def branch (ts : List Located) : Option (Parsed Statement ts) :=
  match ts with
  | ⟨.ifWord, _⟩ :: rest =>
    match condition rest with
    | none => none
    | some ⟨c, rest₁, h₁⟩ =>
      match block rest₁ with
      | none => none
      | some ⟨body, rest₂, h₂⟩ =>
        match otherwise rest₂ with
        | some ⟨(other, rest₃), h₃⟩ =>
          some ⟨.branch c body other, rest₃,
            Nat.lt_succ_of_lt (Nat.lt_trans (Nat.lt_of_le_of_lt h₃ h₂) h₁)⟩
        | none => none
  | _ => none
termination_by (ts.length, 0)
decreasing_by
  · exact Prod.Lex.left _ _ (Nat.lt_succ_of_lt h₁)
  · exact Prod.Lex.left _ _ (Nat.lt_succ_of_lt (Nat.lt_trans h₂ h₁))

/-- What stands after the block of an `if`: nothing of it, or `else` and a
block, or `else` and an `if` that is all of the block. -/
def otherwise (ts : List Located) :
    Option { p : Option (List Statement) × List Located // p.2.length ≤ ts.length } :=
  match ts with
  | ⟨.elseWord, _⟩ :: ⟨.ifWord, line⟩ :: rest =>
    match branch (⟨.ifWord, line⟩ :: rest) with
    | some ⟨s, after, h⟩ => some ⟨(some [s], after), Nat.le_succ_of_le (Nat.le_of_lt h)⟩
    | none => none
  | ⟨.elseWord, _⟩ :: rest =>
    match block rest with
    | some ⟨body, after, h⟩ => some ⟨(some body, after), Nat.le_succ_of_le (Nat.le_of_lt h)⟩
    | none => none
  | ts => some ⟨(none, ts), Nat.le_refl _⟩
termination_by (ts.length, 1)
decreasing_by all_goals exact Prod.Lex.left _ _ (Nat.lt_succ_self _)

def loop (ts : List Located) : Option (Parsed Statement ts) :=
  match ts with
  | ⟨.whileWord, _⟩ :: rest =>
    match condition rest with
    | none => none
    | some ⟨c, rest₁, h₁⟩ =>
      match block rest₁ with
      | some ⟨body, rest₂, h₂⟩ =>
        some ⟨.loop c body, rest₂, Nat.lt_succ_of_lt (Nat.lt_trans h₂ h₁)⟩
      | none => none
  | _ => none
termination_by (ts.length, 0)
decreasing_by exact Prod.Lex.left _ _ (Nat.lt_succ_of_lt h₁)

def block (ts : List Located) : Option (Parsed (List Statement) ts) :=
  match ts with
  | ⟨.leftBrace, _⟩ :: rest =>
    match statements rest with
    | some ⟨body, after, h⟩ => some ⟨body, after, Nat.lt_succ_of_lt h⟩
    | none => none
  | _ => none
termination_by (ts.length, 0)
decreasing_by exact Prod.Lex.left _ _ (Nat.lt_succ_self _)

def statements (ts : List Located) : Option (Parsed (List Statement) ts) :=
  match ts with
  | [] => none
  | ⟨.rightBrace, _⟩ :: rest => some ⟨[], rest, Nat.lt_succ_self _⟩
  | ts =>
    match statement ts with
    | none => none
    | some ⟨s, after, h⟩ =>
      match statements after with
      | some ⟨body, rest, h'⟩ => some ⟨s :: body, rest, Nat.lt_trans h' h⟩
      | none => none
termination_by (ts.length, 2)
decreasing_by
  · exact Prod.Lex.right _ (by decide)
  · exact Prod.Lex.left _ _ h

end

def nameList : (ts : List Located) → Option (Parsed (List String) ts)
  | ⟨.ident name, _⟩ :: ⟨.comma, _⟩ :: rest =>
    match nameList rest with
    | some ⟨names, after, h⟩ =>
      some ⟨name :: names, after, Nat.lt_succ_of_lt (Nat.lt_succ_of_lt h)⟩
    | none => none
  | ⟨.ident name, _⟩ :: ⟨.rightParen, _⟩ :: rest =>
    some ⟨[name], rest, Nat.lt_succ_of_lt (Nat.lt_succ_self _)⟩
  | _ => none

def parameters (ts : List Located) : Option (Parsed (List String) ts) :=
  match ts with
  | ⟨.rightParen, _⟩ :: rest => some ⟨[], rest, Nat.lt_succ_self _⟩
  | ts => nameList ts

def definition (ts : List Located) : Option (Parsed Statement ts) :=
  match ts with
  | ⟨.defWord, _⟩ :: ⟨.ident name, _⟩ :: ⟨.leftParen, _⟩ :: rest =>
    match parameters rest with
    | none => none
    | some ⟨params, rest₁, h₁⟩ =>
      match block rest₁ with
      | some ⟨body, rest₂, h₂⟩ =>
        some ⟨.define name params body, rest₂,
          Nat.lt_succ_of_lt (Nat.lt_succ_of_lt (Nat.lt_succ_of_lt (Nat.lt_trans h₂ h₁)))⟩
      | none => none
  | _ => none

def topStatement (ts : List Located) : Option (Parsed Statement ts) :=
  match statement ts with
  | some p => some p
  | none => definition ts

def topStatements (ts : List Located) : Except Located (List Statement) :=
  match ts with
  | [] => .ok []
  | t :: rest =>
    match topStatement (t :: rest) with
    | none => .error t
    | some p =>
      match topStatements p.rest with
      | .ok ss => .ok (p.node :: ss)
      | .error e => .error e
termination_by ts.length
decreasing_by exact p.shorter

end Parsing

/-- Reads a whole program. There is no recovery: the error is the token that
starts the first statement which does not read. -/
def parse (ts : List Located) : Except Located Source :=
  match Parsing.topStatements ts with
  | .ok statements => .ok ⟨statements⟩
  | .error found => .error found

end Script
