import Script.Evaluation
import Script.Proofs.Alternatives

/-!
# Reading with a cursor

The productions as they go over the tokens. A cursor is moved from token to
token. A production that fails leaves it wherever it has come to, and only an
attempt puts it back. What a production does is a routine: it looks at the next
token or takes it, and calls or attempts other productions. A loop is a
production that calls itself at its end.

Nothing in a routine says that it ends, so a run is given an amount of fuel, of
which every call into another production uses one.

Readers may choose differently: the forms of a statement may be tried in another
order, and a call may be given up whose arguments do not read.
-/

set_option autoImplicit false

namespace Script.Cursor

/-- How a reader chooses between alternatives. -/
structure Strategy where
  /-- The forms of a statement in the order in which they are tried. -/
  order : List Form
  /-- Whether a name before arguments that do not read stands for a variable. -/
  retreats : Bool
  complete : ∀ form, form ∈ order

namespace Strategy

def standard : Strategy :=
  ⟨Form.all, true, Form.mem_all⟩

def predicting : Strategy :=
  ⟨Form.all, false, Form.mem_all⟩

def anywhere (σ : Strategy) : List Form :=
  σ.order.filter (· != .definition)

def early (σ : Strategy) : List Form :=
  σ.order.takeWhile (· != .definition)

def late (σ : Strategy) : List Form :=
  (σ.order.dropWhile (· != .definition)).tail

end Strategy

inductive Item : Type → Type where
  | argument : Item Expr
  | parameter : Item String

inductive Production : Type → Type 1 where
  | chain (level : Level) : Production Expr
  | chainRest (level : Level) (left : Expr) : Production Expr
  | unary : Production Expr
  | call : Production Expr
  | callArguments : Production (List Expr)
  | callOpening : Production Unit
  | group : Production Expr
  | primary : Production Expr
  | list {α : Type} (item : Item α) : Production (List α)
  | items {α : Type} (item : Item α) : Production (List α)
  | name : Production String
  | form (form : Form) : Production Statement
  | oneOf (forms : List Form) : Production Statement
  | topStatement : Production Statement
  | block : Production (List Statement)
  | statements : Production (List Statement)
  | program : Production (Except Located (List Statement))

/-- The steps of a production. Each goes on from what it has met: the next
token, if there is one, or the node of a production, if it succeeds. -/
inductive Routine (α : Type) : Type 1 where
  | give (node : α)
  | fail
  | peek (next : Option Located → Routine α)
  | take (next : Option Located → Routine α)
  | call {β : Type} (p : Production β) (next : Option β → Routine α)
  | attempt {β : Type} (p : Production β) (next : Option β → Routine α)

namespace Routine
variable {α β : Type}

def read (p : Production β) (next : β → Routine α) : Routine α :=
  .call p fun
    | some b => next b
    | none => .fail

def expect (k : Token) (next : Routine α) : Routine α :=
  .take fun
    | some t => if t.token = k then next else .fail
    | none => .fail

def advance (next : Routine α) : Routine α :=
  .take fun
    | some _ => next
    | none => .fail

def before (k : Token) (next other : Routine α) : Routine α :=
  .peek fun
    | some t => if t.token = k then next else other
    | none => other

def accept (k : Token) (next other : Routine α) : Routine α :=
  before k (advance next) other

def firstOf : List (Production α) → Routine α
  | [] => .fail
  | p :: ps => .attempt p fun
    | some a => .give a
    | none => firstOf ps

def guarded (next : Expr → List Statement → Routine α) : Routine α :=
  expect .leftParen (read (.chain .comparison) fun c => expect .rightParen (read .block (next c)))

def elseBlock (node : Option (List Statement) → α) : Routine α :=
  accept .elseWord
    (before .ifWord
      (read (.form .branch) fun s => .give (node (some [s])))
      (read .block fun body => .give (node (some body))))
    (.give (node none))

end Routine

open Routine

def operand : Level → Production Expr
  | .comparison => .chain .additive
  | .additive => .chain .multiplicative
  | .multiplicative => .unary

def Item.production {α : Type} : Item α → Production α
  | .argument => .chain .comparison
  | .parameter => .name

def formRoutine : Form → Routine Statement
  | .expression =>
    read (.chain .comparison) fun e => expect .semicolon (.give (.expression e))
  | .assignment =>
    read .name fun x => expect .assign (read (.chain .comparison) fun e =>
      expect .semicolon (.give (.assign x e)))
  | .branch =>
    expect .ifWord (guarded fun c body => elseBlock (.branch c body))
  | .loop => expect .whileWord (guarded fun c body => .give (.loop c body))
  | .definition =>
    expect .defWord (read .name fun f => expect .leftParen (read (.list .parameter) fun params =>
      read .block fun body => .give (.define f params body)))

/-- The steps of a call. The name is looked at first, and what comes after it is
attempted. -/
def callRoutine (retreats : Bool) : Routine Expr :=
  .peek fun
    | some ⟨.ident f, _⟩ =>
      if retreats then
        .attempt .callArguments fun
          | some es => .give (.call f es)
          | none => read .group .give
      else
        .attempt .callOpening fun
          | some _ => read (.list .argument) fun es => .give (.call f es)
          | none => read .group .give
    | _ => read .group .give

def Production.routine (σ : Strategy) : {α : Type} → Production α → Routine α
  | _, .chain l => read (operand l) fun left => read (.chainRest l left) .give
  | _, .chainRest l left => .peek fun t =>
    match t.bind fun t => t.token.operatorAt? l with
    | some op => advance (read (operand l) fun right =>
        read (.chainRest l (.binary op left right)) .give)
    | none => .give left
  | _, .unary =>
    accept .minus (read .unary fun e => .give (.binary .subtract (.int 0) e))
      (accept .plus (read .unary fun e => .give (.binary .add (.int 0) e))
        (read .call .give))
  | _, .call => callRoutine σ.retreats
  | _, .callArguments => advance (expect .leftParen (read (.list .argument) .give))
  | _, .callOpening => advance (expect .leftParen (.give ()))
  | _, .group =>
    accept .leftParen (read (.chain .comparison) fun e => expect .rightParen (.give e))
      (read .primary .give)
  | _, .primary => .take fun
    | some ⟨.int n, _⟩ => .give (.int n)
    | some ⟨.string s, _⟩ => .give (.string s)
    | some ⟨.bool b, _⟩ => .give (.bool b)
    | some ⟨.nullWord, _⟩ => .give .null
    | some ⟨.ident x, _⟩ => .give (.variable x)
    | _ => .fail
  | _, .list item => accept .rightParen (.give []) (read (.items item) .give)
  | _, .items item => read item.production fun a => .take fun
    | some ⟨.comma, _⟩ => read (.items item) fun as => .give (a :: as)
    | some ⟨.rightParen, _⟩ => .give [a]
    | _ => .fail
  | _, .name => .take fun
    | some ⟨.ident x, _⟩ => .give x
    | _ => .fail
  | _, .form f => formRoutine f
  | _, .oneOf forms => firstOf (forms.map .form)
  | _, .topStatement => .call (.oneOf σ.early) fun
    | some s => .give s
    | none => .attempt (.form .definition) fun
      | some s => .give s
      | none => read (.oneOf σ.late) .give
  | _, .block => expect .leftBrace (read .statements .give)
  | _, .statements => .peek fun
    | some t =>
      if t.token = .rightBrace then
        advance (.give [])
      else
        read (.oneOf σ.anywhere) fun s => read .statements fun ss => .give (s :: ss)
    | none => .fail
  | _, .program => .peek fun
    | some t => .call .topStatement fun
      | some s => read .program fun more => .give (more.map (s :: ·))
      | none => .give (.error t)
    | none => .give (.ok [])

abbrev Result (α : Type) := Outcome Unit α × List Located

def Routine.run {α : Type} (callee : {β : Type} → Production β → List Located → Result β) :
    Routine α → List Located → Result α
  | .give a, ts => (.done a, ts)
  | .fail, ts => (.failed (), ts)
  | .peek next, ts => (next ts.head?).run callee ts
  | .take next, ts => (next ts.head?).run callee ts.tail
  | .call p next, ts =>
    match callee p ts with
    | (.done b, rest) => (next (some b)).run callee rest
    | (.failed _, rest) => (next none).run callee rest
    | (.exhausted, rest) => (.exhausted, rest)
  | .attempt p next, ts =>
    match callee p ts with
    | (.done b, rest) => (next (some b)).run callee rest
    | (.failed _, _) => (next none).run callee ts
    | (.exhausted, rest) => (.exhausted, rest)

def Production.run (σ : Strategy) : Nat → {α : Type} → Production α → List Located → Result α
  | 0, _, _, ts => (.exhausted, ts)
  | fuel + 1, _, p, ts => (p.routine σ).run (fun q => q.run σ fuel) ts

end Script.Cursor
