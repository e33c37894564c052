import Script.Tree.Parsing

/-!
# The grammar of programs

Which words form which tree, said without a reader: each relation joins a
list of tokens to the tree that it stands for, and no relation tries one
form before another. Lines play no part. A chain of one level leans to the
left, parentheses and commas leave no trace, and `else if` is an `else` whose
block holds the second `if` alone.

An `if` without a last `else` dangles: an `else` put after it would belong to
it. The relations for statements tell in their first argument whether it does.
-/

set_option autoImplicit false

namespace Script

def Operator.token : Operator → Token
  | .add => .plus
  | .subtract => .minus
  | .multiply => .star
  | .divide => .slash
  | .equal => .equal
  | .notEqual => .notEqual
  | .less => .less
  | .lessEqual => .lessEqual
  | .greater => .greater
  | .greaterEqual => .greaterEqual

namespace Grammar

inductive Atom : Token → Expr → Prop where
  | int (n : Int64) : Atom (.int n) (.int n)
  | string (text : String) : Atom (.string text) (.string text)
  | bool (b : Bool) : Atom (.bool b) (.bool b)
  | null : Atom .nullWord .null
  | variable (x : String) : Atom (.ident x) (.variable x)

/-- The operators that stand between the operands of a level. -/
inductive Joins : Level → Operator → Prop where
  | equal : Joins .comparison .equal
  | notEqual : Joins .comparison .notEqual
  | less : Joins .comparison .less
  | lessEqual : Joins .comparison .lessEqual
  | greater : Joins .comparison .greater
  | greaterEqual : Joins .comparison .greaterEqual
  | add : Joins .additive .add
  | subtract : Joins .additive .subtract
  | multiply : Joins .multiplicative .multiply
  | divide : Joins .multiplicative .divide

mutual

/-- Operands of one level with its operators between them. -/
inductive Chain : Level → List Token → Expr → Prop where
  | operand {l : Level} {w : List Token} {e : Expr} : Operand l w e → Chain l w e
  | join {l : Level} {u v : List Token} {a b : Expr} {op : Operator} :
      Chain l u a → Joins l op → Operand l v b →
        Chain l (u ++ op.token :: v) (.binary op a b)

inductive Operand : Level → List Token → Expr → Prop where
  | comparison {w : List Token} {e : Expr} : Chain .additive w e → Operand .comparison w e
  | additive {w : List Token} {e : Expr} : Chain .multiplicative w e → Operand .additive w e
  | multiplicative {w : List Token} {e : Expr} : Unary w e → Operand .multiplicative w e

inductive Unary : List Token → Expr → Prop where
  | minus {w : List Token} {e : Expr} : Unary w e →
      Unary (.minus :: w) (.binary .subtract (.int 0) e)
  | plus {w : List Token} {e : Expr} : Unary w e →
      Unary (.plus :: w) (.binary .add (.int 0) e)
  | call {f : String} {w : List Token} {es : List Expr} : Arguments w es →
      Unary (.ident f :: .leftParen :: (w ++ [.rightParen])) (.call f es)
  | group {w : List Token} {e : Expr} : Chain .comparison w e →
      Unary (.leftParen :: (w ++ [.rightParen])) e
  | atom {t : Token} {e : Expr} : Atom t e → Unary [t] e

inductive Arguments : List Token → List Expr → Prop where
  | none : Arguments [] []
  | some {w : List Token} {es : List Expr} : ArgumentList w es → Arguments w es

inductive ArgumentList : List Token → List Expr → Prop where
  | last {w : List Token} {e : Expr} : Chain .comparison w e → ArgumentList w [e]
  | more {u v : List Token} {e : Expr} {es : List Expr} :
      Chain .comparison u e → ArgumentList v es → ArgumentList (u ++ .comma :: v) (e :: es)

end

inductive Condition : List Token → Expr → Prop where
  | mk {w : List Token} {e : Expr} : Chain .comparison w e →
      Condition (.leftParen :: (w ++ [.rightParen])) e

mutual

/-- A statement that may stand anywhere, and whether it dangles. -/
inductive Clause : Bool → List Token → Statement → Prop where
  | expression {w : List Token} {e : Expr} : Chain .comparison w e →
      Clause false (w ++ [.semicolon]) (.expression e)
  | assign {x : String} {w : List Token} {e : Expr} : Chain .comparison w e →
      Clause false (.ident x :: .assign :: (w ++ [.semicolon])) (.assign x e)
  | branch {d : Bool} {w : List Token} {s : Statement} : Branch d w s → Clause d w s
  | loop {u v : List Token} {c : Expr} {body : List Statement} :
      Condition u c → Block v body → Clause false (.whileWord :: (u ++ v)) (.loop c body)

inductive Branch : Bool → List Token → Statement → Prop where
  | alone {u v : List Token} {c : Expr} {body : List Statement} :
      Condition u c → Block v body → Branch true (.ifWord :: (u ++ v)) (.branch c body none)
  | withElse {u v w : List Token} {c : Expr} {body other : List Statement} :
      Condition u c → Block v body → Block w other →
        Branch false (.ifWord :: (u ++ (v ++ .elseWord :: w))) (.branch c body (some other))
  | withElseIf {d : Bool} {u v w : List Token} {c : Expr} {body : List Statement}
      {s : Statement} : Condition u c → Block v body → Branch d w s →
        Branch d (.ifWord :: (u ++ (v ++ .elseWord :: w))) (.branch c body (some [s]))

inductive Block : List Token → List Statement → Prop where
  | mk {w : List Token} {ss : List Statement} : Series w ss →
      Block (.leftBrace :: (w ++ [.rightBrace])) ss

inductive Series : List Token → List Statement → Prop where
  | nil : Series [] []
  | cons {d : Bool} {u v : List Token} {s : Statement} {ss : List Statement} :
      Clause d u s → Series v ss → Series (u ++ v) (s :: ss)

end

inductive Parameters : List Token → List String → Prop where
  | none : Parameters [] []
  | last (x : String) : Parameters [.ident x] [x]
  | more {w : List Token} {x y : String} {ys : List String} : Parameters w (y :: ys) →
      Parameters (.ident x :: .comma :: w) (x :: y :: ys)

/-- A statement at the top of a program, where functions are defined. -/
inductive TopClause : Bool → List Token → Statement → Prop where
  | clause {d : Bool} {w : List Token} {s : Statement} : Clause d w s → TopClause d w s
  | define {f : String} {u v : List Token} {params : List String} {body : List Statement} :
      Parameters u params → Block v body →
        TopClause false (.defWord :: .ident f :: .leftParen :: (u ++ .rightParen :: v))
          (.define f params body)

inductive Program : List Token → List Statement → Prop where
  | nil : Program [] []
  | cons {d : Bool} {u v : List Token} {s : Statement} {ss : List Statement} :
      TopClause d u s → Program v ss → Program (u ++ v) (s :: ss)

theorem joins_iff {l : Level} {op : Operator} : Joins l op ↔ op.level = l := by
  constructor
  · intro h
    cases h <;> rfl
  · rintro rfl
    cases op <;> constructor

abbrev kinds (ts : List Located) : List Token :=
  ts.map Located.token

def startsExpr : Token → Bool
  | .int _ | .string _ | .bool _ | .nullWord | .ident _ | .minus | .plus | .leftParen => true
  | _ => false

def startsClause (t : Token) : Bool :=
  startsExpr t || t == .ifWord || t == .whileWord

def StartsWith (p : Token → Bool) (w : List Token) : Prop :=
  ∃ t v, w = t :: v ∧ p t = true

theorem StartsWith.append {p : Token → Bool} {u : List Token} (h : StartsWith p u)
    (v : List Token) : StartsWith p (u ++ v) := by
  obtain ⟨t, w, rfl, ht⟩ := h
  exact ⟨t, w ++ v, rfl, ht⟩

theorem StartsWith.mono {p q : Token → Bool} {w : List Token} (h : StartsWith p w)
    (hpq : ∀ t, p t = true → q t = true) : StartsWith q w := by
  obtain ⟨t, v, rfl, ht⟩ := h
  exact ⟨t, v, rfl, hpq t ht⟩

mutual

theorem chain_starts {l : Level} {w : List Token} {e : Expr} (h : Chain l w e) :
    StartsWith startsExpr w := by
  match h with
  | .operand h => exact operand_starts h
  | .join h _ _ => exact (chain_starts h).append _
termination_by structural h

theorem operand_starts {l : Level} {w : List Token} {e : Expr} (h : Operand l w e) :
    StartsWith startsExpr w := by
  match h with
  | .comparison h => exact chain_starts h
  | .additive h => exact chain_starts h
  | .multiplicative h =>
    cases h with
    | atom h => cases h <;> exact ⟨_, _, rfl, rfl⟩
    | _ => exact ⟨_, _, rfl, rfl⟩
termination_by structural h

end

theorem branch_starts {d : Bool} {w : List Token} {s : Statement} (h : Branch d w s) :
    ∃ v, w = .ifWord :: v := by
  cases h <;> exact ⟨_, rfl⟩

theorem clause_starts {d : Bool} {w : List Token} {s : Statement} (h : Clause d w s) :
    StartsWith startsClause w := by
  cases h with
  | expression h =>
    exact ((chain_starts h).mono fun t ht => by simp [startsClause, ht]).append _
  | assign h => exact ⟨_, _, rfl, rfl⟩
  | branch h =>
    obtain ⟨v, rfl⟩ := branch_starts h
    exact ⟨_, v, rfl, rfl⟩
  | loop _ _ => exact ⟨_, _, rfl, rfl⟩

theorem topClause_starts {d : Bool} {w : List Token} {s : Statement} (h : TopClause d w s) :
    StartsWith (fun t => startsClause t || t == .defWord) w := by
  cases h with
  | clause h => exact (clause_starts h).mono fun t ht => by simp [ht]
  | define _ _ => exact ⟨_, _, rfl, rfl⟩

end Grammar

theorem operator?_eq_some_iff {t : Token} {op : Operator} :
    t.operator? = some op ↔ t = op.token := by
  constructor
  · intro h
    cases t <;> simp only [Token.operator?, Option.some.injEq, reduceCtorEq] at h <;>
      subst h <;> rfl
  · rintro rfl
    cases op <;> rfl

theorem operatorAt?_eq_some_iff {l : Level} {t : Token} {op : Operator} :
    t.operatorAt? l = some op ↔ t = op.token ∧ op.level = l := by
  simp [Token.operatorAt?, Option.filter_eq_some_iff, operator?_eq_some_iff]

end Script
