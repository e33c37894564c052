import Script.Proofs.Grammar
import Script.Proofs.Spelling.Literals

/-!
# Well-formed programs and their words

A tree is proper when its names are names, its literals are of some kind and
functions are defined only at its top. It is well formed when no literal is
negative. The words of a tree are the tokens it is printed as: every operation
stands in parentheses and every `else` has a block of its own.

The words of a proper tree are a word of the grammar for it. Conversely, what
the grammar builds out of tokens that a text can hold is well formed.
-/

set_option autoImplicit false

namespace Script

mutual

/-- The names in an expression are names, and its literals meet a condition. -/
def Expr.Proper (ok : Int64 → Prop) : Expr → Prop
  | .int n => ok n
  | .bool _ => True
  | .string _ => True
  | .null => True
  | .variable x => IsName x
  | .binary _ left right => left.Proper ok ∧ right.Proper ok
  | .call f arguments => IsName f ∧ Expr.AllProper ok arguments

def Expr.AllProper (ok : Int64 → Prop) : List Expr → Prop
  | [] => True
  | e :: es => e.Proper ok ∧ Expr.AllProper ok es

end

mutual

def Statement.Proper (ok : Int64 → Prop) : Statement → Prop
  | .expression e => e.Proper ok
  | .assign x value => IsName x ∧ value.Proper ok
  | .branch condition body none => condition.Proper ok ∧ Statement.AllProper ok body
  | .branch condition body (some otherwise) =>
    condition.Proper ok ∧ Statement.AllProper ok body ∧ Statement.AllProper ok otherwise
  | .loop condition body => condition.Proper ok ∧ Statement.AllProper ok body
  | .define _ _ _ => False

def Statement.AllProper (ok : Int64 → Prop) : List Statement → Prop
  | [] => True
  | s :: ss => s.Proper ok ∧ Statement.AllProper ok ss

end

/-- At the top of a program functions may be defined. -/
def Statement.ProperAtTop (ok : Int64 → Prop) : Statement → Prop
  | .define f params body => IsName f ∧ (∀ x ∈ params, IsName x) ∧ Statement.AllProper ok body
  | s => s.Proper ok

theorem Statement.Proper.atTop {ok : Int64 → Prop} {s : Statement} (h : s.Proper ok) :
    s.ProperAtTop ok := by
  cases s with
  | define => exact h.elim
  | _ => exact h

def Source.Proper (ok : Int64 → Prop) (source : Source) : Prop :=
  ∀ s ∈ source.statements, s.ProperAtTop ok

def Unsigned (n : Int64) : Prop :=
  0 ≤ n.toInt

def Source.WellFormed (source : Source) : Prop :=
  source.Proper Unsigned

/-! ### Words -/

def inParens (w : List Token) : List Token :=
  .leftParen :: (w ++ [.rightParen])

def inBraces (w : List Token) : List Token :=
  .leftBrace :: (w ++ [.rightBrace])

mutual

def Expr.words : Expr → List Token
  | .int n => [.int n]
  | .bool b => [.bool b]
  | .string text => [.string text]
  | .null => [.nullWord]
  | .variable x => [.ident x]
  | .binary op left right => inParens (left.words ++ op.token :: right.words)
  | .call f arguments => .ident f :: inParens (Expr.wordsAll arguments)

def Expr.wordsAll : List Expr → List Token
  | [] => []
  | [e] => e.words
  | e :: es => e.words ++ .comma :: Expr.wordsAll es

end

def parameterWords : List String → List Token
  | [] => []
  | [x] => [.ident x]
  | x :: xs => .ident x :: .comma :: parameterWords xs

mutual

def Statement.words : Statement → List Token
  | .expression e => e.words ++ [.semicolon]
  | .assign x value => .ident x :: .assign :: (value.words ++ [.semicolon])
  | .branch condition body none =>
    .ifWord :: (inParens condition.words ++ inBraces (Statement.wordsAll body))
  | .branch condition body (some otherwise) =>
    .ifWord :: (inParens condition.words ++ (inBraces (Statement.wordsAll body) ++
      .elseWord :: inBraces (Statement.wordsAll otherwise)))
  | .loop condition body =>
    .whileWord :: (inParens condition.words ++ inBraces (Statement.wordsAll body))
  | .define f params body =>
    .defWord :: .ident f :: .leftParen :: (parameterWords params ++ .rightParen ::
      inBraces (Statement.wordsAll body))

def Statement.wordsAll : List Statement → List Token
  | [] => []
  | s :: ss => s.words ++ Statement.wordsAll ss

end

namespace Grammar

variable {ok : Int64 → Prop}

theorem Unary.operand {w : List Token} {e : Expr} (h : Unary w e) (l : Level) :
    Operand l w e := by
  have hm : Operand .multiplicative w e := .multiplicative h
  have ha : Operand .additive w e := .additive (.operand hm)
  cases l with
  | comparison => exact .comparison (.operand ha)
  | additive => exact ha
  | multiplicative => exact hm

theorem Chain.loosen {l : Level} {w : List Token} {e : Expr} (h : Chain l w e) :
    Chain .comparison w e := by
  cases l with
  | comparison => exact h
  | additive => exact .operand (.comparison h)
  | multiplicative => exact .operand (.comparison (.operand (.additive h)))

mutual

theorem unary_words : ∀ e : Expr, Unary e.words e
  | .int n => .atom (.int n)
  | .bool b => .atom (.bool b)
  | .string text => .atom (.string text)
  | .null => .atom .null
  | .variable x => .atom (.variable x)
  | .binary op left right => by
    have hl : Chain op.level left.words left := .operand ((unary_words left).operand _)
    have hr : Operand op.level right.words right := (unary_words right).operand _
    exact .group (Chain.join hl (joins_iff.2 rfl) hr).loosen
  | .call _ [] => .call .none
  | .call _ (e :: es) => .call (.some (argumentList_words (e :: es) nofun))

theorem argumentList_words :
    ∀ es : List Expr, es ≠ [] → ArgumentList (Expr.wordsAll es) es
  | [], h => absurd rfl h
  | [e], _ => .last (.operand ((unary_words e).operand _))
  | e :: e' :: es, _ =>
    .more (.operand ((unary_words e).operand _)) (argumentList_words (e' :: es) nofun)

end

theorem chain_words (e : Expr) : Chain .comparison e.words e :=
  .operand ((unary_words e).operand _)

theorem condition_words (e : Expr) : Condition (inParens e.words) e :=
  .mk (chain_words e)

mutual

theorem clause_words : ∀ s : Statement, s.Proper ok → ∃ d, Clause d s.words s
  | .expression e, _ => ⟨_, .expression (chain_words e)⟩
  | .assign _ e, _ => ⟨_, .assign (chain_words e)⟩
  | .branch c body none, h =>
    ⟨_, .branch (.alone (condition_words c) (.mk (series_words body h.2)))⟩
  | .branch c body (some other), h =>
    ⟨_, .branch (.withElse (condition_words c) (.mk (series_words body h.2.1))
      (.mk (series_words other h.2.2)))⟩
  | .loop c body, h => ⟨_, .loop (condition_words c) (.mk (series_words body h.2))⟩

theorem series_words :
    ∀ ss : List Statement, Statement.AllProper ok ss → Series (Statement.wordsAll ss) ss
  | [], _ => .nil
  | s :: ss, h => by
    obtain ⟨d, hs⟩ := clause_words s h.1
    exact .cons hs (series_words ss h.2)

end

theorem parameters_words (xs : List String) : Parameters (parameterWords xs) xs := by
  induction xs with
  | nil => exact .none
  | cons _ xs ih =>
    cases xs with
    | nil => exact .last _
    | cons y ys => exact .more ih

theorem topClause_words {s : Statement} (h : s.ProperAtTop ok) : ∃ d, TopClause d s.words s := by
  cases s with
  | define f params body =>
    exact ⟨_, .define (parameters_words params) (.mk (series_words body h.2.2))⟩
  | _ =>
    obtain ⟨d, hs⟩ := clause_words _ h
    exact ⟨d, .clause hs⟩

theorem program_words {ss : List Statement} (h : ∀ s ∈ ss, s.ProperAtTop ok) :
    Program (Statement.wordsAll ss) ss := by
  induction ss with
  | nil => exact .nil
  | cons s ss ih =>
    obtain ⟨hs, hss⟩ := List.forall_mem_cons.1 h
    obtain ⟨d, hd⟩ := topClause_words hs
    exact .cons hd (ih hss)

/-! ### What is built out of tokens of a text -/

def Lexical (w : List Token) : Prop :=
  ∀ t ∈ w, t.Lexical

theorem Lexical.append {u v : List Token} (h : Lexical (u ++ v)) : Lexical u ∧ Lexical v :=
  List.forall_mem_append.1 h

theorem Lexical.cons {t : Token} {w : List Token} (h : Lexical (t :: w)) :
    t.Lexical ∧ Lexical w :=
  List.forall_mem_cons.1 h

mutual

theorem chain_proper {l : Level} {w : List Token} {e : Expr} (h : Chain l w e)
    (hw : Lexical w) : e.Proper Unsigned := by
  match h with
  | .operand h => exact operand_proper h hw
  | .join ha _ hb =>
    obtain ⟨hu, hv⟩ := hw.append
    exact ⟨chain_proper ha hu, operand_proper hb hv.cons.2⟩
termination_by structural h

theorem operand_proper {l : Level} {w : List Token} {e : Expr} (h : Operand l w e)
    (hw : Lexical w) : e.Proper Unsigned := by
  match h with
  | .comparison h => exact chain_proper h hw
  | .additive h => exact chain_proper h hw
  | .multiplicative h => exact unary_proper h hw
termination_by structural h

theorem unary_proper {w : List Token} {e : Expr} (h : Unary w e) (hw : Lexical w) :
    e.Proper Unsigned := by
  match h with
  | .minus h => exact ⟨Int.le_refl 0, unary_proper h hw.cons.2⟩
  | .plus h => exact ⟨Int.le_refl 0, unary_proper h hw.cons.2⟩
  | .call h =>
    obtain ⟨hf, hw⟩ := hw.cons
    exact ⟨hf, arguments_proper h hw.cons.2.append.1⟩
  | .group h => exact chain_proper h hw.cons.2.append.1
  | .atom h =>
    have ht := hw.cons.1
    cases h with
    | int _ => exact ht
    | «variable» _ => exact ht
    | _ => trivial
termination_by structural h

theorem arguments_proper {w : List Token} {es : List Expr} (h : Arguments w es)
    (hw : Lexical w) : Expr.AllProper Unsigned es := by
  match h with
  | .none => trivial
  | .some h => exact argumentList_proper h hw
termination_by structural h

theorem argumentList_proper {w : List Token} {es : List Expr} (h : ArgumentList w es)
    (hw : Lexical w) : Expr.AllProper Unsigned es := by
  match h with
  | .last h => exact ⟨chain_proper h hw, trivial⟩
  | .more h hs =>
    obtain ⟨hu, hv⟩ := hw.append
    exact ⟨chain_proper h hu, argumentList_proper hs hv.cons.2⟩
termination_by structural h

end

theorem condition_proper {w : List Token} {c : Expr} (h : Condition w c) (hw : Lexical w) :
    c.Proper Unsigned := by
  obtain ⟨h⟩ := h
  exact chain_proper h hw.cons.2.append.1

mutual

theorem clause_proper {d : Bool} {w : List Token} {s : Statement} (h : Clause d w s)
    (hw : Lexical w) : s.Proper Unsigned := by
  match h with
  | .expression h => exact chain_proper h hw.append.1
  | .assign h =>
    obtain ⟨hx, hw⟩ := hw.cons
    exact ⟨hx, chain_proper h hw.cons.2.append.1⟩
  | .branch h => exact branch_proper h hw
  | .loop hc hb =>
    obtain ⟨hu, hv⟩ := hw.cons.2.append
    exact ⟨condition_proper hc hu, block_proper hb hv⟩
termination_by structural h

theorem branch_proper {d : Bool} {w : List Token} {s : Statement} (h : Branch d w s)
    (hw : Lexical w) : s.Proper Unsigned := by
  match h with
  | .alone hc hb =>
    obtain ⟨hu, hv⟩ := hw.cons.2.append
    exact ⟨condition_proper hc hu, block_proper hb hv⟩
  | .withElse hc hb ho =>
    obtain ⟨hu, hw⟩ := hw.cons.2.append
    obtain ⟨hv, hw⟩ := hw.append
    exact ⟨condition_proper hc hu, block_proper hb hv, block_proper ho hw.cons.2⟩
  | .withElseIf hc hb hs =>
    obtain ⟨hu, hw⟩ := hw.cons.2.append
    obtain ⟨hv, hw⟩ := hw.append
    exact ⟨condition_proper hc hu, block_proper hb hv, branch_proper hs hw.cons.2, trivial⟩
termination_by structural h

theorem block_proper {w : List Token} {ss : List Statement} (h : Block w ss)
    (hw : Lexical w) : Statement.AllProper Unsigned ss := by
  match h with
  | .mk h => exact series_proper h hw.cons.2.append.1
termination_by structural h

theorem series_proper {w : List Token} {ss : List Statement} (h : Series w ss)
    (hw : Lexical w) : Statement.AllProper Unsigned ss := by
  match h with
  | .nil => trivial
  | .cons h hs =>
    obtain ⟨hu, hv⟩ := hw.append
    exact ⟨clause_proper h hu, series_proper hs hv⟩
termination_by structural h

end

theorem parameters_proper {w : List Token} {xs : List String} (h : Parameters w xs)
    (hw : Lexical w) : ∀ x ∈ xs, IsName x := by
  induction h with
  | none => simp
  | last x => exact List.forall_mem_singleton.2 hw.cons.1
  | more _ ih =>
    obtain ⟨hx, hw⟩ := hw.cons
    exact List.forall_mem_cons.2 ⟨hx, ih hw.cons.2⟩

theorem topClause_proper {d : Bool} {w : List Token} {s : Statement} (h : TopClause d w s)
    (hw : Lexical w) : s.ProperAtTop Unsigned := by
  cases h with
  | clause h => exact (clause_proper h hw).atTop
  | define hp hb =>
    obtain ⟨hf, hw⟩ := hw.cons.2.cons
    obtain ⟨hu, hv⟩ := hw.cons.2.append
    exact ⟨hf, parameters_proper hp hu, block_proper hb hv.cons.2⟩

theorem program_proper {w : List Token} {ss : List Statement} (h : Program w ss)
    (hw : Lexical w) : ∀ s ∈ ss, s.ProperAtTop Unsigned := by
  induction h with
  | nil => simp
  | cons h _ ih =>
    obtain ⟨hu, hv⟩ := hw.append
    exact List.forall_mem_cons.2 ⟨topClause_proper h hu, ih hv⟩

end Grammar

end Script
