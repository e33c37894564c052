import Script.Proofs.Grammar.Soundness

/-!
# Expressions of the grammar are read

A word of the grammar for an expression is read as its tree from any tokens
that begin with it, if what comes after cannot be taken for more of it: no
opening parenthesis and no operator that binds as tightly. A chain leans to
the left, so a word of it brings the reader into the loop with the tree for
that word on the left, and the loop goes on from there.
-/

set_option autoImplicit false

namespace Script.Grammar
open Parsing

theorem kinds_eq_cons {us : List Located} {k : Token} {w : List Token} (h : kinds us = k :: w) :
    ∃ line vs, us = ⟨k, line⟩ :: vs ∧ kinds vs = w := by
  obtain ⟨⟨_, line⟩, vs, rfl, rfl, rfl⟩ := List.map_eq_cons_iff.1 h
  exact ⟨line, vs, rfl, rfl⟩

theorem kinds_eq_append {us : List Located} {v w : List Token} (h : kinds us = v ++ w) :
    ∃ vs ws, us = vs ++ ws ∧ kinds vs = v ∧ kinds ws = w :=
  List.map_eq_append_iff.1 h

theorem kinds_eq_snoc {us : List Located} {k : Token} {w : List Token}
    (h : kinds us = w ++ [k]) : ∃ vs line, us = vs ++ [⟨k, line⟩] ∧ kinds vs = w := by
  obtain ⟨vs, ls, rfl, hv, hl⟩ := kinds_eq_append h
  obtain ⟨line, ls', rfl, hl'⟩ := kinds_eq_cons hl
  obtain rfl := List.map_eq_nil_iff.1 hl'
  exact ⟨vs, line, rfl, hv⟩

/-- What may follow an expression: neither a parenthesis that would make a
name into a call nor an operator of rank `n` or less. -/
def Follows (n : Nat) (rest : List Located) : Prop :=
  ∀ k mid, Takes k rest mid → k ≠ .leftParen ∧ ∀ op : Operator, k = op.token → n < rank op.level

theorem Follows.mono {m n : Nat} {rest : List Located} (h : Follows n rest) (hmn : m ≤ n) :
    Follows m rest := by
  intro k mid hk
  obtain ⟨hp, hop⟩ := h k mid hk
  exact ⟨hp, fun op h => Nat.lt_of_le_of_lt hmn (hop op h)⟩

theorem follows_of_operator {op : Operator} {n line : Nat} {rest : List Located}
    (h : n < rank op.level) : Follows n (⟨op.token, line⟩ :: rest) := by
  rintro _ _ ⟨_, ht⟩
  cases ht
  refine ⟨by cases op <;> nofun, fun op' ho => ?_⟩
  obtain rfl : op = op' := by cases op <;> cases op' <;> first | rfl | cases ho
  exact h

theorem follows_of_mark {k : Token} {n line : Nat} {rest : List Located}
    (hp : k ≠ .leftParen) (ho : k.operator? = none) : Follows n (⟨k, line⟩ :: rest) := by
  rintro _ _ ⟨_, ht⟩
  cases ht
  refine ⟨hp, fun op h => ?_⟩
  simp [operator?_eq_some_iff.2 h] at ho

/-- The loop of a level is reached with a tree for what is on its left. -/
def Reaches (l : Level) (ts : List Located) (e : Expr) (rest : List Located) : Prop :=
  ∃ hlt, ∀ e' rest', Reads (chainFrom l ts e rest hlt) e' rest' → Reads (chain l ts) e' rest'

theorem Reaches.reads {l : Level} {ts rest : List Located} {e : Expr} (h : Reaches l ts e rest)
    (hr : Follows (rank l) rest) : Reads (chain l ts) e rest := by
  obtain ⟨_, h⟩ := h
  refine h e rest (reads_chainFrom.2 (.inl ⟨?_, rfl, rfl⟩))
  rintro op mid ht rfl
  exact absurd ((hr _ _ ht).2 op rfl) (Nat.lt_irrefl _)

theorem argumentList_starts {w : List Token} {es : List Expr} (h : ArgumentList w es) :
    StartsWith startsExpr w := by
  cases h with
  | last h => exact chain_starts h
  | more h _ => exact (chain_starts h).append _

theorem StartsWith.not_takes {p : Token → Bool} {us rest mid : List Located} {k : Token}
    (h : StartsWith p (kinds us)) (hk : p k = false) : ¬ Takes k (us ++ rest) mid := by
  obtain ⟨t, v, hus, ht⟩ := h
  obtain ⟨line, vs, rfl, _⟩ := kinds_eq_cons hus
  rintro ⟨_, h⟩
  cases h
  simp [hk] at ht

mutual

theorem chain_reaches {l : Level} {w : List Token} {e : Expr} (h : Chain l w e)
    {us rest : List Located} (hus : kinds us = w) (hr : Follows (rank l - 1) rest) :
    Reaches l (us ++ rest) e rest := by
  match h with
  | .operand h =>
    have ho := operand_complete h hus hr
    exact ⟨ho.shorter, fun e' rest' hl => reads_chain.2 ⟨e, rest, _, ho, hl⟩⟩
  | @Chain.join _ u v a b op ha hop hb =>
    have hl := joins_iff.1 hop
    obtain ⟨as, os, rfl, hu, ho⟩ := kinds_eq_append hus
    obtain ⟨line, bs, rfl, hv⟩ := kinds_eq_cons ho
    have hfollows : Follows (rank l - 1) (⟨op.token, line⟩ :: (bs ++ rest)) :=
      follows_of_operator (by rw [hl]; cases l <;> decide)
    obtain ⟨hlt, hgo⟩ := chain_reaches ha hu hfollows
    have hb := operand_complete hb hv hr
    rw [List.append_assoc]
    refine ⟨Nat.lt_trans (Nat.lt_succ_of_lt hb.shorter) hlt, fun e' rest' h => ?_⟩
    refine hgo e' rest' (reads_chainFrom.2 (.inr ?_))
    exact ⟨op, bs ++ rest, b, rest, _, hl, ⟨line, rfl⟩, hb, h⟩
termination_by structural h

theorem operand_complete {l : Level} {w : List Token} {e : Expr} (h : Operand l w e)
    {us rest : List Located} (hus : kinds us = w) (hr : Follows (rank l - 1) rest) :
    Reads (operand l (us ++ rest)) e rest := by
  match h with
  | .comparison h =>
    rw [operand_comparison]
    exact (chain_reaches h hus (hr.mono (by decide))).reads (hr.mono (by decide))
  | .additive h =>
    rw [operand_additive]
    exact (chain_reaches h hus (hr.mono (by decide))).reads (hr.mono (by decide))
  | .multiplicative h =>
    rw [operand_multiplicative]
    exact unary_complete h hus (hr.mono (by decide))
termination_by structural h

theorem unary_complete {w : List Token} {e : Expr} (h : Unary w e)
    {us rest : List Located} (hus : kinds us = w) (hr : Follows 0 rest) :
    Reads (unary (us ++ rest)) e rest := by
  match h with
  | .minus h =>
    obtain ⟨line, vs, rfl, hv⟩ := kinds_eq_cons hus
    have ha := unary_complete h hv hr
    exact reads_unary.2 (.inl ⟨.subtract, _, _, .inr rfl, ⟨line, rfl⟩, ha, rfl⟩)
  | .plus h =>
    obtain ⟨line, vs, rfl, hv⟩ := kinds_eq_cons hus
    have ha := unary_complete h hv hr
    exact reads_unary.2 (.inl ⟨.add, _, _, .inl rfl, ⟨line, rfl⟩, ha, rfl⟩)
  | @Unary.call f w es h =>
    obtain ⟨line, vs, rfl, hv⟩ := kinds_eq_cons hus
    obtain ⟨line', ws, rfl, hw⟩ := kinds_eq_cons hv
    obtain ⟨as, line'', rfl, ha⟩ := kinds_eq_snoc hw
    have hes : Reads (arguments (as ++ [⟨.rightParen, line''⟩] ++ rest)) es rest := by
      rw [List.append_assoc]
      exact arguments_complete h ha line'' rest
    have hc := reads_call.2 (.inl ⟨f, _, _, es, ⟨line, rfl⟩, ⟨line', rfl⟩, hes, rfl⟩)
    exact reads_unary.2 (.inr ⟨hc, by simp⟩)
  | @Unary.group w e h =>
    obtain ⟨line, vs, rfl, hv⟩ := kinds_eq_cons hus
    obtain ⟨as, line', rfl, ha⟩ := kinds_eq_snoc hv
    have he : Reads (chain .comparison (as ++ [⟨.rightParen, line'⟩] ++ rest)) e
        (⟨.rightParen, line'⟩ :: rest) := by
      rw [List.append_assoc]
      exact (chain_reaches h ha (follows_of_mark (by decide) rfl)).reads
        (follows_of_mark (by decide) rfl)
    have hg := reads_group.2 (.inl ⟨_, _, ⟨line, rfl⟩, he, ⟨line', rfl⟩⟩)
    exact reads_unary.2 (.inr ⟨reads_call.2 (.inr ⟨hg, by simp⟩), by simp⟩)
  | @Unary.atom k e h =>
    obtain ⟨line, vs, rfl, hv⟩ := kinds_eq_cons hus
    obtain rfl := List.map_eq_nil_iff.1 hv
    have hg : Reads (group (⟨k, line⟩ :: rest)) e rest :=
      reads_group.2 (.inr ⟨k, ⟨line, rfl⟩, h⟩)
    refine reads_unary.2 (.inr ⟨reads_call.2 (.inr ⟨hg, ?_⟩), ?_⟩)
    · rintro f mid after ⟨_, ht⟩ hp
      cases ht
      exact absurd rfl (hr _ _ hp).1
    · cases h <;> exact fun mid => ⟨nofun, nofun⟩
termination_by structural h

theorem arguments_complete {w : List Token} {es : List Expr} (h : Arguments w es)
    {us : List Located} (hus : kinds us = w) (line : Nat) (rest : List Located) :
    Reads (arguments (us ++ ⟨.rightParen, line⟩ :: rest)) es rest := by
  match h with
  | .none =>
    obtain rfl := List.map_eq_nil_iff.1 hus
    exact reads_arguments.2 (.inl ⟨⟨line, rfl⟩, rfl⟩)
  | .some h =>
    refine reads_arguments.2 (.inr ⟨argumentList_complete h hus line rest, fun mid => ?_⟩)
    exact (hus ▸ argumentList_starts h).not_takes rfl
termination_by structural h

theorem argumentList_complete {w : List Token} {es : List Expr} (h : ArgumentList w es)
    {us : List Located} (hus : kinds us = w) (line : Nat) (rest : List Located) :
    Reads (argumentList (us ++ ⟨.rightParen, line⟩ :: rest)) es rest := by
  match h with
  | @ArgumentList.last w e h =>
    have he : Reads (chain .comparison (us ++ ⟨.rightParen, line⟩ :: rest)) e
        (⟨.rightParen, line⟩ :: rest) :=
      (chain_reaches h hus (follows_of_mark (by decide) rfl)).reads
        (follows_of_mark (by decide) rfl)
    exact reads_argumentList.2 ⟨_, _, he, .inl ⟨⟨line, rfl⟩, rfl⟩⟩
  | @ArgumentList.more u v e es h hs =>
    obtain ⟨as, cs, rfl, ha, hc⟩ := kinds_eq_append hus
    obtain ⟨line', bs, rfl, hb⟩ := kinds_eq_cons hc
    have hbs := argumentList_complete hs hb line rest
    rw [List.append_assoc]
    have he : Reads (chain .comparison
        (as ++ ⟨.comma, line'⟩ :: (bs ++ ⟨.rightParen, line⟩ :: rest))) e
        (⟨.comma, line'⟩ :: (bs ++ ⟨.rightParen, line⟩ :: rest)) :=
      (chain_reaches h ha (follows_of_mark (by decide) rfl)).reads
        (follows_of_mark (by decide) rfl)
    exact reads_argumentList.2 ⟨_, _, he, .inr ⟨_, _, ⟨line', rfl⟩, hbs, rfl⟩⟩
termination_by structural h

end

/-- An expression is read up to a mark that can neither go on with it nor
make its last name into a call. -/
theorem expression_complete {w : List Token} {e : Expr} (h : Chain .comparison w e)
    {us rest : List Located} {k : Token} {line : Nat} (hus : kinds us = w)
    (hp : k ≠ .leftParen) (ho : k.operator? = none) :
    Reads (expression (us ++ ⟨k, line⟩ :: rest)) e (⟨k, line⟩ :: rest) :=
  (chain_reaches h hus (follows_of_mark hp ho)).reads (follows_of_mark hp ho)

end Script.Grammar
