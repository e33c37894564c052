import Script.Proofs.Grammar.Completeness

/-!
# Programs of the grammar are read

A word of the grammar for a statement is read as its tree, unless it dangles
and an `else` comes after it. None of the alternatives tried before the right
one reads anything from it. So a program is read exactly when its tokens are a
word of the grammar, and the grammar gives no word two trees.
-/

set_option autoImplicit false

namespace Script.Grammar
open Parsing

theorem condition_complete {w : List Token} {c : Expr} (h : Condition w c)
    {us rest : List Located} (hus : kinds us = w) :
    Reads (condition (us ++ rest)) c rest := by
  obtain ⟨h⟩ := h
  obtain ⟨line, vs, rfl, hv⟩ := kinds_eq_cons hus
  obtain ⟨as, line', rfl, ha⟩ := kinds_eq_snoc hv
  have he : Reads (expression (as ++ [⟨.rightParen, line'⟩] ++ rest)) c
      (⟨.rightParen, line'⟩ :: rest) := by
    rw [List.append_assoc]
    exact expression_complete h ha (by decide) rfl
  exact reads_condition.2 ⟨_, _, ⟨line, rfl⟩, he, ⟨line', rfl⟩⟩

theorem expressionStatement_eq_none {k : Token} {line : Nat} {ts : List Located}
    (hk : startsExpr k = false) : expressionStatement (⟨k, line⟩ :: ts) = none := by
  refine eq_none_of_not_reads fun s rest h => ?_
  obtain ⟨e, mid, he, _⟩ := reads_expressionStatement.1 h
  obtain ⟨us, hts, hu⟩ := chain_sound he
  exact (chain_starts hu).not_takes hk ⟨line, hts.symm⟩

theorem expressionStatement_eq_none_of_assign {x : String} {line line' : Nat}
    {ts : List Located} :
    expressionStatement (⟨.ident x, line⟩ :: ⟨.assign, line'⟩ :: ts) = none := by
  have hx : Chain .comparison [.ident x] (.variable x) :=
    .operand (.comparison (.operand (.additive (.operand (.multiplicative (.atom (.variable x)))))))
  have hread : Reads (expression ([⟨.ident x, line⟩] ++ ⟨.assign, line'⟩ :: ts)) (.variable x)
      (⟨.assign, line'⟩ :: ts) := expression_complete hx rfl (by decide) rfl
  refine eq_none_of_not_reads fun s rest h => ?_
  obtain ⟨e, mid, he, hs, _⟩ := reads_expressionStatement.1 h
  obtain ⟨_, rfl⟩ := hread.unique he
  obtain ⟨_, hs⟩ := hs
  cases hs

theorem assignment_eq_none {k : Token} {line : Nat} {ts : List Located}
    (hk : ∀ x, k ≠ .ident x) : assignment (⟨k, line⟩ :: ts) = none := by
  refine eq_none_of_not_reads fun s rest h => ?_
  obtain ⟨x, _, _, _, _, ⟨_, hx⟩, _⟩ := reads_assignment.1 h
  cases hx
  exact hk x rfl

theorem branch_eq_none {k : Token} {line : Nat} {ts : List Located}
    (hk : k ≠ .ifWord) : branch (⟨k, line⟩ :: ts) = none := by
  refine eq_none_of_not_reads fun s rest h => ?_
  obtain ⟨_, _, _, _, _, _, ⟨_, hx⟩, _⟩ := reads_branch.1 h
  cases hx
  exact hk rfl

theorem ends_of_mark {d : Bool} {k : Token} {line : Nat} {rest : List Located}
    (hk : k ≠ .elseWord) : Ends d (⟨k, line⟩ :: rest) := by
  rintro _ mid ⟨_, h⟩
  cases h
  exact hk rfl

theorem StartsWith.ends {d : Bool} {p : Token → Bool} {us rest : List Located}
    (h : StartsWith p (kinds us)) (hp : p .elseWord = false) : Ends d (us ++ rest) :=
  fun _ _ => h.not_takes hp

mutual

theorem statement_complete {d : Bool} {w : List Token} {s : Statement} (h : Clause d w s)
    {us rest : List Located} (hus : kinds us = w) (hr : Ends d rest) :
    Reads (statement (us ++ rest)) s rest := by
  match h with
  | @Clause.expression w e h =>
    obtain ⟨as, line, rfl, ha⟩ := kinds_eq_snoc hus
    rw [List.append_assoc]
    have he : Reads (expression (as ++ ⟨.semicolon, line⟩ :: rest)) e
        (⟨.semicolon, line⟩ :: rest) :=
      expression_complete h ha (by decide) rfl
    exact reads_statement.2 (.inl (reads_expressionStatement.2 ⟨e, _, he, ⟨line, rfl⟩, rfl⟩))
  | @Clause.assign x w e h =>
    obtain ⟨line, vs, rfl, hv⟩ := kinds_eq_cons hus
    obtain ⟨line', ws, rfl, hw⟩ := kinds_eq_cons hv
    obtain ⟨as, line'', rfl, ha⟩ := kinds_eq_snoc hw
    have he : Reads (expression (as ++ [⟨.semicolon, line''⟩] ++ rest)) e
        (⟨.semicolon, line''⟩ :: rest) := by
      rw [List.append_assoc]
      exact expression_complete h ha (by decide) rfl
    have hs := reads_assignment.2
      ⟨x, _, _, e, _, ⟨line, rfl⟩, ⟨line', rfl⟩, he, ⟨line'', rfl⟩, rfl⟩
    exact reads_statement.2 (.inr ⟨expressionStatement_eq_none_of_assign, .inl hs⟩)
  | .branch h =>
    have hb := branch_complete h hus hr
    obtain ⟨v, rfl⟩ := branch_starts h
    obtain ⟨line, vs, rfl, hv⟩ := kinds_eq_cons hus
    exact reads_statement.2 (.inr ⟨expressionStatement_eq_none rfl,
      .inr ⟨assignment_eq_none nofun, .inl hb⟩⟩)
  | @Clause.loop u v c body hc hb =>
    obtain ⟨line, vs, rfl, hv⟩ := kinds_eq_cons hus
    obtain ⟨cs, bs, rfl, hcs, hbs⟩ := kinds_eq_append hv
    have hb := block_complete hb hbs rest
    have hc : Reads (condition (cs ++ bs ++ rest)) c (bs ++ rest) := by
      rw [List.append_assoc]
      exact condition_complete hc hcs
    have hl := reads_loop.2 ⟨_, c, _, body, ⟨line, rfl⟩, hc, hb, rfl⟩
    exact reads_statement.2 (.inr ⟨expressionStatement_eq_none rfl,
      .inr ⟨assignment_eq_none nofun, .inr ⟨branch_eq_none nofun, hl⟩⟩⟩)
termination_by structural h

theorem branch_complete {d : Bool} {w : List Token} {s : Statement} (h : Branch d w s)
    {us rest : List Located} (hus : kinds us = w) (hr : Ends d rest) :
    Reads (branch (us ++ rest)) s rest := by
  match h with
  | @Branch.alone u v c body hc hb =>
    obtain ⟨line, vs, rfl, hv⟩ := kinds_eq_cons hus
    obtain ⟨cs, bs, rfl, hcs, hbs⟩ := kinds_eq_append hv
    have hb := block_complete hb hbs rest
    have hc : Reads (condition (cs ++ bs ++ rest)) c (bs ++ rest) := by
      rw [List.append_assoc]
      exact condition_complete hc hcs
    have ho := reads_otherwise.2 (.inr (.inr ⟨hr rfl, rfl, rfl⟩))
    exact reads_branch.2 ⟨_, c, _, body, _, none, ⟨line, rfl⟩, hc, hb, ho, rfl⟩
  | @Branch.withElse u v w c body other hc hb hw =>
    obtain ⟨line, vs, rfl, hv⟩ := kinds_eq_cons hus
    obtain ⟨cs, bs', rfl, hcs, hv'⟩ := kinds_eq_append hv
    obtain ⟨bs, os', rfl, hbs, hw'⟩ := kinds_eq_append hv'
    obtain ⟨line', os, rfl, hos⟩ := kinds_eq_cons hw'
    have hw := block_complete hw hos rest
    have ho := reads_otherwise.2 (.inr (.inl ⟨_, other, ⟨line', rfl⟩, hw, rfl⟩))
    have hb := block_complete hb hbs (⟨.elseWord, line'⟩ :: (os ++ rest))
    have hc : Reads (condition (cs ++ (bs ++ ⟨.elseWord, line'⟩ :: os) ++ rest)) c
        (bs ++ ⟨.elseWord, line'⟩ :: (os ++ rest)) := by
      rw [List.append_assoc, List.append_assoc]
      exact condition_complete hc hcs
    exact reads_branch.2 ⟨_, c, _, body, _, _, ⟨line, rfl⟩, hc, hb, ho, rfl⟩
  | @Branch.withElseIf d u v w c body s hc hb hw =>
    obtain ⟨line, vs, rfl, hv⟩ := kinds_eq_cons hus
    obtain ⟨cs, bs', rfl, hcs, hv'⟩ := kinds_eq_append hv
    obtain ⟨bs, os', rfl, hbs, hw'⟩ := kinds_eq_append hv'
    obtain ⟨line', os, rfl, hos⟩ := kinds_eq_cons hw'
    have hs := branch_complete hw hos hr
    obtain ⟨v', rfl⟩ := branch_starts hw
    obtain ⟨line'', os, rfl, _⟩ := kinds_eq_cons hos
    have ho := reads_otherwise.2 (.inl ⟨_, _, s, ⟨line', rfl⟩, ⟨line'', rfl⟩, hs, rfl⟩)
    have hb := block_complete hb hbs (⟨.elseWord, line'⟩ :: (⟨.ifWord, line''⟩ :: os ++ rest))
    have hc : Reads
        (condition (cs ++ (bs ++ ⟨.elseWord, line'⟩ :: ⟨.ifWord, line''⟩ :: os) ++ rest))
        c (bs ++ ⟨.elseWord, line'⟩ :: (⟨.ifWord, line''⟩ :: os ++ rest)) := by
      rw [List.append_assoc, List.append_assoc]
      exact condition_complete hc hcs
    exact reads_branch.2 ⟨_, c, _, body, _, _, ⟨line, rfl⟩, hc, hb, ho, rfl⟩
termination_by structural h

theorem block_complete {w : List Token} {body : List Statement} (h : Block w body)
    {us : List Located} (hus : kinds us = w) (rest : List Located) :
    Reads (block (us ++ rest)) body rest := by
  match h with
  | .mk h =>
    obtain ⟨line, vs, rfl, hv⟩ := kinds_eq_cons hus
    obtain ⟨as, line', rfl, ha⟩ := kinds_eq_snoc hv
    have hs : Reads (statements (as ++ [⟨.rightBrace, line'⟩] ++ rest)) body rest := by
      rw [List.append_assoc]
      exact statements_complete h ha line' rest
    exact reads_block.2 ⟨_, ⟨line, rfl⟩, hs⟩
termination_by structural h

theorem statements_complete {w : List Token} {ss : List Statement} (h : Series w ss)
    {us : List Located} (hus : kinds us = w) (line : Nat) (rest : List Located) :
    Reads (statements (us ++ ⟨.rightBrace, line⟩ :: rest)) ss rest := by
  match h with
  | .nil =>
    obtain rfl := List.map_eq_nil_iff.1 hus
    exact reads_statements.2 (.inl ⟨⟨line, rfl⟩, rfl⟩)
  | @Series.cons d u v s ss h hs =>
    obtain ⟨as, bs, rfl, ha, hb⟩ := kinds_eq_append hus
    have hss := statements_complete hs hb line rest
    have hstarts := ha ▸ clause_starts h
    have hends : Ends d (bs ++ ⟨.rightBrace, line⟩ :: rest) := by
      cases hs with
      | nil =>
        obtain rfl := List.map_eq_nil_iff.1 hb
        exact ends_of_mark (by decide)
      | cons h' _ => exact (hb ▸ (clause_starts h').append _).ends rfl
    rw [List.append_assoc]
    exact reads_statements.2 (.inr ⟨s, _, ss, fun _ => hstarts.not_takes rfl,
      statement_complete h ha hends, hss, rfl⟩)
termination_by structural h

end

theorem nameList_complete {w : List Token} {x : String} {xs : List String}
    (h : Parameters w (x :: xs)) {us : List Located} (hus : kinds us = w) (line : Nat)
    (rest : List Located) :
    Reads (nameList (us ++ ⟨.rightParen, line⟩ :: rest)) (x :: xs) rest := by
  induction xs generalizing x w us with
  | nil =>
    cases h
    obtain ⟨line', vs, rfl, hv⟩ := kinds_eq_cons hus
    obtain rfl := List.map_eq_nil_iff.1 hv
    exact reads_nameList.2 ⟨x, _, ⟨line', rfl⟩, .inl ⟨⟨line, rfl⟩, rfl⟩⟩
  | cons y ys ih =>
    cases h with
    | more h =>
      obtain ⟨line', vs, rfl, hv⟩ := kinds_eq_cons hus
      obtain ⟨line'', ws, rfl, hw⟩ := kinds_eq_cons hv
      exact reads_nameList.2 ⟨x, _, ⟨line', rfl⟩, .inr ⟨_, _, ⟨line'', rfl⟩, ih h hw, rfl⟩⟩

theorem parameters_complete {w : List Token} {xs : List String} (h : Parameters w xs)
    {us : List Located} (hus : kinds us = w) (line : Nat) (rest : List Located) :
    Reads (parameters (us ++ ⟨.rightParen, line⟩ :: rest)) xs rest := by
  cases xs with
  | nil =>
    cases h
    obtain rfl := List.map_eq_nil_iff.1 hus
    exact reads_parameters.2 (.inl ⟨⟨line, rfl⟩, rfl⟩)
  | cons x xs => exact reads_parameters.2 (.inr (nameList_complete h hus line rest))

theorem statement_eq_none {k : Token} {line : Nat} {ts : List Located}
    (hk : startsClause k = false) : statement (⟨k, line⟩ :: ts) = none := by
  refine eq_none_of_not_reads fun s rest h => ?_
  obtain ⟨d, us, hts, hu, _⟩ := statement_sound h
  exact (clause_starts hu).not_takes hk ⟨line, hts.symm⟩

theorem topStatement_complete {d : Bool} {w : List Token} {s : Statement}
    (h : TopClause d w s) {us rest : List Located} (hus : kinds us = w) (hr : Ends d rest) :
    Reads (topStatement (us ++ rest)) s rest := by
  cases h with
  | clause h => exact reads_topStatement.2 (.inl (statement_complete h hus hr))
  | @define f u v params body hp hb =>
    obtain ⟨line, vs, rfl, hv⟩ := kinds_eq_cons hus
    obtain ⟨line', ws, rfl, hw⟩ := kinds_eq_cons hv
    obtain ⟨line'', as, rfl, ha⟩ := kinds_eq_cons hw
    obtain ⟨ps, as', rfl, hps, ha'⟩ := kinds_eq_append ha
    obtain ⟨line₃, bs, rfl, hbs⟩ := kinds_eq_cons ha'
    have hb := block_complete hb hbs rest
    have hp : Reads (parameters (ps ++ ⟨.rightParen, line₃⟩ :: bs ++ rest)) params
        (bs ++ rest) := by
      rw [List.append_assoc]
      exact parameters_complete hp hps line₃ (bs ++ rest)
    have hd := reads_definition.2 ⟨f, _, _, _, params, body, _, ⟨line, rfl⟩, ⟨line', rfl⟩,
      ⟨line'', rfl⟩, hp, hb, rfl⟩
    exact reads_topStatement.2 (.inr ⟨statement_eq_none rfl, hd⟩)

theorem topStatements_of_reads {ts mid : List Located} {s : Statement}
    (h : Reads (topStatement ts) s mid) :
    topStatements ts = (topStatements mid).map (s :: ·) := by
  cases ts with
  | nil => exact absurd h.shorter (Nat.not_lt_zero _)
  | cons t ts =>
    obtain ⟨_, h⟩ := h
    rw [topStatements, h]
    dsimp only
    cases topStatements mid <;> rfl

theorem topStatements_eq_ok_iff {ts : List Located} {ss : List Statement} :
    topStatements ts = .ok ss ↔ ts = [] ∧ ss = [] ∨
      ∃ s mid more, Reads (topStatement ts) s mid ∧ topStatements mid = .ok more ∧
        ss = s :: more := by
  constructor
  · intro h
    cases ts with
    | nil =>
      rw [topStatements] at h
      cases h
      exact .inl ⟨rfl, rfl⟩
    | cons t ts =>
      right
      cases hp : topStatement (t :: ts) with
      | none =>
        rw [topStatements, hp] at h
        cases h
      | some p =>
        have hr : Reads (topStatement (t :: ts)) p.node p.rest := ⟨p.shorter, hp⟩
        rw [topStatements_of_reads hr] at h
        cases hm : topStatements p.rest with
        | error e =>
          rw [hm] at h
          cases h
        | ok more =>
          rw [hm] at h
          cases h
          exact ⟨p.node, p.rest, more, ⟨p.shorter, rfl⟩, hm, rfl⟩
  · rintro (⟨rfl, rfl⟩ | ⟨s, mid, more, h, hm, rfl⟩)
    · rw [topStatements]
    · rw [topStatements_of_reads h, hm]
      rfl

theorem topStatements_sound {ts : List Located} {ss : List Statement}
    (h : topStatements ts = .ok ss) : Program (kinds ts) ss := by
  induction ss generalizing ts with
  | nil =>
    obtain ⟨rfl, _⟩ | ⟨_, _, _, _, _, hs⟩ := topStatements_eq_ok_iff.1 h
    · exact .nil
    · cases hs
  | cons s ss ih =>
    obtain ⟨_, hs⟩ | ⟨_, mid, more, hr, hm, hs⟩ := topStatements_eq_ok_iff.1 h
    · cases hs
    · cases hs
      obtain ⟨d, us, rfl, hu, _⟩ := topStatement_sound hr
      simpa using .cons hu (ih hm)

theorem program_ends {w : List Token} {ss : List Statement} (h : Program w ss)
    {us rest : List Located} (hus : kinds us = w) {d : Bool} (hr : Ends d rest) :
    Ends d (us ++ rest) := by
  cases h with
  | nil =>
    obtain rfl := List.map_eq_nil_iff.1 hus
    exact hr
  | cons h _ => exact (hus ▸ (topClause_starts h).append _).ends rfl

/-- Statements at the head of the tokens are read as they are, if no `else`
comes after the last of them. -/
theorem topStatements_complete {w : List Token} {ss : List Statement} (h : Program w ss)
    {us rest : List Located} (hus : kinds us = w) (hr : Ends true rest) :
    topStatements (us ++ rest) = (topStatements rest).map (ss ++ ·) := by
  induction h generalizing us with
  | nil =>
    obtain rfl := List.map_eq_nil_iff.1 hus
    rw [List.nil_append]
    cases topStatements rest <;> rfl
  | @cons d u v s ss hs hss ih =>
    obtain ⟨as, bs, rfl, ha, hb⟩ := kinds_eq_append hus
    have hends : Ends d (bs ++ rest) := program_ends hss hb fun _ => hr rfl
    rw [List.append_assoc, topStatements_of_reads (topStatement_complete hs ha hends), ih hb]
    cases topStatements rest <;> rfl

theorem program_of_parse {ts : List Located} {s : Source} (h : parse ts = .ok s) :
    Program (kinds ts) s.statements := by
  unfold parse at h
  split at h
  next ss hss =>
    cases h
    exact topStatements_sound hss
  next => cases h

theorem parse_of_program {ts : List Located} {ss : List Statement} (h : Program (kinds ts) ss) :
    parse ts = .ok ⟨ss⟩ := by
  have hread : topStatements (ts ++ []) = _ :=
    topStatements_complete h rfl fun _ _ => not_takes_nil
  rw [List.append_nil] at hread
  rw [parse, hread, topStatements]
  simp [Except.map]

/-- A program is read exactly when its tokens, whatever their lines, are a
word of the grammar for it. The grammar gives no word two programs. -/
theorem parse_eq_ok_iff_program :
    (∀ (ts : List Located) (s : Source), parse ts = .ok s ↔ Program (kinds ts) s.statements) ∧
    ∀ (w : List Token) (ss ss' : List Statement), Program w ss → Program w ss' → ss = ss' := by
  refine ⟨fun ts s => ⟨program_of_parse, parse_of_program⟩, fun w ss ss' h h' => ?_⟩
  have hw : kinds (w.map fun k => ⟨k, 1⟩) = w := by simp [kinds, Function.comp_def]
  have hss := parse_of_program (hw.symm ▸ h)
  have hss' := parse_of_program (hw.symm ▸ h')
  cases hss.symm.trans hss'
  rfl

end Script.Grammar
