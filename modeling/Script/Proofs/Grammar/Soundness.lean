import Script.Proofs.Productions.Statements

/-!
# What is read is in the grammar

Whatever a production takes from the tokens is a word of the grammar for the
tree it gives, and what it leaves is the rest of the same tokens. A statement
that dangles is never left before an `else`.
-/

set_option autoImplicit false

namespace Script.Grammar
open Parsing

mutual

theorem chain_sound {l : Level} {ts rest : List Located} {e : Expr}
    (h : Reads (chain l ts) e rest) : ∃ us, ts = us ++ rest ∧ Chain l (kinds us) e := by
  obtain ⟨a, mid, hlt, ha, h⟩ := reads_chain.1 h
  obtain ⟨us, hts, hu⟩ := operand_sound ha
  obtain ⟨vs, rfl, hv⟩ := chainFrom_sound h (.operand hu)
  exact ⟨us ++ vs, by rw [hts, List.append_assoc], by simpa using hv⟩
termination_by (ts.length, rank l)
decreasing_by
  · exact Prod.Lex.right _ (by cases l <;> decide)
  · exact Prod.Lex.left _ _ hlt

theorem chainFrom_sound {l : Level} {start ts rest : List Located} {a e : Expr}
    {hlt : ts.length < start.length} (h : Reads (chainFrom l start a ts hlt) e rest)
    {w : List Token} (ha : Chain l w a) :
    ∃ us, ts = us ++ rest ∧ Chain l (w ++ kinds us) e := by
  obtain ⟨_, rfl, rfl⟩ | ⟨op, mid, b, after, hlt', hl, ht, hb, h⟩ := reads_chainFrom.1 h
  · exact ⟨[], rfl, by simpa using ha⟩
  · have hmid := ht.shorter
    have hafter := hb.shorter
    obtain ⟨us, hus, hu⟩ := operand_sound hb
    obtain ⟨vs, rfl, hv⟩ := chainFrom_sound h (.join ha (joins_iff.2 hl) hu)
    obtain ⟨line, rfl⟩ := ht
    exact ⟨⟨op.token, line⟩ :: (us ++ vs), by simp [hus], by simpa using hv⟩
termination_by (ts.length, 0)
decreasing_by
  · exact Prod.Lex.left _ _ hmid
  · exact Prod.Lex.left _ _ (Nat.lt_trans hafter hmid)

theorem operand_sound {l : Level} {ts rest : List Located} {e : Expr}
    (h : Reads (operand l ts) e rest) : ∃ us, ts = us ++ rest ∧ Operand l (kinds us) e := by
  match l with
  | .comparison =>
    rw [operand_comparison] at h
    obtain ⟨us, hts, hu⟩ := chain_sound h
    exact ⟨us, hts, .comparison hu⟩
  | .additive =>
    rw [operand_additive] at h
    obtain ⟨us, hts, hu⟩ := chain_sound h
    exact ⟨us, hts, .additive hu⟩
  | .multiplicative =>
    rw [operand_multiplicative] at h
    obtain ⟨us, hts, hu⟩ := unary_sound h
    exact ⟨us, hts, .multiplicative hu⟩
termination_by (ts.length, rank l - 1)
decreasing_by all_goals exact Prod.Lex.right _ (by decide)

theorem unary_sound {ts rest : List Located} {e : Expr} (h : Reads (unary ts) e rest) :
    ∃ us, ts = us ++ rest ∧ Unary (kinds us) e := by
  obtain ⟨_, mid, a, rfl | rfl, ht, ha, rfl⟩ | ⟨h, _⟩ := reads_unary.1 h
  · have hmid := ht.shorter
    obtain ⟨us, rfl, hu⟩ := unary_sound ha
    obtain ⟨line, rfl⟩ := ht
    exact ⟨⟨_, line⟩ :: us, rfl, .plus hu⟩
  · have hmid := ht.shorter
    obtain ⟨us, rfl, hu⟩ := unary_sound ha
    obtain ⟨line, rfl⟩ := ht
    exact ⟨⟨_, line⟩ :: us, rfl, .minus hu⟩
  · exact call_sound h
termination_by (ts.length, 2)
decreasing_by
  · exact Prod.Lex.left _ _ hmid
  · exact Prod.Lex.left _ _ hmid
  · exact Prod.Lex.right _ (by decide)

theorem call_sound {ts rest : List Located} {e : Expr} (h : Reads (call ts) e rest) :
    ∃ us, ts = us ++ rest ∧ Unary (kinds us) e := by
  obtain ⟨f, mid, after, es, hf, hp, hes, rfl⟩ | ⟨h, _⟩ := reads_call.1 h
  · have hmid := hf.shorter
    have hafter := hp.shorter
    obtain ⟨us, line, rfl, hu⟩ := arguments_sound hes
    obtain ⟨line', rfl⟩ := hp
    obtain ⟨line'', rfl⟩ := hf
    exact ⟨⟨.ident f, line''⟩ :: ⟨.leftParen, line'⟩ :: (us ++ [⟨.rightParen, line⟩]), by simp,
      by simpa using .call hu⟩
  · exact group_sound h
termination_by (ts.length, 1)
decreasing_by
  · exact Prod.Lex.left _ _ (Nat.lt_trans hafter hmid)
  · exact Prod.Lex.right _ (by decide)

theorem group_sound {ts rest : List Located} {e : Expr} (h : Reads (group ts) e rest) :
    ∃ us, ts = us ++ rest ∧ Unary (kinds us) e := by
  obtain ⟨mid, after, hl, he, hr⟩ | ⟨k, ⟨line, rfl⟩, hk⟩ := reads_group.1 h
  · have hmid := hl.shorter
    obtain ⟨us, rfl, hu⟩ := chain_sound he
    obtain ⟨line, rfl⟩ := hl
    obtain ⟨line', rfl⟩ := hr
    exact ⟨⟨.leftParen, line⟩ :: (us ++ [⟨.rightParen, line'⟩]), by simp,
      by simpa using .group hu⟩
  · exact ⟨[⟨k, line⟩], rfl, .atom hk⟩
termination_by (ts.length, 0)
decreasing_by exact Prod.Lex.left _ _ hmid

theorem arguments_sound {ts rest : List Located} {es : List Expr}
    (h : Reads (arguments ts) es rest) :
    ∃ us line, ts = us ++ ⟨.rightParen, line⟩ :: rest ∧ Arguments (kinds us) es := by
  obtain ⟨⟨line, rfl⟩, rfl⟩ | ⟨h, _⟩ := reads_arguments.1 h
  · exact ⟨[], line, rfl, .none⟩
  · obtain ⟨us, line, hts, hu⟩ := argumentList_sound h
    exact ⟨us, line, hts, .some hu⟩
termination_by (ts.length, 10)
decreasing_by exact Prod.Lex.right _ (by decide)

theorem argumentList_sound {ts rest : List Located} {es : List Expr}
    (h : Reads (argumentList ts) es rest) :
    ∃ us line, ts = us ++ ⟨.rightParen, line⟩ :: rest ∧ ArgumentList (kinds us) es := by
  obtain ⟨a, mid, ha, ⟨⟨line, rfl⟩, rfl⟩ | ⟨after, bs, hc, hbs, rfl⟩⟩ := reads_argumentList.1 h
  · obtain ⟨us, hts, hu⟩ := chain_sound ha
    exact ⟨us, line, hts, .last hu⟩
  · have hmid := ha.shorter
    have hafter := hc.shorter
    obtain ⟨us, hts, hu⟩ := chain_sound ha
    obtain ⟨vs, line, rfl, hv⟩ := argumentList_sound hbs
    obtain ⟨line', rfl⟩ := hc
    exact ⟨us ++ ⟨.comma, line'⟩ :: vs, line, by simp [hts], by simpa using .more hu hv⟩
termination_by (ts.length, 9)
decreasing_by
  · exact Prod.Lex.right _ (by decide)
  · exact Prod.Lex.right _ (by decide)
  · exact Prod.Lex.left _ _ (Nat.lt_trans hafter hmid)

end

/-- What may follow a statement: no `else` if the statement dangles. -/
def Ends (dangles : Bool) (rest : List Located) : Prop :=
  dangles = true → ∀ mid, ¬ Takes .elseWord rest mid

theorem condition_sound {ts rest : List Located} {c : Expr}
    (h : Reads (condition ts) c rest) : ∃ us, ts = us ++ rest ∧ Condition (kinds us) c := by
  obtain ⟨mid, after, ⟨line, rfl⟩, he, ⟨line', rfl⟩⟩ := reads_condition.1 h
  obtain ⟨us, rfl, hu⟩ := chain_sound he
  exact ⟨⟨.leftParen, line⟩ :: (us ++ [⟨.rightParen, line'⟩]), by simp, by simpa using .mk hu⟩

theorem expressionStatement_sound {ts rest : List Located} {s : Statement}
    (h : Reads (expressionStatement ts) s rest) :
    ∃ us, ts = us ++ rest ∧ Clause false (kinds us) s := by
  obtain ⟨e, mid, he, ⟨line, rfl⟩, rfl⟩ := reads_expressionStatement.1 h
  obtain ⟨us, rfl, hu⟩ := chain_sound he
  exact ⟨us ++ [⟨.semicolon, line⟩], by simp, by simpa using .expression hu⟩

theorem assignment_sound {ts rest : List Located} {s : Statement}
    (h : Reads (assignment ts) s rest) :
    ∃ us, ts = us ++ rest ∧ Clause false (kinds us) s := by
  obtain ⟨x, mid, after, e, last, ⟨line, rfl⟩, ⟨line', rfl⟩, he, ⟨line'', rfl⟩, rfl⟩ :=
    reads_assignment.1 h
  obtain ⟨us, rfl, hu⟩ := chain_sound he
  exact ⟨⟨.ident x, line⟩ :: ⟨.assign, line'⟩ :: (us ++ [⟨.semicolon, line''⟩]), by simp,
    by simpa using .assign hu⟩

mutual

theorem statement_sound {ts rest : List Located} {s : Statement}
    (h : Reads (statement ts) s rest) :
    ∃ d us, ts = us ++ rest ∧ Clause d (kinds us) s ∧ Ends d rest := by
  obtain h | ⟨_, h | ⟨_, h | ⟨_, h⟩⟩⟩ := reads_statement.1 h
  · obtain ⟨us, hts, hu⟩ := expressionStatement_sound h
    exact ⟨false, us, hts, hu, nofun⟩
  · obtain ⟨us, hts, hu⟩ := assignment_sound h
    exact ⟨false, us, hts, hu, nofun⟩
  · obtain ⟨d, us, hts, hu, hd⟩ := branch_sound h
    exact ⟨d, us, hts, .branch hu, hd⟩
  · obtain ⟨us, hts, hu⟩ := loop_sound h
    exact ⟨false, us, hts, hu, nofun⟩
termination_by (ts.length, 1)
decreasing_by all_goals exact Prod.Lex.right _ (by decide)

theorem branch_sound {ts rest : List Located} {s : Statement} (h : Reads (branch ts) s rest) :
    ∃ d us, ts = us ++ rest ∧ Branch d (kinds us) s ∧ Ends d rest := by
  obtain ⟨mid, c, after, body, last, other, ht, hc, hb, ho, rfl⟩ := reads_branch.1 h
  have hmid := ht.shorter
  have hafter := hc.shorter
  have hlast := hb.shorter
  obtain ⟨us, hus, hu⟩ := condition_sound hc
  obtain ⟨vs, hvs, hv⟩ := block_sound hb
  obtain ⟨line, rfl⟩ := ht
  obtain ⟨inner, _, s, hw, ⟨line', hi⟩, hs, rfl⟩ | ⟨inner, other, hw, hs, rfl⟩ |
    ⟨hne, rfl, rfl⟩ := reads_otherwise.1 ho
  · have hinner := hw.shorter
    obtain ⟨d, ws, rfl, hws, hd⟩ := branch_sound hs
    obtain ⟨line'', rfl⟩ := hw
    refine ⟨d, ⟨.ifWord, line⟩ :: (us ++ (vs ++ ⟨.elseWord, line''⟩ :: ws)), ?_, ?_, hd⟩
    · simp [hus, hvs]
    · simpa using .withElseIf hu hv hws
  · have hinner := hw.shorter
    obtain ⟨ws, rfl, hws⟩ := block_sound hs
    obtain ⟨line'', rfl⟩ := hw
    refine ⟨false, ⟨.ifWord, line⟩ :: (us ++ (vs ++ ⟨.elseWord, line''⟩ :: ws)), ?_, ?_, nofun⟩
    · simp [hus, hvs]
    · simpa using .withElse hu hv hws
  · refine ⟨true, ⟨.ifWord, line⟩ :: (us ++ vs), ?_, ?_, fun _ => hne⟩
    · simp [hus, hvs]
    · simpa using .alone hu hv
termination_by (ts.length, 0)
decreasing_by all_goals exact Prod.Lex.left _ _ (by omega)

theorem loop_sound {ts rest : List Located} {s : Statement} (h : Reads (loop ts) s rest) :
    ∃ us, ts = us ++ rest ∧ Clause false (kinds us) s := by
  obtain ⟨mid, c, after, body, ht, hc, hb, rfl⟩ := reads_loop.1 h
  have hmid := ht.shorter
  have hafter := hc.shorter
  obtain ⟨us, hus, hu⟩ := condition_sound hc
  obtain ⟨vs, hvs, hv⟩ := block_sound hb
  obtain ⟨line, rfl⟩ := ht
  exact ⟨⟨.whileWord, line⟩ :: (us ++ vs), by simp [hus, hvs], by simpa using .loop hu hv⟩
termination_by (ts.length, 0)
decreasing_by exact Prod.Lex.left _ _ (by omega)

theorem block_sound {ts rest : List Located} {body : List Statement}
    (h : Reads (block ts) body rest) : ∃ us, ts = us ++ rest ∧ Block (kinds us) body := by
  obtain ⟨mid, ht, hs⟩ := reads_block.1 h
  have hmid := ht.shorter
  obtain ⟨us, line, rfl, hu⟩ := statements_sound hs
  obtain ⟨line', rfl⟩ := ht
  exact ⟨⟨.leftBrace, line'⟩ :: (us ++ [⟨.rightBrace, line⟩]), by simp, by simpa using .mk hu⟩
termination_by (ts.length, 0)
decreasing_by exact Prod.Lex.left _ _ hmid

theorem statements_sound {ts rest : List Located} {ss : List Statement}
    (h : Reads (statements ts) ss rest) :
    ∃ us line, ts = us ++ ⟨.rightBrace, line⟩ :: rest ∧ Series (kinds us) ss := by
  obtain ⟨⟨line, rfl⟩, rfl⟩ | ⟨s, mid, more, _, hs, hm, rfl⟩ := reads_statements.1 h
  · exact ⟨[], line, rfl, .nil⟩
  · have hmid := hs.shorter
    obtain ⟨d, us, hts, hu, _⟩ := statement_sound hs
    obtain ⟨vs, line, rfl, hv⟩ := statements_sound hm
    exact ⟨us ++ vs, line, by simp [hts], by simpa using .cons hu hv⟩
termination_by (ts.length, 2)
decreasing_by
  · exact Prod.Lex.right _ (by decide)
  · exact Prod.Lex.left _ _ hmid

end

theorem nameList_sound {ts rest : List Located} {xs : List String}
    (h : Reads (nameList ts) xs rest) :
    ∃ us line, ts = us ++ ⟨.rightParen, line⟩ :: rest ∧ xs ≠ [] ∧ Parameters (kinds us) xs := by
  obtain ⟨x, mid, ht, ⟨⟨line, rfl⟩, rfl⟩ | ⟨after, ys, hc, hys, rfl⟩⟩ := reads_nameList.1 h
  · obtain ⟨line', rfl⟩ := ht
    exact ⟨[⟨.ident x, line'⟩], line, rfl, by simp, .last x⟩
  · have hmid := ht.shorter
    have hafter := hc.shorter
    obtain ⟨us, line, rfl, hne, hu⟩ := nameList_sound hys
    obtain ⟨line', rfl⟩ := hc
    obtain ⟨line'', rfl⟩ := ht
    obtain ⟨y, ys, rfl⟩ := List.exists_cons_of_ne_nil hne
    exact ⟨⟨.ident x, line''⟩ :: ⟨.comma, line'⟩ :: us, line, rfl, by simp, .more hu⟩
termination_by ts.length
decreasing_by omega

theorem parameters_sound {ts rest : List Located} {xs : List String}
    (h : Reads (parameters ts) xs rest) :
    ∃ us line, ts = us ++ ⟨.rightParen, line⟩ :: rest ∧ Parameters (kinds us) xs := by
  obtain ⟨⟨line, rfl⟩, rfl⟩ | h := reads_parameters.1 h
  · exact ⟨[], line, rfl, .none⟩
  · obtain ⟨us, line, hts, _, hu⟩ := nameList_sound h
    exact ⟨us, line, hts, hu⟩

theorem definition_sound {ts rest : List Located} {s : Statement}
    (h : Reads (definition ts) s rest) :
    ∃ us, ts = us ++ rest ∧ TopClause false (kinds us) s := by
  obtain ⟨f, mid, after, last, params, body, more, ⟨line, rfl⟩, ⟨line', rfl⟩, ⟨line'', rfl⟩,
    hp, hb, rfl⟩ := reads_definition.1 h
  obtain ⟨us, line₃, rfl, hu⟩ := parameters_sound hp
  obtain ⟨vs, rfl, hv⟩ := block_sound hb
  exact ⟨⟨.defWord, line⟩ :: ⟨.ident f, line'⟩ :: ⟨.leftParen, line''⟩ ::
    (us ++ ⟨.rightParen, line₃⟩ :: vs), by simp, by simpa using .define hu hv⟩

theorem topStatement_sound {ts rest : List Located} {s : Statement}
    (h : Reads (topStatement ts) s rest) :
    ∃ d us, ts = us ++ rest ∧ TopClause d (kinds us) s ∧ Ends d rest := by
  obtain h | ⟨_, h⟩ := reads_topStatement.1 h
  · obtain ⟨d, us, hts, hu, hd⟩ := statement_sound h
    exact ⟨d, us, hts, .clause hu, hd⟩
  · obtain ⟨us, hts, hu⟩ := definition_sound h
    exact ⟨false, us, hts, hu, nofun⟩

end Script.Grammar
