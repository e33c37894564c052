import Script.Proofs.Cursor.Progress

/-!
# What is read with a cursor

A cursor is moved as the productions of the reader are. Each routine means what
its production reads, if what it calls is what those productions read. So
whatever is read with a cursor under any strategy is what the reader reads.
-/

set_option autoImplicit false

namespace Script

theorem Parsing.Takes.not_takes {k k' : Token} {ts rest rest' : List Located}
    (h : Takes k ts rest) (hne : k ≠ k') : ¬ Takes k' ts rest' := by
  obtain ⟨_, rfl⟩ := h
  rintro ⟨_, h⟩
  cases h
  exact hne rfl

def Parsed.both {α : Type} {ts : List Located} (p : Parsed α ts) : α × List Located :=
  (p.node, p.rest)

theorem Parsing.map_both_eq_some_iff {α : Type} {ts rest : List Located}
    {p : Option (Parsed α ts)} {a : α} : p.map Parsed.both = some (a, rest) ↔ Reads p a rest := by
  rw [Option.map_eq_some_iff]
  constructor
  · rintro ⟨q, rfl, hq⟩
    cases hq
    exact ⟨q.shorter, rfl⟩
  · rintro ⟨h, rfl⟩
    exact ⟨_, rfl, rfl⟩

namespace Cursor
open Parsing

def leftOver (ts : List Located) : List Located :=
  match topStatement ts with
  | some p => leftOver p.rest
  | none => ts
termination_by ts.length
decreasing_by exact p.shorter

def started (ts : List Located) : List Located :=
  ⟨.newline, 0⟩ :: ts

theorem length_lt_started (ts : List Located) : ts.length < (started ts).length :=
  Nat.lt_succ_self _

/-- What the reader reads of a production, and the tokens after it. A loop reads
the same wherever the chain has started. -/
def Production.reading : {α : Type} → Production α → List Located → Option (α × List Located)
  | _, .chain l, ts => (Parsing.chain l ts).map Parsed.both
  | _, .chainRest l left, ts =>
    (chainFrom l (started ts) left ts (length_lt_started ts)).map Parsed.both
  | _, .unary, ts => (Parsing.unary ts).map Parsed.both
  | _, .call, ts => (Parsing.call ts).map Parsed.both
  | _, .callArguments, ts =>
    match ts with
    | _ :: ⟨.leftParen, _⟩ :: rest => (arguments rest).map Parsed.both
    | _ => none
  | _, .callOpening, ts =>
    match ts with
    | _ :: ⟨.leftParen, _⟩ :: rest => some ((), rest)
    | _ => none
  | _, .group, ts => (Parsing.group ts).map Parsed.both
  | _, .primary, ts => (Parsing.primary ts).map Parsed.both
  | _, .list .argument, ts => (arguments ts).map Parsed.both
  | _, .list .parameter, ts => (parameters ts).map Parsed.both
  | _, .items .argument, ts => (argumentList ts).map Parsed.both
  | _, .items .parameter, ts => (nameList ts).map Parsed.both
  | _, .name, ts =>
    match ts with
    | ⟨.ident x, _⟩ :: rest => some (x, rest)
    | _ => none
  | _, .form f, ts => (f.read ts).map Parsed.both
  | _, .oneOf forms, ts => (forms.findSome? (·.read ts)).map Parsed.both
  | _, .topStatement, ts => (Parsing.topStatement ts).map Parsed.both
  | _, .block, ts => (Parsing.block ts).map Parsed.both
  | _, .statements, ts => (Parsing.statements ts).map Parsed.both
  | _, .program, ts => some (topStatements ts, leftOver ts)

namespace Production
variable {ts rest : List Located} {e : Expr}

@[simp] theorem reading_chain_iff {l : Level} :
    (chain l).reading ts = some (e, rest) ↔ Reads (Parsing.chain l ts) e rest :=
  map_both_eq_some_iff

@[simp] theorem reading_operand_iff {l : Level} :
    (operand l).reading ts = some (e, rest) ↔ Reads (Parsing.operand l ts) e rest := by
  cases l with
  | comparison => simp [operand]
  | additive => simp [operand]
  | multiplicative =>
    rw [operand_multiplicative]
    exact map_both_eq_some_iff

@[simp] theorem reading_unary_iff :
    unary.reading ts = some (e, rest) ↔ Reads (Parsing.unary ts) e rest :=
  map_both_eq_some_iff

@[simp] theorem reading_call_iff :
    call.reading ts = some (e, rest) ↔ Reads (Parsing.call ts) e rest :=
  map_both_eq_some_iff

@[simp] theorem reading_callArguments_iff {t : Located} {es : List Expr} :
    callArguments.reading (t :: ts) = some (es, rest) ↔
      ∃ after, Takes .leftParen ts after ∧ Reads (arguments after) es rest := by
  simp only [reading]
  split
  next heq =>
    cases heq
    simp only [takes_mk, true_and, exists_eq_left']
    exact map_both_eq_some_iff
  next hne =>
    refine iff_of_false (by simp) ?_
    rintro ⟨after, ⟨line, rfl⟩, _⟩
    exact hne t line after rfl

theorem reading_callArguments_eq_none_iff {t : Located} :
    callArguments.reading (t :: ts) = none ↔
      ∀ after, Takes .leftParen ts after → arguments after = none := by
  simp only [reading]
  split
  next heq =>
    cases heq
    simp
  next hne =>
    refine iff_of_true rfl ?_
    rintro after ⟨line, rfl⟩
    exact absurd rfl (hne t line after)

@[simp] theorem reading_callOpening_iff {t : Located} {u : Unit} :
    callOpening.reading (t :: ts) = some (u, rest) ↔ Takes .leftParen ts rest := by
  simp only [reading]
  split
  next heq =>
    cases heq
    simp
  next hne =>
    refine iff_of_false (by simp) ?_
    rintro ⟨line, rfl⟩
    exact hne t line rest rfl

theorem reading_callOpening_eq_none_iff {t : Located} :
    callOpening.reading (t :: ts) = none ↔ ∀ after, ¬ Takes .leftParen ts after := by
  rw [Option.eq_none_iff_forall_ne_some]
  constructor
  · exact fun h after ht => h ((), after) (reading_callOpening_iff.2 ht)
  · exact fun h ⟨u, after⟩ hread => h after (reading_callOpening_iff.1 hread)

@[simp] theorem reading_group_iff :
    group.reading ts = some (e, rest) ↔ Reads (Parsing.group ts) e rest :=
  map_both_eq_some_iff

@[simp] theorem reading_primary_iff :
    primary.reading ts = some (e, rest) ↔ Reads (Parsing.primary ts) e rest :=
  map_both_eq_some_iff

@[simp] theorem reading_arguments_iff {es : List Expr} :
    (list .argument).reading ts = some (es, rest) ↔ Reads (arguments ts) es rest :=
  map_both_eq_some_iff

@[simp] theorem reading_parameters_iff {xs : List String} :
    (list .parameter).reading ts = some (xs, rest) ↔ Reads (parameters ts) xs rest :=
  map_both_eq_some_iff

@[simp] theorem reading_argumentList_iff {es : List Expr} :
    (items .argument).reading ts = some (es, rest) ↔ Reads (argumentList ts) es rest :=
  map_both_eq_some_iff

@[simp] theorem reading_nameList_iff {xs : List String} :
    (items .parameter).reading ts = some (xs, rest) ↔ Reads (nameList ts) xs rest :=
  map_both_eq_some_iff

@[simp] theorem reading_name_iff {x : String} :
    name.reading ts = some (x, rest) ↔ Takes (.ident x) ts rest := by
  simp only [reading]
  split
  next => simp
  next hne =>
    refine iff_of_false (by simp) ?_
    rintro ⟨line, rfl⟩
    exact hne x line rest rfl

@[simp] theorem reading_form_iff {f : Form} {s : Statement} :
    (form f).reading ts = some (s, rest) ↔ Reads (f.read ts) s rest :=
  map_both_eq_some_iff

@[simp] theorem reading_oneOf_iff {forms : List Form} {s : Statement} :
    (oneOf forms).reading ts = some (s, rest) ↔ Reads (forms.findSome? (·.read ts)) s rest :=
  map_both_eq_some_iff

@[simp] theorem reading_block_iff {ss : List Statement} :
    block.reading ts = some (ss, rest) ↔ Reads (Parsing.block ts) ss rest :=
  map_both_eq_some_iff

@[simp] theorem reading_statements_iff {ss : List Statement} :
    statements.reading ts = some (ss, rest) ↔ Reads (Parsing.statements ts) ss rest :=
  map_both_eq_some_iff

end Production

namespace Routine
variable {α : Type}

/-- What a routine reads if each production that it calls is read. A production
that fails is taken to leave the cursor where it was. -/
def meaning : Routine α → List Located → Option (α × List Located)
  | .give a, ts => some (a, ts)
  | .fail, _ => none
  | .peek next, ts => (next ts.head?).meaning ts
  | .take next, ts => (next ts.head?).meaning ts.tail
  | .call p next, ts | .attempt p next, ts =>
    match p.reading ts with
    | some (b, rest) => (next (some b)).meaning rest
    | none => (next none).meaning ts

variable {ts : List Located} {x : α × List Located} {next other : Routine α} {k : Token}

@[simp] theorem meaning_give_iff {a b : α} {rest : List Located} :
    (give a).meaning ts = some (b, rest) ↔ b = a ∧ rest = ts := by
  simp [meaning, eq_comm]

theorem meaning_peek {next : Option Located → Routine α} :
    (peek next).meaning ts = (next ts.head?).meaning ts :=
  rfl

@[simp] theorem meaning_fail : (fail : Routine α).meaning ts = none :=
  rfl

theorem meaning_attempt_iff {β : Type} {p : Production β} {next : Option β → Routine α} :
    (attempt p next).meaning ts = some x ↔
      (∃ b rest, p.reading ts = some (b, rest) ∧ (next (some b)).meaning rest = some x) ∨
        p.reading ts = none ∧ (next none).meaning ts = some x := by
  simp only [meaning]
  cases p.reading ts with
  | none => simp
  | some y =>
    obtain ⟨b, rest⟩ := y
    simp [and_assoc]

theorem meaning_call {β : Type} {p : Production β} {next : Option β → Routine α} :
    (call p next).meaning ts = (attempt p next).meaning ts := by
  simp only [meaning]

@[simp] theorem meaning_read_iff {β : Type} {p : Production β} {next : β → Routine α} :
    (read p next).meaning ts = some x ↔
      ∃ b rest, p.reading ts = some (b, rest) ∧ (next b).meaning rest = some x := by
  simp [Routine.read, meaning_call, meaning_attempt_iff]

@[simp] theorem meaning_read_give {p : Production α} :
    (read p give).meaning ts = p.reading ts := by
  simp only [read, meaning]
  cases p.reading ts <;> rfl

@[simp] theorem meaning_expect_iff :
    (expect k next).meaning ts = some x ↔ ∃ rest, Takes k ts rest ∧ next.meaning rest = some x := by
  cases ts with
  | nil => simp [expect, meaning]
  | cons t rest =>
    obtain ⟨k', line⟩ := t
    by_cases hk : k' = k <;> simp [expect, meaning, hk]

@[simp] theorem meaning_advance_cons {t : Located} :
    (advance next).meaning (t :: ts) = next.meaning ts :=
  rfl

@[simp] theorem meaning_before_iff :
    (before k next other).meaning ts = some x ↔
      (∃ rest, Takes k ts rest) ∧ next.meaning ts = some x ∨
        (∀ rest, ¬ Takes k ts rest) ∧ other.meaning ts = some x := by
  cases ts with
  | nil => simp [before, meaning]
  | cons t rest =>
    obtain ⟨k', line⟩ := t
    by_cases hk : k' = k <;> simp [before, meaning, hk]

@[simp] theorem meaning_accept_iff :
    (accept k next other).meaning ts = some x ↔
      (∃ rest, Takes k ts rest ∧ next.meaning rest = some x) ∨
        (∀ rest, ¬ Takes k ts rest) ∧ other.meaning ts = some x := by
  rw [accept, meaning_before_iff]
  refine or_congr_left ⟨?_, ?_⟩
  · rintro ⟨⟨rest, line, rfl⟩, h⟩
    exact ⟨rest, ⟨line, rfl⟩, h⟩
  · rintro ⟨rest, ⟨line, rfl⟩, h⟩
    exact ⟨⟨rest, line, rfl⟩, h⟩

end Routine

open Routine

/-! ### Expressions -/

theorem chainFrom_of_reads {l : Level} {start start' ts rest : List Located} {a e : Expr}
    {hlt : ts.length < start.length} (h : Reads (chainFrom l start a ts hlt) e rest)
    (hlt' : ts.length < start'.length) : Reads (chainFrom l start' a ts hlt') e rest := by
  obtain hstop | ⟨op, mid, b, after, hlt, hl, ht, hb, h⟩ := reads_chainFrom.1 h
  · exact reads_chainFrom.2 (.inl hstop)
  · have hafter : after.length < ts.length := Nat.lt_trans hb.shorter ht.shorter
    exact reads_chainFrom.2 (.inr ⟨op, mid, b, after, Nat.lt_trans hafter hlt', hl, ht, hb,
      chainFrom_of_reads h _⟩)
termination_by ts.length

theorem reading_chainRest_iff {l : Level} {start ts rest : List Located} {left e : Expr}
    (h : ts.length < start.length) :
    (Production.chainRest l left).reading ts = some (e, rest) ↔
      Reads (chainFrom l start left ts h) e rest :=
  map_both_eq_some_iff.trans ⟨fun hr => chainFrom_of_reads hr h, fun hr => chainFrom_of_reads hr _⟩

section
variable {σ : Strategy} {ts : List Located}

theorem reading_chain (l : Level) :
    (Production.chain l).reading ts = ((Production.chain l).routine σ).meaning ts := by
  refine Option.ext fun ⟨e, rest⟩ => ?_
  simp only [Production.routine, Production.reading_chain_iff, meaning_read_iff, meaning_read_give,
    Production.reading_operand_iff, reads_chain]
  constructor
  · rintro ⟨a, mid, hlt, ha, h⟩
    exact ⟨a, mid, ha, (reading_chainRest_iff hlt).2 h⟩
  · rintro ⟨a, mid, ha, h⟩
    exact ⟨a, mid, ha.shorter, ha, (reading_chainRest_iff ha.shorter).1 h⟩

theorem head?_bind_operatorAt?_eq_some_iff {l : Level} {op : Operator} :
    (ts.head?.bind fun t => t.token.operatorAt? l) = some op ↔
      op.level = l ∧ ∃ mid, Takes op.token ts mid := by
  cases ts with
  | nil => simp
  | cons t mid =>
    obtain ⟨k, line⟩ := t
    simp [operatorAt?_eq_some_iff, and_comm]

theorem reading_chainRest (l : Level) (left : Expr) :
    (Production.chainRest l left).reading ts =
      ((Production.chainRest l left).routine σ).meaning ts := by
  refine Option.ext fun ⟨e, rest⟩ => ?_
  have hlt := length_lt_started ts
  rw [reading_chainRest_iff hlt, reads_chainFrom]
  simp only [Production.routine, meaning]
  cases hop : ts.head?.bind fun t => t.token.operatorAt? l with
  | none =>
    have hstop (op : Operator) (mid : List Located) (ht : Takes op.token ts mid) :
        op.level ≠ l := by
      intro hl
      rw [head?_bind_operatorAt?_eq_some_iff.2 ⟨hl, mid, ht⟩] at hop
      cases hop
    rw [meaning_give_iff]
    constructor
    · rintro (⟨_, h⟩ | ⟨op, mid, _, _, _, hl, ht, _⟩)
      · exact h
      · exact absurd hl (hstop op mid ht)
    · exact fun h => .inl ⟨hstop, h⟩
  | some op =>
    obtain ⟨hl, mid, line, rfl⟩ := head?_bind_operatorAt?_eq_some_iff.1 hop
    simp only [meaning_advance_cons, meaning_read_iff, Production.reading_operand_iff,
      meaning_read_give]
    constructor
    · rintro (⟨h, _⟩ | ⟨op', mid', b, after, h', hl', ht, hb, h⟩)
      · exact absurd hl (h op mid ⟨line, rfl⟩)
      · cases hop.symm.trans (head?_bind_operatorAt?_eq_some_iff.2 ⟨hl', mid', ht⟩)
        obtain ⟨_, ht⟩ := ht
        cases ht
        exact ⟨b, after, hb, (reading_chainRest_iff h').2 h⟩
    · rintro ⟨b, after, hb, h⟩
      have hafter := Nat.lt_trans (Nat.lt_succ_of_lt hb.shorter) hlt
      exact .inr ⟨op, mid, b, after, hafter, hl, ⟨line, rfl⟩, hb,
        (reading_chainRest_iff hafter).1 h⟩

theorem reading_unary : Production.unary.reading ts = (Production.unary.routine σ).meaning ts := by
  refine Option.ext fun ⟨e, rest⟩ => ?_
  rw [Production.reading_unary_iff, reads_unary]
  simp only [Production.routine, meaning_accept_iff, meaning_read_iff, meaning_read_give,
    Production.reading_unary_iff, Production.reading_call_iff, meaning_give_iff]
  constructor
  · rintro (⟨_, mid, a, rfl | rfl, ht, ha, rfl⟩ | ⟨h, hne⟩)
    · exact .inr ⟨fun _ => ht.not_takes (by decide), .inl ⟨mid, ht, a, rest, ha, rfl, rfl⟩⟩
    · exact .inl ⟨mid, ht, a, rest, ha, rfl, rfl⟩
    · exact .inr ⟨fun mid => (hne mid).1, .inr ⟨fun mid => (hne mid).2, h⟩⟩
  · rintro (⟨mid, ht, a, _, ha, rfl, rfl⟩ | ⟨hminus, ⟨mid, ht, a, _, ha, rfl, rfl⟩ | ⟨hplus, h⟩⟩)
    · exact .inl ⟨.subtract, mid, a, .inr rfl, ht, ha, rfl⟩
    · exact .inl ⟨.add, mid, a, .inl rfl, ht, ha, rfl⟩
    · exact .inr ⟨h, fun mid => ⟨hminus mid, hplus mid⟩⟩

theorem reading_group : Production.group.reading ts = (Production.group.routine σ).meaning ts := by
  refine Option.ext fun ⟨e, rest⟩ => ?_
  simp only [Production.routine, Production.reading_group_iff, meaning_accept_iff,
    meaning_read_iff, meaning_read_give, meaning_expect_iff, Production.reading_chain_iff,
    Production.reading_primary_iff, meaning_give_iff, reads_group, reads_primary]
  constructor
  · rintro (⟨mid, after, ht, he, hclose⟩ | ⟨k, ht, hk⟩)
    · exact .inl ⟨mid, ht, e, after, he, rest, hclose, rfl, rfl⟩
    · exact .inr ⟨fun _ => ht.not_takes (by rintro rfl; cases hk), k, ht, hk⟩
  · rintro (⟨mid, ht, _, after, he, _, hclose, rfl, rfl⟩ | ⟨_, h⟩)
    · exact .inl ⟨mid, after, ht, he, hclose⟩
    · exact .inr h

theorem reading_primary :
    Production.primary.reading ts = (Production.primary.routine σ).meaning ts := by
  cases ts with
  | nil => rfl
  | cons t mid =>
    obtain ⟨k, line⟩ := t
    cases k <;> rfl

theorem reading_name :
    Production.name.reading ts = (Production.name.routine σ).meaning ts := by
  cases ts with
  | nil => rfl
  | cons t mid =>
    obtain ⟨k, line⟩ := t
    cases k <;> rfl

theorem meaning_callRoutine_of_not_takes {retreats : Bool}
    (h : ∀ f mid, ¬ Takes (.ident f) ts mid) :
    (callRoutine retreats).meaning ts = Production.group.reading ts := by
  simp only [callRoutine, meaning]
  split
  next f line hhead =>
    obtain ⟨mid, rfl⟩ := List.head?_eq_some_iff.1 hhead
    exact absurd ⟨line, rfl⟩ (h f mid)
  next => exact meaning_read_give

theorem meaning_callRoutine_ident_iff {retreats : Bool} {f : String} {line : Nat} {e : Expr}
    {rest : List Located} :
    (callRoutine retreats).meaning (⟨.ident f, line⟩ :: ts) = some (e, rest) ↔
      (∃ after es, Takes .leftParen ts after ∧ Reads (arguments after) es rest ∧ e = .call f es) ∨
      (∀ after, Takes .leftParen ts after → retreats = true ∧ arguments after = none) ∧
        Reads (Parsing.group (⟨.ident f, line⟩ :: ts)) e rest := by
  cases retreats with
  | true =>
    simp only [callRoutine, meaning_peek, List.head?_cons, if_true, meaning_attempt_iff,
      meaning_read_give, meaning_give_iff, Production.reading_callArguments_iff,
      Production.reading_callArguments_eq_none_iff, Production.reading_group_iff, true_and]
    refine or_congr_left ⟨?_, ?_⟩
    · rintro ⟨es, _, ⟨after, hopen, hes⟩, rfl, rfl⟩
      exact ⟨after, es, hopen, hes, rfl⟩
    · rintro ⟨after, es, hopen, hes, rfl⟩
      exact ⟨es, rest, ⟨after, hopen, hes⟩, rfl, rfl⟩
  | false =>
    simp only [callRoutine, meaning_peek, List.head?_cons, Bool.false_eq_true, if_false,
      meaning_attempt_iff, meaning_read_give, meaning_read_iff, meaning_give_iff,
      Production.reading_callOpening_iff, Production.reading_callOpening_eq_none_iff,
      Production.reading_arguments_iff, Production.reading_group_iff, false_and, imp_false]
    refine or_congr_left ⟨?_, ?_⟩
    · rintro ⟨_, after, hopen, es, _, hes, rfl, rfl⟩
      exact ⟨after, es, hopen, hes, rfl⟩
    · rintro ⟨after, es, hopen, hes, rfl⟩
      exact ⟨(), after, hopen, es, rest, hes, rfl, rfl⟩

theorem meaning_callRoutine_iff {retreats : Bool} {e : Expr} {rest : List Located} :
    (callRoutine retreats).meaning ts = some (e, rest) ↔
      (∃ f mid after es, Takes (.ident f) ts mid ∧ Takes .leftParen mid after ∧
        Reads (arguments after) es rest ∧ e = .call f es) ∨
      (Reads (Parsing.group ts) e rest ∧ ∀ f mid after, Takes (.ident f) ts mid →
        Takes .leftParen mid after → retreats = true ∧ arguments after = none) := by
  by_cases hts : ∃ f mid, Takes (.ident f) ts mid
  · obtain ⟨f, mid, line, rfl⟩ := hts
    rw [meaning_callRoutine_ident_iff]
    constructor
    · rintro (⟨after, es, hopen, hes, rfl⟩ | ⟨hne, h⟩)
      · exact .inl ⟨f, mid, after, es, ⟨line, rfl⟩, hopen, hes, rfl⟩
      · refine .inr ⟨h, ?_⟩
        rintro _ _ after ⟨_, ht⟩ hopen
        cases ht
        exact hne after hopen
    · rintro (⟨_, _, after, es, ⟨_, ht⟩, hopen, hes, rfl⟩ | ⟨h, hne⟩)
      · cases ht
        exact .inl ⟨after, es, hopen, hes, rfl⟩
      · exact .inr ⟨fun after => hne f mid after ⟨line, rfl⟩, h⟩
  · have hne (f : String) (mid : List Located) : ¬ Takes (.ident f) ts mid :=
      fun h => hts ⟨f, mid, h⟩
    rw [meaning_callRoutine_of_not_takes hne, Production.reading_group_iff]
    constructor
    · exact fun h => .inr ⟨h, fun f mid _ ht => absurd ht (hne f mid)⟩
    · rintro (⟨f, mid, _, _, ht, _⟩ | ⟨h, _⟩)
      · exact absurd ht (hne f mid)
      · exact h

theorem reading_callArguments :
    Production.callArguments.reading ts = (Production.callArguments.routine σ).meaning ts := by
  refine Option.ext fun ⟨es, rest⟩ => ?_
  cases ts with
  | nil => rfl
  | cons t mid => simp [Production.routine]

theorem reading_callOpening :
    Production.callOpening.reading ts = (Production.callOpening.routine σ).meaning ts := by
  refine Option.ext fun ⟨u, rest⟩ => ?_
  cases ts with
  | nil => rfl
  | cons t mid => simp [Production.routine]

theorem reading_arguments :
    (Production.list .argument).reading ts =
      ((Production.list .argument).routine σ).meaning ts := by
  refine Option.ext fun ⟨es, rest⟩ => ?_
  simp only [Production.routine, Production.reading_arguments_iff, reads_arguments,
    meaning_accept_iff, meaning_give_iff, meaning_read_give, Production.reading_argumentList_iff]
  constructor
  · rintro (⟨ht, rfl⟩ | ⟨h, hne⟩)
    · exact .inl ⟨rest, ht, rfl, rfl⟩
    · exact .inr ⟨hne, h⟩
  · rintro (⟨_, ht, rfl, rfl⟩ | ⟨hne, h⟩)
    · exact .inl ⟨ht, rfl⟩
    · exact .inr ⟨h, hne⟩

theorem reading_parameters :
    (Production.list .parameter).reading ts =
      ((Production.list .parameter).routine σ).meaning ts := by
  refine Option.ext fun ⟨xs, rest⟩ => ?_
  simp only [Production.routine, Production.reading_parameters_iff, reads_parameters,
    meaning_accept_iff, meaning_give_iff, meaning_read_give, Production.reading_nameList_iff]
  constructor
  · rintro (⟨ht, rfl⟩ | h)
    · exact .inl ⟨rest, ht, rfl, rfl⟩
    · obtain ⟨x, mid, ht, _⟩ := reads_nameList.1 h
      exact .inr ⟨fun _ => ht.not_takes (by simp), h⟩
  · rintro (⟨_, ht, rfl, rfl⟩ | ⟨_, h⟩)
    · exact .inl ⟨ht, rfl⟩
    · exact .inr h

theorem meaning_items_iff {α : Type} {item : Item α} {as : List α} {rest : List Located} :
    ((Production.items item).routine σ).meaning ts = some (as, rest) ↔
      ∃ a mid, item.production.reading ts = some (a, mid) ∧
        (Takes .rightParen mid rest ∧ as = [a] ∨
          ∃ after bs, Takes .comma mid after ∧
            (Production.items item).reading after = some (bs, rest) ∧ as = a :: bs) := by
  simp only [Production.routine, meaning_read_iff, meaning]
  refine exists₂_congr fun a mid => and_congr_right fun _ => ?_
  cases mid with
  | nil => simp
  | cons t mid =>
    obtain ⟨k, line⟩ := t
    cases k with
    | comma => simp
    | rightParen => simp [and_comm, eq_comm (a := rest)]
    | _ => simp

theorem reading_argumentList :
    (Production.items .argument).reading ts =
      ((Production.items .argument).routine σ).meaning ts := by
  refine Option.ext fun ⟨es, rest⟩ => ?_
  rw [meaning_items_iff, Production.reading_argumentList_iff, reads_argumentList]
  simp only [Item.production, Production.reading_chain_iff, Production.reading_argumentList_iff]

theorem reading_nameList :
    (Production.items .parameter).reading ts =
      ((Production.items .parameter).routine σ).meaning ts := by
  refine Option.ext fun ⟨xs, rest⟩ => ?_
  rw [meaning_items_iff, Production.reading_nameList_iff, reads_nameList]
  simp only [Item.production, Production.reading_name_iff, Production.reading_nameList_iff]

end

end Cursor
end Script
