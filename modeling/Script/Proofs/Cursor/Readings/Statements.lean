import Script.Proofs.Cursor.Readings

/-!
# What is read of a statement

The same for statements, blocks and programs. The order in which the forms of a
statement are tried does not matter here, since only one of them can be read.
-/

set_option autoImplicit false

namespace Script.Cursor
open Parsing Routine

section
variable {σ : Strategy} {ts : List Located}

theorem reading_expressionStatement :
    (Production.form .expression).reading ts = (formRoutine .expression).meaning ts := by
  refine Option.ext fun ⟨s, rest⟩ => ?_
  simp [formRoutine, Form.read, reads_expressionStatement, expression]

theorem reading_assignment :
    (Production.form .assignment).reading ts = (formRoutine .assignment).meaning ts := by
  refine Option.ext fun ⟨s, rest⟩ => ?_
  simp [formRoutine, Form.read, reads_assignment, expression]

theorem meaning_guarded_iff {α : Type} {next : Expr → List Statement → Routine α}
    {x : α × List Located} :
    (guarded next).meaning ts = some x ↔
      ∃ c mid body after, Reads (condition ts) c mid ∧ Reads (Parsing.block mid) body after ∧
        (next c body).meaning after = some x := by
  simp only [guarded, meaning_expect_iff, meaning_read_iff, Production.reading_chain_iff,
    Production.reading_block_iff, reads_condition, expression]
  constructor
  · rintro ⟨mid, hopen, c, after, hc, last, hclose, body, last', hbody, h⟩
    exact ⟨c, last, body, last', ⟨mid, after, hopen, hc, hclose⟩, hbody, h⟩
  · rintro ⟨c, last, body, last', ⟨mid, after, hopen, hc, hclose⟩, hbody, h⟩
    exact ⟨mid, hopen, c, after, hc, last, hclose, body, last', hbody, h⟩

theorem reading_loop :
    (Production.form .loop).reading ts = (formRoutine .loop).meaning ts := by
  refine Option.ext fun ⟨s, rest⟩ => ?_
  simp only [formRoutine, Production.reading_form_iff, Form.read, reads_loop, meaning_expect_iff,
    meaning_guarded_iff, meaning_give_iff]
  constructor
  · rintro ⟨mid, c, after, body, ht, hc, hbody, rfl⟩
    exact ⟨mid, ht, c, after, body, rest, hc, hbody, rfl, rfl⟩
  · rintro ⟨mid, ht, c, after, body, _, hc, hbody, rfl, rfl⟩
    exact ⟨mid, c, after, body, ht, hc, hbody, rfl⟩

theorem meaning_elseBlock_iff {α : Type} {node : Option (List Statement) → α} {a : α}
    {rest : List Located} :
    (elseBlock node).meaning ts = some (a, rest) ↔
      ∃ other, ReadsElse ts other rest ∧ a = node other := by
  simp only [elseBlock, meaning_accept_iff, meaning_before_iff, meaning_read_iff, meaning_give_iff,
    Production.reading_form_iff, Form.read, Production.reading_block_iff, reads_otherwise]
  constructor
  · rintro (⟨mid, ht, ⟨⟨after, hif⟩, s, _, hs, rfl, rfl⟩ | ⟨_, body, _, hbody, rfl, rfl⟩⟩ |
      ⟨hne, rfl, rfl⟩)
    · exact ⟨_, .inl ⟨mid, after, s, ht, hif, hs, rfl⟩, rfl⟩
    · exact ⟨_, .inr (.inl ⟨mid, body, ht, hbody, rfl⟩), rfl⟩
    · exact ⟨_, .inr (.inr ⟨hne, rfl, rfl⟩), rfl⟩
  · rintro ⟨_, ⟨mid, after, s, ht, hif, hs, rfl⟩ | ⟨mid, body, ht, hbody, rfl⟩ | ⟨hne, rfl, rfl⟩,
      rfl⟩
    · exact .inl ⟨mid, ht, .inl ⟨⟨after, hif⟩, s, rest, hs, rfl, rfl⟩⟩
    · -- A block starts with a brace, so no `if` stands there.
      obtain ⟨_, hopen, _⟩ := reads_block.1 hbody
      exact .inl ⟨mid, ht, .inr ⟨fun _ => hopen.not_takes (by decide), body, rest, hbody, rfl, rfl⟩⟩
    · exact .inr ⟨hne, rfl, rfl⟩

theorem reading_branch :
    (Production.form .branch).reading ts = (formRoutine .branch).meaning ts := by
  refine Option.ext fun ⟨s, rest⟩ => ?_
  simp only [formRoutine, Production.reading_form_iff, Form.read, reads_branch, meaning_expect_iff,
    meaning_guarded_iff, meaning_elseBlock_iff]
  constructor
  · rintro ⟨mid, c, after, body, last, other, ht, hc, hbody, hother, rfl⟩
    exact ⟨mid, ht, c, after, body, last, hc, hbody, other, hother, rfl⟩
  · rintro ⟨mid, ht, c, after, body, last, hc, hbody, other, hother, rfl⟩
    exact ⟨mid, c, after, body, last, other, ht, hc, hbody, hother, rfl⟩

theorem reading_definition :
    (Production.form .definition).reading ts = (formRoutine .definition).meaning ts := by
  refine Option.ext fun ⟨s, rest⟩ => ?_
  simp only [formRoutine, Production.reading_form_iff, Form.read, reads_definition,
    meaning_expect_iff, meaning_read_iff, meaning_give_iff, Production.reading_name_iff,
    Production.reading_parameters_iff, Production.reading_block_iff]
  constructor
  · rintro ⟨f, mid, after, last, params, body, more, ht, hf, hopen, hparams, hbody, rfl⟩
    exact ⟨mid, ht, f, after, hf, last, hopen, params, more, hparams, body, rest, hbody, rfl, rfl⟩
  · rintro ⟨mid, ht, f, after, hf, last, hopen, params, more, hparams, body, _, hbody, rfl, rfl⟩
    exact ⟨f, mid, after, last, params, body, more, ht, hf, hopen, hparams, hbody, rfl⟩

theorem reading_form (f : Form) :
    (Production.form f).reading ts = (formRoutine f).meaning ts := by
  cases f with
  | expression => exact reading_expressionStatement
  | assignment => exact reading_assignment
  | branch => exact reading_branch
  | loop => exact reading_loop
  | definition => exact reading_definition

theorem reading_oneOf (forms : List Form) :
    (Production.oneOf forms).reading ts = ((Production.oneOf forms).routine σ).meaning ts := by
  simp only [Production.reading, Production.routine]
  induction forms with
  | nil => rfl
  | cons f forms ih =>
    rw [List.findSome?_cons, List.map_cons, firstOf, meaning, ← ih]
    simp only [Production.reading]
    cases f.read ts <;> rfl

theorem reading_block : Production.block.reading ts = (Production.block.routine σ).meaning ts := by
  refine Option.ext fun ⟨ss, rest⟩ => ?_
  simp only [Production.routine, Production.reading_block_iff, reads_block, meaning_expect_iff,
    meaning_read_give, Production.reading_statements_iff]

theorem eq_append_definition {forms : List Form} (h : .definition ∈ forms) :
    forms = forms.takeWhile (· != .definition) ++
      .definition :: (forms.dropWhile (· != .definition)).tail := by
  induction forms with
  | nil => cases h
  | cons f forms ih =>
    by_cases hf : f = .definition
    · simp [hf]
    · have hmem : .definition ∈ forms := (List.mem_cons.1 h).resolve_left (Ne.symm hf)
      simpa [hf] using ih hmem

theorem Strategy.order_eq (σ : Strategy) : σ.order = σ.early ++ .definition :: σ.late :=
  eq_append_definition (σ.complete .definition)

theorem topStatement_eq_of_order (σ : Strategy) (ts : List Located) :
    Parsing.topStatement ts = σ.order.findSome? (·.read ts) := by
  rw [Form.topStatement_eq_findSome?]
  exact Form.findSome?_read_congr fun form => iff_of_true (Form.mem_all form) (σ.complete form)

theorem statement_eq_of_anywhere (σ : Strategy) (ts : List Located) :
    statement ts = σ.anywhere.findSome? (·.read ts) := by
  rw [Form.statement_eq_findSome?]
  refine Form.findSome?_read_congr fun form => ?_
  simp [Strategy.anywhere, Form.mem_all, σ.complete]

theorem reading_topStatement :
    Production.topStatement.reading ts = (Production.topStatement.routine σ).meaning ts := by
  simp only [Production.reading, topStatement_eq_of_order σ, σ.order_eq, Production.routine,
    meaning, List.findSome?_append, List.findSome?_cons, meaning_read_give]
  cases σ.early.findSome? (·.read ts) with
  | some p => rfl
  | none => cases Form.definition.read ts <;> rfl

theorem reading_statements :
    Production.statements.reading ts = (Production.statements.routine σ).meaning ts := by
  refine Option.ext fun ⟨ss, rest⟩ => ?_
  rw [Production.reading_statements_iff, reads_statements]
  cases ts with
  | nil =>
    refine iff_of_false ?_ (by simp [Production.routine, meaning_peek])
    rintro (⟨ht, _⟩ | ⟨_, _, _, _, hs, _⟩)
    · exact not_takes_nil ht
    · exact absurd hs.shorter (Nat.not_lt_zero _)
  | cons t mid =>
    obtain ⟨k, line⟩ := t
    by_cases hk : k = .rightBrace
    · subst hk
      rw [Production.routine, meaning_peek]
      simp [and_comm, @eq_comm _ rest]
    · simp [Production.routine, meaning_peek, hk, statement_eq_of_anywhere σ]

theorem reading_program :
    Production.program.reading ts = (Production.program.routine σ).meaning ts := by
  simp only [Production.routine, Production.reading, meaning]
  rw [leftOver]
  cases htop : Parsing.topStatement ts with
  | some p =>
    rw [Grammar.topStatements_of_reads ⟨p.shorter, htop⟩]
    cases ts with
    | nil => exact absurd p.shorter (Nat.not_lt_zero _)
    | cons t mid => simp [meaning, Routine.read, Production.reading, htop, Parsed.both]
  | none =>
    cases ts with
    | nil =>
      rw [topStatements]
      rfl
    | cons t mid =>
      rw [topStatements, htop]
      simp [meaning, Production.reading, htop]

end

end Script.Cursor
