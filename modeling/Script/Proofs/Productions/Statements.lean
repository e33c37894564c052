import Script.Proofs.Productions

/-!
# What the productions of statements do

The same for conditions, blocks, statements and definitions. A statement is
what the first of its alternatives reads.
-/

set_option autoImplicit false

namespace Script.Parsing

section
variable {ts rest : List Located}

theorem reads_condition {c : Expr} :
    Reads (condition ts) c rest ↔
      ∃ mid after, Takes .leftParen ts mid ∧ Reads (expression mid) c after ∧
        Takes .rightParen after rest := by
  unfold condition
  split
  next line mid =>
    constructor
    · intro h
      split at h
      next e line' after hlt hp =>
        obtain ⟨rfl, rfl⟩ := reads_some.1 h
        exact ⟨mid, _, ⟨line, rfl⟩, ⟨hlt, hp⟩, ⟨line', rfl⟩⟩
      next => exact absurd h not_reads_none
    · rintro ⟨_, _, ⟨_, ht⟩, ⟨hlt, hp⟩, ⟨_, rfl⟩⟩
      cases ht
      rw [hp]
      exact reads_some.2 ⟨rfl, rfl⟩
  next hne =>
    constructor
    · intro h
      exact absurd h not_reads_none
    · rintro ⟨mid, _, ⟨line, rfl⟩, _⟩
      exact absurd rfl (hne line mid)

theorem reads_expressionStatement {s : Statement} :
    Reads (expressionStatement ts) s rest ↔
      ∃ e mid, Reads (expression ts) e mid ∧ Takes .semicolon mid rest ∧ s = .expression e := by
  unfold expressionStatement
  constructor
  · intro h
    split at h
    next e line after hlt hp =>
      obtain ⟨rfl, rfl⟩ := reads_some.1 h
      exact ⟨e, _, ⟨hlt, hp⟩, ⟨line, rfl⟩, rfl⟩
    next => exact absurd h not_reads_none
  · rintro ⟨e, _, ⟨hlt, hp⟩, ⟨line, rfl⟩, rfl⟩
    rw [hp]
    exact reads_some.2 ⟨rfl, rfl⟩

theorem reads_assignment {s : Statement} :
    Reads (assignment ts) s rest ↔
      ∃ x mid after e last, Takes (.ident x) ts mid ∧ Takes .assign mid after ∧
        Reads (expression after) e last ∧ Takes .semicolon last rest ∧ s = .assign x e := by
  unfold assignment
  split
  next x line line' after =>
    constructor
    · intro h
      split at h
      next e line'' last hlt hp =>
        obtain ⟨rfl, rfl⟩ := reads_some.1 h
        exact ⟨x, _, after, e, _, ⟨line, rfl⟩, ⟨line', rfl⟩, ⟨hlt, hp⟩, ⟨line'', rfl⟩, rfl⟩
      next => exact absurd h not_reads_none
    · rintro ⟨y, _, _, e, _, ⟨_, ht⟩, ⟨_, rfl⟩, ⟨hlt, hp⟩, ⟨_, rfl⟩, rfl⟩
      cases ht
      rw [hp]
      exact reads_some.2 ⟨rfl, rfl⟩
  next hne =>
    constructor
    · intro h
      exact absurd h not_reads_none
    · rintro ⟨x, _, after, _, _, ⟨line, rfl⟩, ⟨line', rfl⟩, _⟩
      exact absurd rfl (hne x line line' after)

/-- What stands after the block of an `if` has been read. -/
def ReadsElse (ts : List Located) (other : Option (List Statement)) (rest : List Located) :
    Prop :=
  ∃ h, otherwise ts = some ⟨(other, rest), h⟩

theorem reads_branch {s : Statement} :
    Reads (branch ts) s rest ↔
      ∃ mid c after body last other, Takes .ifWord ts mid ∧ Reads (condition mid) c after ∧
        Reads (block after) body last ∧ ReadsElse last other rest ∧
        s = .branch c body other := by
  rw [branch.eq_def]
  split
  next line mid =>
    constructor
    · intro h
      split at h
      next => exact absurd h not_reads_none
      next c after hlt hc =>
        split at h
        next => exact absurd h not_reads_none
        next body last hlt' hb =>
          split at h
          next other rest' hle ho =>
            obtain ⟨rfl, rfl⟩ := reads_some.1 h
            exact ⟨mid, c, after, body, last, other, ⟨line, rfl⟩, ⟨hlt, hc⟩, ⟨hlt', hb⟩,
              ⟨hle, ho⟩, rfl⟩
          next => exact absurd h not_reads_none
    · rintro ⟨_, c, after, body, last, other, ⟨_, ht⟩, ⟨_, hc⟩, ⟨_, hb⟩, ⟨_, ho⟩, rfl⟩
      cases ht
      simp only [hc, hb, ho]
      exact reads_some.2 ⟨rfl, rfl⟩
  next hne =>
    constructor
    · intro h
      exact absurd h not_reads_none
    · rintro ⟨mid, _, _, _, _, _, ⟨line, rfl⟩, _⟩
      exact absurd rfl (hne line mid)

theorem reads_loop {s : Statement} :
    Reads (loop ts) s rest ↔
      ∃ mid c after body, Takes .whileWord ts mid ∧ Reads (condition mid) c after ∧
        Reads (block after) body rest ∧ s = .loop c body := by
  rw [loop.eq_def]
  split
  next line mid =>
    constructor
    · intro h
      split at h
      next => exact absurd h not_reads_none
      next c after hlt hc =>
        split at h
        next body last hlt' hb =>
          obtain ⟨rfl, rfl⟩ := reads_some.1 h
          exact ⟨mid, c, after, body, ⟨line, rfl⟩, ⟨hlt, hc⟩, ⟨hlt', hb⟩, rfl⟩
        next => exact absurd h not_reads_none
    · rintro ⟨_, c, after, body, ⟨_, ht⟩, ⟨_, hc⟩, ⟨_, hb⟩, rfl⟩
      cases ht
      simp only [hc, hb]
      exact reads_some.2 ⟨rfl, rfl⟩
  next hne =>
    constructor
    · intro h
      exact absurd h not_reads_none
    · rintro ⟨mid, _, _, _, ⟨line, rfl⟩, _⟩
      exact absurd rfl (hne line mid)

theorem reads_block {body : List Statement} :
    Reads (block ts) body rest ↔
      ∃ mid, Takes .leftBrace ts mid ∧ Reads (statements mid) body rest := by
  rw [block.eq_def]
  split
  next line mid =>
    constructor
    · intro h
      split at h
      next body' after hlt hp =>
        obtain ⟨rfl, rfl⟩ := reads_some.1 h
        exact ⟨mid, ⟨line, rfl⟩, ⟨hlt, hp⟩⟩
      next => exact absurd h not_reads_none
    · rintro ⟨_, ⟨_, ht⟩, ⟨_, hp⟩⟩
      cases ht
      rw [hp]
      exact reads_some.2 ⟨rfl, rfl⟩
  next hne =>
    constructor
    · intro h
      exact absurd h not_reads_none
    · rintro ⟨mid, ⟨line, rfl⟩, _⟩
      exact absurd rfl (hne line mid)

theorem reads_statements {ss : List Statement} :
    Reads (statements ts) ss rest ↔
      (Takes .rightBrace ts rest ∧ ss = []) ∨
      ∃ s mid more, (∀ after, ¬ Takes .rightBrace ts after) ∧ Reads (statement ts) s mid ∧
        Reads (statements mid) more rest ∧ ss = s :: more := by
  rw [statements.eq_def]
  split
  next =>
    constructor
    · intro h
      exact absurd h not_reads_none
    · rintro (⟨⟨_, h⟩, _⟩ | ⟨s, mid, more, _, h, _⟩)
      · cases h
      · exact absurd h.shorter (Nat.not_lt_zero _)
  next line after =>
    constructor
    · intro h
      obtain ⟨rfl, rfl⟩ := reads_some.1 h
      exact .inl ⟨⟨line, rfl⟩, rfl⟩
    · rintro (⟨⟨_, ht⟩, rfl⟩ | ⟨s, mid, more, h, _⟩)
      · cases ht
        exact reads_some.2 ⟨rfl, rfl⟩
      · exact absurd ⟨line, rfl⟩ (h after)
  next hn hb =>
    have takes (after : List Located) : ¬ Takes .rightBrace ts after := by
      rintro ⟨line, rfl⟩
      exact hb line after rfl
    constructor
    · intro h
      split at h
      next => exact absurd h not_reads_none
      next s mid hlt hs =>
        split at h
        next more rest' hlt' hm =>
          obtain ⟨rfl, rfl⟩ := reads_some.1 h
          exact .inr ⟨s, mid, more, takes, ⟨hlt, hs⟩, ⟨hlt', hm⟩, rfl⟩
        next => exact absurd h not_reads_none
    · rintro (⟨h, _⟩ | ⟨s, mid, more, _, ⟨_, hs⟩, ⟨_, hm⟩, rfl⟩)
      · exact absurd h (takes rest)
      · simp only [hs, hm]
        exact reads_some.2 ⟨rfl, rfl⟩

theorem reads_otherwise {other : Option (List Statement)} :
    ReadsElse ts other rest ↔
      (∃ mid after s, Takes .elseWord ts mid ∧ Takes .ifWord mid after ∧
        Reads (branch mid) s rest ∧ other = some [s]) ∨
      (∃ mid body, Takes .elseWord ts mid ∧ Reads (block mid) body rest ∧ other = some body) ∨
      ((∀ mid, ¬ Takes .elseWord ts mid) ∧ other = none ∧ rest = ts) := by
  unfold ReadsElse
  rw [otherwise.eq_def]
  split
  next line line' after =>
    constructor
    · rintro ⟨hle, h⟩
      left
      split at h
      next s rest' hlt hb =>
        cases h
        exact ⟨_, after, s, ⟨line, rfl⟩, ⟨line', rfl⟩, ⟨hlt, hb⟩, rfl⟩
      next => cases h
    · rintro (⟨_, _, s, ⟨_, ht⟩, _, ⟨hlt, hb⟩, rfl⟩ | ⟨_, body, ⟨_, ht⟩, h, rfl⟩ | ⟨h, _⟩)
      · cases ht
        rw [hb]
        exact ⟨Nat.le_succ_of_le (Nat.le_of_lt hlt), rfl⟩
      · cases ht
        obtain ⟨_, ⟨_, h⟩, _⟩ := reads_block.1 h
        cases h
      · exact absurd ⟨line, rfl⟩ (h _)
  next line mid hne =>
    constructor
    · rintro ⟨hle, h⟩
      right; left
      split at h
      next body rest' hlt hb =>
        cases h
        exact ⟨mid, body, ⟨line, rfl⟩, ⟨hlt, hb⟩, rfl⟩
      next => cases h
    · rintro (⟨_, _, s, ⟨_, ht⟩, ⟨line', rfl⟩, _⟩ | ⟨_, body, ⟨_, ht⟩, ⟨hlt, hb⟩, rfl⟩ | ⟨h, _⟩)
      · cases ht
        exact absurd rfl (hne line' _)
      · cases ht
        rw [hb]
        exact ⟨Nat.le_succ_of_le (Nat.le_of_lt hlt), rfl⟩
      · exact absurd ⟨line, rfl⟩ (h mid)
  next hne hn =>
    constructor
    · rintro ⟨hle, h⟩
      cases h
      refine .inr (.inr ⟨?_, rfl, rfl⟩)
      rintro mid ⟨line, rfl⟩
      exact hn line mid rfl
    · rintro (⟨mid, _, _, ⟨line, rfl⟩, _⟩ | ⟨mid, _, ⟨line, rfl⟩, _⟩ | ⟨_, rfl, rfl⟩)
      · exact absurd rfl (hn line mid)
      · exact absurd rfl (hn line mid)
      · exact ⟨Nat.le_refl _, rfl⟩

theorem reads_statement {s : Statement} :
    Reads (statement ts) s rest ↔
      Reads (expressionStatement ts) s rest ∨ expressionStatement ts = none ∧
        (Reads (assignment ts) s rest ∨ assignment ts = none ∧
          (Reads (branch ts) s rest ∨ branch ts = none ∧ Reads (loop ts) s rest)) := by
  rw [statement]
  split
  next p hp => simp [hp]
  next he =>
    split
    next p hp => simp [he, hp]
    next ha =>
      split
      next p hp => simp [he, ha, hp]
      next hb => simp [he, ha, hb]

theorem reads_nameList {xs : List String} :
    Reads (nameList ts) xs rest ↔
      ∃ x mid, Takes (.ident x) ts mid ∧
        (Takes .rightParen mid rest ∧ xs = [x] ∨
          ∃ after ys, Takes .comma mid after ∧ Reads (nameList after) ys rest ∧
            xs = x :: ys) := by
  rw [nameList.eq_def]
  split
  next x line line' after =>
    constructor
    · intro h
      split at h
      next ys rest' hlt hp =>
        obtain ⟨rfl, rfl⟩ := reads_some.1 h
        exact ⟨x, _, ⟨line, rfl⟩, .inr ⟨after, ys, ⟨line', rfl⟩, ⟨hlt, hp⟩, rfl⟩⟩
      next => exact absurd h not_reads_none
    · rintro ⟨y, _, ⟨_, ht⟩, ⟨⟨_, rfl⟩, _⟩ | ⟨_, ys, ⟨_, rfl⟩, ⟨_, hp⟩, rfl⟩⟩
      · cases ht
      · cases ht
        rw [hp]
        exact reads_some.2 ⟨rfl, rfl⟩
  next x line line' after =>
    constructor
    · intro h
      obtain ⟨rfl, rfl⟩ := reads_some.1 h
      exact ⟨x, _, ⟨line, rfl⟩, .inl ⟨⟨line', rfl⟩, rfl⟩⟩
    · rintro ⟨y, _, ⟨_, ht⟩, ⟨⟨_, rfl⟩, rfl⟩ | ⟨_, ys, ⟨_, rfl⟩, _⟩⟩
      · cases ht
        exact reads_some.2 ⟨rfl, rfl⟩
      · cases ht
  next hc hr =>
    constructor
    · intro h
      exact absurd h not_reads_none
    · rintro ⟨x, _, ⟨line, rfl⟩, ⟨⟨line', rfl⟩, _⟩ | ⟨after, ys, ⟨line', rfl⟩, _⟩⟩
      · exact absurd rfl (hr x line line' rest)
      · exact absurd rfl (hc x line line' after)

theorem reads_parameters {xs : List String} :
    Reads (parameters ts) xs rest ↔
      Takes .rightParen ts rest ∧ xs = [] ∨ Reads (nameList ts) xs rest := by
  unfold parameters
  split
  next line after =>
    constructor
    · intro h
      obtain ⟨rfl, rfl⟩ := reads_some.1 h
      exact .inl ⟨⟨line, rfl⟩, rfl⟩
    · rintro (⟨⟨_, ht⟩, rfl⟩ | h)
      · cases ht
        exact reads_some.2 ⟨rfl, rfl⟩
      · obtain ⟨_, _, ⟨_, h⟩, _⟩ := reads_nameList.1 h
        cases h
  next hne =>
    constructor
    · exact .inr
    · rintro (⟨⟨line, rfl⟩, _⟩ | h)
      · exact absurd rfl (hne line rest)
      · exact h

theorem reads_definition {s : Statement} :
    Reads (definition ts) s rest ↔
      ∃ f mid after last params body more, Takes .defWord ts mid ∧ Takes (.ident f) mid after ∧
        Takes .leftParen after last ∧ Reads (parameters last) params more ∧
        Reads (block more) body rest ∧ s = .define f params body := by
  unfold definition
  split
  next line f line' line'' last =>
    constructor
    · intro h
      split at h
      next => exact absurd h not_reads_none
      next params more hlt hp =>
        split at h
        next body rest' hlt' hb =>
          obtain ⟨rfl, rfl⟩ := reads_some.1 h
          exact ⟨f, _, _, last, params, body, more, ⟨line, rfl⟩, ⟨line', rfl⟩, ⟨line'', rfl⟩,
            ⟨hlt, hp⟩, ⟨hlt', hb⟩, rfl⟩
        next => exact absurd h not_reads_none
    · rintro ⟨g, _, _, _, params, body, more, ⟨_, ht⟩, ⟨_, rfl⟩, ⟨_, rfl⟩, ⟨_, hp⟩, ⟨_, hb⟩, rfl⟩
      cases ht
      simp only [hp, hb]
      exact reads_some.2 ⟨rfl, rfl⟩
  next hne =>
    constructor
    · intro h
      exact absurd h not_reads_none
    · rintro ⟨f, _, _, last, _, _, _, ⟨line, rfl⟩, ⟨line', rfl⟩, ⟨line'', rfl⟩, _⟩
      exact absurd rfl (hne line f line' line'' last)

theorem reads_topStatement {s : Statement} :
    Reads (topStatement ts) s rest ↔
      Reads (statement ts) s rest ∨ statement ts = none ∧ Reads (definition ts) s rest := by
  unfold topStatement
  split
  next p hp => simp [hp]
  next hs => simp [hs]

end

end Script.Parsing
