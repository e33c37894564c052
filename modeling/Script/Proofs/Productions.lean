import Script.Proofs.Grammar

/-!
# What each production does

For each production, exactly when it reads a node and leaves given tokens,
said by what the productions inside it do. All that is proved about reading
rests on these and on nothing else of how the productions are written.
-/

set_option autoImplicit false

namespace Script.Parsing
open Grammar

/-- A production has read a node and left the rest. -/
def Reads {α : Type} {ts : List Located} (p : Option (Parsed α ts)) (node : α)
    (rest : List Located) : Prop :=
  ∃ h, p = some ⟨node, rest, h⟩

def Takes (k : Token) (ts rest : List Located) : Prop :=
  ∃ line, ts = ⟨k, line⟩ :: rest

section
variable {α : Type} {ts rest : List Located}

theorem Reads.shorter {p : Option (Parsed α ts)} {a : α} (h : Reads p a rest) :
    rest.length < ts.length :=
  h.1

theorem reads_some {q : Parsed α ts} {a : α} :
    Reads (some q) a rest ↔ q.node = a ∧ q.rest = rest := by
  obtain ⟨b, mid, h⟩ := q
  constructor
  · rintro ⟨_, h⟩
    cases h
    exact ⟨rfl, rfl⟩
  · rintro ⟨rfl, rfl⟩
    exact ⟨h, rfl⟩

@[simp] theorem not_reads_none {a : α} : ¬ Reads (none : Option (Parsed α ts)) a rest := by
  rintro ⟨_, h⟩
  cases h

theorem Reads.unique {p : Option (Parsed α ts)} {a b : α} {rest' : List Located}
    (h : Reads p a rest) (h' : Reads p b rest') : a = b ∧ rest = rest' := by
  obtain ⟨_, rfl⟩ := h
  obtain ⟨rfl, rfl⟩ := reads_some.1 h'
  exact ⟨rfl, rfl⟩

theorem eq_none_of_not_reads {p : Option (Parsed α ts)} (h : ∀ a rest, ¬ Reads p a rest) :
    p = none := by
  cases p with
  | none => rfl
  | some q => exact absurd ⟨q.shorter, rfl⟩ (h q.node q.rest)

theorem Takes.shorter {k : Token} (h : Takes k ts rest) : rest.length < ts.length := by
  obtain ⟨_, rfl⟩ := h
  simp

@[simp] theorem takes_mk {k k' : Token} {line : Nat} :
    Takes k (⟨k', line⟩ :: ts) rest ↔ k' = k ∧ ts = rest := by
  simp [Takes]

@[simp] theorem not_takes_nil {k : Token} : ¬ Takes k [] rest := by
  simp [Takes]

end

section
variable {ts rest : List Located} {e : Expr}

theorem reads_primary :
    Reads (primary ts) e rest ↔ ∃ k, Takes k ts rest ∧ Atom k e := by
  constructor
  · intro h
    unfold primary at h
    split at h
    case h_6 => exact absurd h not_reads_none
    all_goals
      obtain ⟨rfl, rfl⟩ := reads_some.1 h
      exact ⟨_, ⟨_, rfl⟩, by constructor⟩
  · rintro ⟨k, ⟨line, rfl⟩, h⟩
    cases h <;> exact reads_some.2 ⟨rfl, rfl⟩

theorem reads_group :
    Reads (group ts) e rest ↔
      (∃ mid after, Takes .leftParen ts mid ∧ Reads (chain .comparison mid) e after ∧
        Takes .rightParen after rest) ∨
      ∃ k, Takes k ts rest ∧ Atom k e := by
  rw [group.eq_def]
  split
  next line mid =>
    constructor
    · intro h
      split at h
      next e' line' after hlt hp =>
        obtain ⟨rfl, rfl⟩ := reads_some.1 h
        exact .inl ⟨mid, _, ⟨line, rfl⟩, ⟨hlt, hp⟩, ⟨line', rfl⟩⟩
      next => exact absurd h not_reads_none
    · rintro (⟨_, _, ⟨_, ht⟩, ⟨hlt, hp⟩, ⟨_, rfl⟩⟩ | ⟨k, ⟨_, ht⟩, hk⟩)
      · cases ht
        rw [hp]
        exact reads_some.2 ⟨rfl, rfl⟩
      · cases ht
        cases hk
  next hne =>
    rw [reads_primary]
    constructor
    · exact .inr
    · rintro (⟨_, _, ⟨line, rfl⟩, _⟩ | h)
      · exact absurd rfl (hne line _)
      · exact h

/-- A call comes before anything else that starts with its name. -/
theorem reads_call :
    Reads (call ts) e rest ↔
      (∃ f mid after es, Takes (.ident f) ts mid ∧ Takes .leftParen mid after ∧
        Reads (arguments after) es rest ∧ e = .call f es) ∨
      (Reads (group ts) e rest ∧ ∀ f mid after, Takes (.ident f) ts mid →
        Takes .leftParen mid after → arguments after = none) := by
  rw [call.eq_def]
  split
  next f line line' after =>
    have takes {g : String} {mid after' : List Located}
        (h : Takes (.ident g) (⟨.ident f, line⟩ :: ⟨.leftParen, line'⟩ :: after) mid)
        (h' : Takes .leftParen mid after') : g = f ∧ after' = after := by
      obtain ⟨_, h⟩ := h
      obtain ⟨_, rfl⟩ := h'
      cases h
      exact ⟨rfl, rfl⟩
    split
    next es mid hlt hp =>
      rw [reads_some]
      constructor
      · rintro ⟨rfl, rfl⟩
        exact .inl ⟨f, _, after, es, ⟨line, rfl⟩, ⟨line', rfl⟩, ⟨hlt, hp⟩, rfl⟩
      · rintro (⟨g, mid, after', es', h, h', ⟨hlt', hp'⟩, rfl⟩ | ⟨_, h⟩)
        · obtain ⟨rfl, rfl⟩ := takes h h'
          cases hp.symm.trans hp'
          exact ⟨rfl, rfl⟩
        · rw [h f _ after ⟨line, rfl⟩ ⟨line', rfl⟩] at hp
          cases hp
    next hp =>
      constructor
      · intro h
        refine .inr ⟨h, fun g mid after' ht ht' => ?_⟩
        obtain ⟨rfl, rfl⟩ := takes ht ht'
        exact hp
      · rintro (⟨g, mid, after', es', h, h', hr, rfl⟩ | ⟨h, _⟩)
        · obtain ⟨rfl, rfl⟩ := takes h h'
          exact absurd (hp ▸ hr) not_reads_none
        · exact h
  next hne =>
    constructor
    · intro h
      refine .inr ⟨h, ?_⟩
      rintro f _ after ⟨line, rfl⟩ ⟨line', rfl⟩
      exact absurd rfl (hne f line line' after)
    · rintro (⟨f, _, after, es, ⟨line, rfl⟩, ⟨line', rfl⟩, _⟩ | ⟨h, _⟩)
      · exact absurd rfl (hne f line line' after)
      · exact h

theorem reads_unary :
    Reads (unary ts) e rest ↔
      (∃ op mid a, (op = .add ∨ op = .subtract) ∧ Takes op.token ts mid ∧
        Reads (unary mid) a rest ∧ e = .binary op (.int 0) a) ∨
      (Reads (call ts) e rest ∧ ∀ mid, ¬ Takes .minus ts mid ∧ ¬ Takes .plus ts mid) := by
  rw [unary.eq_def]
  split
  next line mid =>
    constructor
    · intro h
      split at h
      next p hp =>
        obtain ⟨rfl, rfl⟩ := reads_some.1 h
        exact .inl ⟨.subtract, mid, p.node, .inr rfl, ⟨line, rfl⟩, ⟨p.shorter, hp⟩, rfl⟩
      next => exact absurd h not_reads_none
    · rintro (⟨op, _, a, rfl | rfl, ⟨_, ht⟩, ⟨hlt, hp⟩, rfl⟩ | ⟨_, h⟩)
      · cases ht
      · cases ht
        rw [hp]
        exact reads_some.2 ⟨rfl, rfl⟩
      · exact absurd ⟨line, rfl⟩ (h mid).1
  next line mid =>
    constructor
    · intro h
      split at h
      next p hp =>
        obtain ⟨rfl, rfl⟩ := reads_some.1 h
        exact .inl ⟨.add, mid, p.node, .inl rfl, ⟨line, rfl⟩, ⟨p.shorter, hp⟩, rfl⟩
      next => exact absurd h not_reads_none
    · rintro (⟨op, _, a, rfl | rfl, ⟨_, ht⟩, ⟨hlt, hp⟩, rfl⟩ | ⟨_, h⟩)
      · cases ht
        rw [hp]
        exact reads_some.2 ⟨rfl, rfl⟩
      · cases ht
      · exact absurd ⟨line, rfl⟩ (h mid).2
  next hm hp =>
    constructor
    · intro h
      refine .inr ⟨h, fun mid => ⟨?_, ?_⟩⟩
      · rintro ⟨line, rfl⟩
        exact hm line mid rfl
      · rintro ⟨line, rfl⟩
        exact hp line mid rfl
    · rintro (⟨op, mid, a, rfl | rfl, ⟨line, rfl⟩, _⟩ | ⟨h, _⟩)
      · exact absurd rfl (hp line mid)
      · exact absurd rfl (hm line mid)
      · exact h

theorem reads_chain {l : Level} :
    Reads (chain l ts) e rest ↔
      ∃ a mid h, Reads (operand l ts) a mid ∧ Reads (chainFrom l ts a mid h) e rest := by
  rw [chain]
  split
  next p hp =>
    constructor
    · intro h
      exact ⟨p.node, p.rest, p.shorter, ⟨p.shorter, hp⟩, h⟩
    · rintro ⟨a, mid, hlt, ⟨_, hp'⟩, h⟩
      cases hp.symm.trans hp'
      exact h
  next hp =>
    constructor
    · intro h
      exact absurd h not_reads_none
    · rintro ⟨a, mid, hlt, h, _⟩
      exact absurd (hp ▸ h) not_reads_none

theorem reads_chainFrom {l : Level} {start : List Located} {a : Expr}
    {h : ts.length < start.length} :
    Reads (chainFrom l start a ts h) e rest ↔
      ((∀ (op : Operator) mid, Takes op.token ts mid → op.level ≠ l) ∧ e = a ∧ rest = ts) ∨
      ∃ (op : Operator) (mid : _) (b : _) (after : _) (h' : _),
        op.level = l ∧ Takes op.token ts mid ∧
        Reads (operand l mid) b after ∧
        Reads (chainFrom l start (.binary op a b) after h') e rest := by
  rw [chainFrom.eq_def]
  split
  next => simp [reads_some, eq_comm]
  next t mid hlt =>
    split
    next hop =>
      have hl : ∀ (op : Operator) mid', Takes op.token (t :: mid) mid' → op.level ≠ l := by
        rintro op mid' ⟨line, ht⟩ hl
        cases ht
        simp [operatorAt?_eq_some_iff.2 ⟨rfl, hl⟩] at hop
      constructor
      · intro h
        obtain ⟨rfl, rfl⟩ := reads_some.1 h
        exact .inl ⟨hl, rfl, rfl⟩
      · rintro (⟨_, rfl, rfl⟩ | ⟨op, mid', b, after, h', hl', ht, _⟩)
        · exact reads_some.2 ⟨rfl, rfl⟩
        · exact absurd hl' (hl op mid' ht)
    next op hop =>
      obtain ⟨ht, hl⟩ := operatorAt?_eq_some_iff.1 hop
      have takes : Takes op.token (t :: mid) mid := ⟨t.line, by rw [← ht]⟩
      split
      next p hp =>
        constructor
        · intro h
          exact .inr ⟨op, mid, p.node, p.rest, _, hl, takes, ⟨p.shorter, hp⟩, h⟩
        · rintro (⟨h, _⟩ | ⟨op', mid', b, after, h', hl', ⟨line, ht'⟩, ⟨_, hp'⟩, h⟩)
          · exact absurd hl (h op mid takes)
          · cases ht'
            cases hop.symm.trans (operatorAt?_eq_some_iff.2 ⟨rfl, hl'⟩)
            cases hp.symm.trans hp'
            exact h
      next hp =>
        constructor
        · intro h
          exact absurd h not_reads_none
        · rintro (⟨h, _⟩ | ⟨op', mid', b, after, h', hl', ⟨line, ht'⟩, h, _⟩)
          · exact absurd hl (h op mid takes)
          · cases ht'
            exact absurd (hp ▸ h) not_reads_none

@[simp] theorem operand_comparison : operand .comparison ts = chain .additive ts := by
  rw [operand]

@[simp] theorem operand_additive : operand .additive ts = chain .multiplicative ts := by
  rw [operand]

@[simp] theorem operand_multiplicative : operand .multiplicative ts = unary ts := by
  rw [operand]

theorem reads_argumentList {es : List Expr} :
    Reads (argumentList ts) es rest ↔
      ∃ a mid, Reads (chain .comparison ts) a mid ∧
        (Takes .rightParen mid rest ∧ es = [a] ∨
          ∃ after bs, Takes .comma mid after ∧ Reads (argumentList after) bs rest ∧
            es = a :: bs) := by
  rw [argumentList]
  split
  next a line after hlt hp =>
    constructor
    · intro h
      split at h
      next p hp' =>
        obtain ⟨rfl, rfl⟩ := reads_some.1 h
        exact ⟨a, _, ⟨hlt, hp⟩, .inr ⟨after, p.node, ⟨line, rfl⟩, ⟨p.shorter, hp'⟩, rfl⟩⟩
      next => exact absurd h not_reads_none
    · rintro ⟨a', mid, ⟨hlt', hp'⟩, ⟨⟨line', rfl⟩, _⟩ | ⟨_, bs, ⟨_, rfl⟩, ⟨hlt'', hb⟩, rfl⟩⟩
      · cases hp.symm.trans hp'
      · cases hp.symm.trans hp'
        rw [hb]
        exact reads_some.2 ⟨rfl, rfl⟩
  next a line after hlt hp =>
    constructor
    · intro h
      obtain ⟨rfl, rfl⟩ := reads_some.1 h
      exact ⟨a, _, ⟨hlt, hp⟩, .inl ⟨⟨line, rfl⟩, rfl⟩⟩
    · rintro ⟨a', mid, ⟨hlt', hp'⟩, ⟨⟨line', rfl⟩, rfl⟩ | ⟨_, bs, ⟨_, rfl⟩, _⟩⟩
      · cases hp.symm.trans hp'
        exact reads_some.2 ⟨rfl, rfl⟩
      · cases hp.symm.trans hp'
  next hc hr =>
    constructor
    · intro h
      exact absurd h not_reads_none
    · rintro ⟨a, mid, ⟨hlt, hp⟩, ⟨⟨line, rfl⟩, _⟩ | ⟨after, bs, ⟨line, rfl⟩, _⟩⟩
      · exact absurd hp (hr a line rest hlt)
      · exact absurd hp (hc a line after hlt)

theorem reads_arguments {es : List Expr} :
    Reads (arguments ts) es rest ↔
      (Takes .rightParen ts rest ∧ es = []) ∨
      (Reads (argumentList ts) es rest ∧ ∀ mid, ¬ Takes .rightParen ts mid) := by
  rw [arguments.eq_def]
  split
  next line after =>
    constructor
    · intro h
      obtain ⟨rfl, rfl⟩ := reads_some.1 h
      exact .inl ⟨⟨line, rfl⟩, rfl⟩
    · rintro (⟨⟨_, ht⟩, rfl⟩ | ⟨_, h⟩)
      · cases ht
        exact reads_some.2 ⟨rfl, rfl⟩
      · exact absurd ⟨line, rfl⟩ (h after)
  next hne =>
    constructor
    · intro h
      refine .inr ⟨h, ?_⟩
      rintro mid ⟨line, rfl⟩
      exact hne line mid rfl
    · rintro (⟨⟨line, rfl⟩, _⟩ | ⟨h, _⟩)
      · exact absurd rfl (hne line rest)
      · exact h

end

end Script.Parsing
