import Script.Proofs.Cursor.Readings.Statements

/-!
# What a run comes to

A reader that gives a call up whose arguments do not read fails where the
running reader takes the name for a variable. Then the parenthesis is left, and
nothing that goes on after an expression goes on before a parenthesis that
opens. So only the productions that may end with a name waver. Every other
production reads what the running reader reads, whatever the strategy.
-/

set_option autoImplicit false

namespace Script.Cursor
open Parsing Routine

def Opens (ts : List Located) : Prop :=
  ∃ rest, Takes .leftParen ts rest

def MayFail {α : Type} (wavers : Bool) (target : Option (α × List Located)) : Prop :=
  ∀ a rest, target = some (a, rest) → wavers = true ∧ Opens rest

/-- A run that has ended comes to what is read, or else wavers. -/
def Meets {α : Type} (wavers : Bool) (target : Option (α × List Located)) : Result α → Prop
  | (.done a, rest) => target = some (a, rest)
  | (.failed _, _) => MayFail wavers target
  | (.exhausted, _) => True

namespace Production

/-- Whether a production may fail where the running reader leaves a
parenthesis. -/
def wavers (σ : Strategy) : {α : Type} → Production α → Bool
  | _, .chain _ | _, .chainRest _ _ | _, .unary | _, .call => !σ.retreats
  | _, _ => false

def restores : {α : Type} → Production α → Bool
  | _, .oneOf _ | _, .topStatement => true
  | _, _ => false

end Production

section
variable {α : Type} {wavers : Bool} {ts : List Located}

theorem mayFail_none : MayFail wavers (none : Option (α × List Located)) :=
  nofun

theorem MayFail.eq_none {target : Option (α × List Located)} (h : MayFail false target) :
    target = none :=
  Option.eq_none_iff_forall_ne_some.2 fun ⟨a, rest⟩ htarget => nomatch (h a rest htarget).1

theorem Opens.not_takes {k : Token} {rest : List Located} (h : Opens ts) (hk : k ≠ .leftParen) :
    ¬ Takes k ts rest := by
  obtain ⟨_, ht⟩ := h
  exact ht.not_takes hk.symm

theorem Opens.meaning_expect {k : Token} {next : Routine α} (h : Opens ts) (hk : k ≠ .leftParen) :
    (expect k next).meaning ts = none :=
  Option.eq_none_iff_forall_ne_some.2 fun x hx => by
    obtain ⟨rest, ht, _⟩ := meaning_expect_iff.1 hx
    exact h.not_takes hk ht

theorem Opens.reading_chainRest {l : Level} {left : Expr} (h : Opens ts) :
    (Production.chainRest l left).reading ts = some (left, ts) := by
  have hstop (op : Operator) (mid : List Located) (ht : Takes op.token ts mid) : op.level ≠ l :=
    absurd ht (h.not_takes (by cases op <;> decide))
  rw [reading_chainRest_iff (length_lt_started ts), reads_chainFrom]
  exact .inl ⟨hstop, rfl, rfl⟩

end

namespace Routine
variable {α : Type}

/-- A routine goes on after a production that has failed only if the cursor has
been put back, and after one that may waver it fails before a parenthesis or
wavers itself. -/
def Guarded (σ : Strategy) (wavers : Bool) : Routine α → Prop
  | .give _ | .fail => True
  | .peek next | .take next => ∀ t, (next t).Guarded σ wavers
  | .call p next =>
    (∀ b, (next b).Guarded σ wavers) ∧ (p.restores = true ∨ next none = .fail) ∧
      (p.wavers σ = true → next none = .fail ∧
        ∀ b ts, Opens ts → MayFail wavers ((next (some b)).meaning ts))
  | .attempt p next => (∀ b, (next b).Guarded σ wavers) ∧ p.wavers σ = false

variable {σ : Strategy} {wavers : Bool}

@[simp] theorem guarded_give {a : α} : (give a).Guarded σ wavers :=
  trivial

@[simp] theorem guarded_fail : (fail : Routine α).Guarded σ wavers :=
  trivial

@[simp] theorem guarded_peek {next : Option Located → Routine α} :
    (peek next).Guarded σ wavers ↔ ∀ t, (next t).Guarded σ wavers :=
  Iff.rfl

@[simp] theorem guarded_take {next : Option Located → Routine α} :
    (take next).Guarded σ wavers ↔ ∀ t, (next t).Guarded σ wavers :=
  Iff.rfl

theorem guarded_read {β : Type} {p : Production β} {next : β → Routine α} :
    (read p next).Guarded σ wavers ↔
      (∀ b, (next b).Guarded σ wavers) ∧
        (p.wavers σ = true → ∀ b ts, Opens ts → MayFail wavers ((next b).meaning ts)) := by
  constructor
  · rintro ⟨hnext, _, hw⟩
    exact ⟨fun b => hnext (some b), fun h => (hw h).2⟩
  · rintro ⟨hnext, hw⟩
    refine ⟨?_, .inr rfl, fun h => ⟨rfl, hw h⟩⟩
    rintro (_ | b)
    · trivial
    · exact hnext b

theorem guarded_read_of_exact {β : Type} {p : Production β} {next : β → Routine α}
    (hp : p.wavers σ = false) (h : ∀ b, (next b).Guarded σ wavers) :
    (read p next).Guarded σ wavers :=
  guarded_read.2 ⟨h, fun hw => absurd (hp.symm.trans hw) Bool.false_ne_true⟩

theorem guarded_read_give_of_exact {β : Type} {p : Production β} {f : β → α}
    (hp : p.wavers σ = false) : (read p fun b => give (f b)).Guarded σ wavers :=
  guarded_read_of_exact hp fun _ => trivial

theorem guarded_attempt {β : Type} {p : Production β} {next : Option β → Routine α}
    (hp : p.wavers σ = false) (hsome : ∀ b, (next (some b)).Guarded σ wavers)
    (hnone : (next none).Guarded σ wavers) : (attempt p next).Guarded σ wavers := by
  refine ⟨?_, hp⟩
  rintro (_ | b)
  · exact hnone
  · exact hsome b

theorem guarded_call_of_restores {β : Type} {p : Production β} {next : Option β → Routine α}
    (hrestores : p.restores = true) (hp : p.wavers σ = false)
    (hsome : ∀ b, (next (some b)).Guarded σ wavers) (hnone : (next none).Guarded σ wavers) :
    (call p next).Guarded σ wavers :=
  ⟨(guarded_attempt hp hsome hnone).1, .inl hrestores,
    fun hw => absurd (hp.symm.trans hw) Bool.false_ne_true⟩

theorem guarded_read_give {β : Type} {p : Production β} {f : β → α}
    (h : p.wavers σ = true → wavers = true) :
    (read p fun b => give (f b)).Guarded σ wavers := by
  refine guarded_read.2 ⟨fun _ => trivial, fun hp b ts hts a rest hgive => ?_⟩
  obtain ⟨_, rfl⟩ := meaning_give_iff.1 hgive
  exact ⟨h hp, hts⟩

@[simp] theorem guarded_expect {k : Token} {next : Routine α} :
    (expect k next).Guarded σ wavers ↔ next.Guarded σ wavers := by
  constructor
  · intro h
    simpa using h (some ⟨k, 0⟩)
  · rintro h (_ | t)
    · trivial
    · dsimp only
      split
      · exact h
      · trivial

theorem guarded_read_expect {β : Type} {p : Production β} {k : Token} {next : β → Routine α}
    (hk : k ≠ .leftParen) (h : ∀ b, (next b).Guarded σ wavers) :
    (read p fun b => expect k (next b)).Guarded σ wavers := by
  refine guarded_read.2 ⟨fun b => guarded_expect.2 (h b), fun _ b ts hts => ?_⟩
  rw [hts.meaning_expect hk]
  exact mayFail_none

@[simp] theorem guarded_advance {next : Routine α} :
    (advance next).Guarded σ wavers ↔ next.Guarded σ wavers := by
  constructor
  · exact fun h => h (some ⟨.newline, 0⟩)
  · rintro h (_ | t)
    · trivial
    · exact h

@[simp] theorem guarded_before {k : Token} {next other : Routine α} :
    (before k next other).Guarded σ wavers ↔
      next.Guarded σ wavers ∧ other.Guarded σ wavers := by
  constructor
  · intro h
    exact ⟨by simpa using h (some ⟨k, 0⟩), h none⟩
  · rintro ⟨hnext, hother⟩ (_ | t)
    · exact hother
    · dsimp only
      split
      · exact hnext
      · exact hother

@[simp] theorem guarded_accept {k : Token} {next other : Routine α} :
    (accept k next other).Guarded σ wavers ↔
      next.Guarded σ wavers ∧ other.Guarded σ wavers := by
  rw [accept, guarded_before, guarded_advance]

/-- What a guarded routine comes to is what it means, if what it calls comes to
what is read. -/
theorem Guarded.meets {callee : {β : Type} → Production β → List Located → Result β}
    (hcallee : ∀ {β : Type} (q : Production β) ts,
      Meets (q.wavers σ) (q.reading ts) (callee q ts))
    (hrestores : ∀ {β : Type} (q : Production β) ts rest, q.restores = true →
      callee q ts = (.failed (), rest) → rest = ts)
    {r : Routine α} (h : r.Guarded σ wavers) (ts : List Located) :
    Meets wavers (r.meaning ts) (r.run callee ts) := by
  induction r generalizing ts with
  | give a => rfl
  | fail => exact mayFail_none
  | peek next ih => exact ih _ (h _) ts
  | take next ih => exact ih _ (h _) ts.tail
  | call p next ih =>
    obtain ⟨hnext, hback, hw⟩ := h
    have hp := hcallee p ts
    simp only [run, meaning]
    cases hresult : callee p ts with
    | mk outcome rest =>
      rw [hresult] at hp
      cases outcome with
      | done b =>
        rw [show p.reading ts = some (b, rest) from hp]
        exact ih _ (hnext _) rest
      | failed _ =>
        -- If nothing is read, the cursor may stand anywhere, and it only counts where the routine
        -- goes on. If something is, the call wavers and the routine fails with it.
        cases hreading : p.reading ts with
        | none =>
          obtain hback | hfail := hback
          · rw [hrestores p ts rest hback hresult]
            exact ih _ (hnext _) ts
          · dsimp only
            rw [hfail]
            exact mayFail_none
        | some x =>
          obtain ⟨hpw, hmid⟩ := hp _ _ hreading
          obtain ⟨hfail, hmay⟩ := hw hpw
          dsimp only
          rw [hfail]
          exact hmay _ _ hmid
      | exhausted => trivial
  | attempt p next ih =>
    obtain ⟨hnext, hw⟩ := h
    have hp := hcallee p ts
    simp only [run, meaning]
    cases hresult : callee p ts with
    | mk outcome rest =>
      rw [hresult] at hp
      cases outcome with
      | done b =>
        rw [show p.reading ts = some (b, rest) from hp]
        exact ih _ (hnext _) rest
      | failed _ =>
        rw [hw] at hp
        rw [MayFail.eq_none hp]
        exact ih _ (hnext _) ts
      | exhausted => trivial

theorem guarded_firstOf {ps : List (Production α)} (h : ∀ p ∈ ps, p.wavers σ = false) :
    (firstOf ps).Guarded σ wavers := by
  induction ps with
  | nil => trivial
  | cons p ps ih =>
    obtain ⟨hp, hps⟩ := List.forall_mem_cons.1 h
    exact guarded_attempt hp (fun a => trivial) (ih hps)

theorem guarded_chainRest {l : Level} {f : Expr → Expr} :
    (read (operand l) fun e => read (.chainRest l (f e)) .give).Guarded σ (!σ.retreats) := by
  refine guarded_read.2 ⟨fun e => guarded_read_give id, fun hp e ts hts a rest h => ?_⟩
  rw [meaning_read_give, hts.reading_chainRest] at h
  cases h
  exact ⟨by cases l <;> exact hp, hts⟩

theorem guarded_guarded {next : Expr → List Statement → Routine α}
    (h : ∀ c body, (next c body).Guarded σ wavers) : (guarded next).Guarded σ wavers :=
  guarded_expect.2 (guarded_read_expect (by decide) fun c => guarded_read_of_exact rfl (h c))

theorem guarded_elseBlock {node : Option (List Statement) → α} :
    (elseBlock node).Guarded σ wavers := by
  simp only [elseBlock, guarded_accept, guarded_before]
  exact ⟨⟨guarded_read_give_of_exact rfl, guarded_read_give_of_exact rfl⟩, trivial⟩

end Routine

theorem callRoutine_guarded (σ : Strategy) (retreats : Bool) :
    (callRoutine retreats).Guarded σ (!σ.retreats) := by
  have hgroup : (Routine.read .group give).Guarded σ (!σ.retreats) :=
    guarded_read_give_of_exact rfl
  refine guarded_peek.2 fun t => ?_
  split
  · split
    · exact guarded_attempt rfl (fun es => trivial) hgroup
    · exact guarded_attempt rfl (fun u => guarded_read_give_of_exact rfl) hgroup
  · exact hgroup

theorem formRoutine_guarded (σ : Strategy) (f : Form) : (formRoutine f).Guarded σ false := by
  cases f with
  | expression => exact guarded_read_expect (by decide) fun e => trivial
  | assignment =>
    exact guarded_read_of_exact rfl fun x => guarded_expect.2
      (guarded_read_expect (by decide) fun e => trivial)
  | branch => exact guarded_expect.2 (guarded_guarded fun c body => guarded_elseBlock)
  | loop => exact guarded_expect.2 (guarded_guarded fun c body => trivial)
  | definition =>
    simp only [formRoutine, guarded_expect]
    refine guarded_read_of_exact rfl fun f => guarded_expect.2 ?_
    exact guarded_read_of_exact rfl fun params => guarded_read_give_of_exact rfl

theorem routine_guarded (σ : Strategy) {α : Type} (p : Production α) :
    (p.routine σ).Guarded σ (p.wavers σ) := by
  cases p with
  | chain l => exact guarded_chainRest
  | chainRest l left =>
    refine guarded_peek.2 fun t => ?_
    split
    · exact guarded_advance.2 guarded_chainRest
    · trivial
  | unary =>
    simp only [Production.routine, guarded_accept]
    exact ⟨guarded_read_give id, guarded_read_give id, guarded_read_give id⟩
  | call => exact callRoutine_guarded σ σ.retreats
  | callArguments =>
    simp only [Production.routine, guarded_advance, guarded_expect]
    exact guarded_read_give_of_exact rfl
  | callOpening => simp [Production.routine]
  | group =>
    simp only [Production.routine, guarded_accept]
    exact ⟨guarded_read_expect (by decide) fun e => trivial, guarded_read_give_of_exact rfl⟩
  | primary =>
    refine guarded_take.2 fun t => ?_
    split <;> trivial
  | list item =>
    simp only [Production.routine, guarded_accept]
    exact ⟨trivial, guarded_read_give_of_exact rfl⟩
  | items item =>
    refine guarded_read.2 ⟨fun a => guarded_take.2 fun t => ?_, ?_⟩
    · split
      · exact guarded_read_give_of_exact rfl
      · trivial
      · trivial
    · rintro _ a _ ⟨rest, line, rfl⟩
      exact mayFail_none
  | name =>
    refine guarded_take.2 fun t => ?_
    split <;> trivial
  | form f => exact formRoutine_guarded σ f
  | oneOf forms =>
    refine guarded_firstOf fun p hp => ?_
    obtain ⟨f, _, rfl⟩ := List.mem_map.1 hp
    rfl
  | topStatement =>
    refine guarded_call_of_restores rfl rfl (fun s => trivial) ?_
    exact guarded_attempt rfl (fun s => trivial) (guarded_read_give_of_exact rfl)
  | block => exact guarded_expect.2 (guarded_read_give_of_exact rfl)
  | statements =>
    refine guarded_peek.2 fun t => ?_
    split
    · split
      · simp
      · exact guarded_read_of_exact rfl fun s => guarded_read_give_of_exact rfl
    · trivial
  | program =>
    refine guarded_peek.2 fun t => ?_
    split
    · refine guarded_call_of_restores rfl rfl (fun s => ?_) trivial
      exact guarded_read_give_of_exact rfl
    · trivial

/-! ### What runs come to -/

theorem Meets.of_meaning {α : Type} {wavers : Bool} {meaning target : Option (α × List Located)}
    {result : Result α} (h : Meets wavers meaning result)
    (hsound : ∀ x, meaning = some x → target = some x)
    (hshort : ∀ a rest, target = some (a, rest) →
      meaning = some (a, rest) ∨ wavers = true ∧ Opens rest) : Meets wavers target result := by
  obtain ⟨outcome, rest⟩ := result
  cases outcome with
  | done a => exact hsound _ h
  | failed _ =>
    intro a mid htarget
    obtain hmeaning | hwavers := hshort a mid htarget
    · exact h a mid hmeaning
    · exact hwavers
  | exhausted => trivial

theorem rest_of_reads_group {f : String} {ts mid rest : List Located} {e : Expr}
    (ht : Takes (.ident f) ts mid) (h : Reads (Parsing.group ts) e rest) : rest = mid := by
  obtain ⟨_, rfl⟩ := ht
  obtain ⟨_, _, ⟨_, ht⟩, _⟩ | ⟨_, ⟨_, ht⟩, _⟩ := reads_group.1 h
  · cases ht
  · cases ht
    rfl

/-- Where a call that does not retreat is given up for good, the running reader
takes the name for a variable and leaves the parenthesis. -/
theorem meaning_or_opens_of_reads_call {retreats : Bool} {ts rest : List Located} {e : Expr}
    (h : Reads (Parsing.call ts) e rest) :
    (callRoutine retreats).meaning ts = some (e, rest) ∨ (!retreats) = true ∧ Opens rest := by
  rw [meaning_callRoutine_iff]
  obtain hcall | ⟨hgroup, hne⟩ := reads_call.1 h
  · exact .inl (.inl hcall)
  · cases retreats with
    | true => exact .inl (.inr ⟨hgroup, fun f mid after ht ho => ⟨rfl, hne f mid after ht ho⟩⟩)
    | false =>
      by_cases hopens : ∃ f mid, Takes (.ident f) ts mid ∧ Opens mid
      · obtain ⟨f, mid, ht, ho⟩ := hopens
        exact .inr ⟨rfl, rest_of_reads_group ht hgroup ▸ ho⟩
      · exact .inl (.inr ⟨hgroup, fun f mid after ht ho => absurd ⟨f, mid, ht, after, ho⟩ hopens⟩)

theorem reads_call_of_meaning {retreats : Bool} {ts rest : List Located} {e : Expr}
    (h : (callRoutine retreats).meaning ts = some (e, rest)) : Reads (Parsing.call ts) e rest := by
  refine reads_call.2 ((meaning_callRoutine_iff.1 h).imp_right fun ⟨hgroup, hne⟩ => ?_)
  exact ⟨hgroup, fun f mid after ht ho => (hne f mid after ht ho).2⟩

theorem Meets.of_routine {σ : Strategy} {α : Type} {p : Production α} {ts : List Located}
    {result : Result α} (h : Meets (p.wavers σ) ((p.routine σ).meaning ts) result) :
    Meets (p.wavers σ) (p.reading ts) result := by
  cases p with
  | chain l => rwa [reading_chain]
  | chainRest l left => rwa [reading_chainRest]
  | unary => rwa [reading_unary]
  | call =>
    refine h.of_meaning ?_ ?_
    · exact fun ⟨e, rest⟩ hx => Production.reading_call_iff.2 (reads_call_of_meaning hx)
    · exact fun e rest hx => meaning_or_opens_of_reads_call (Production.reading_call_iff.1 hx)
  | callArguments => rwa [reading_callArguments]
  | callOpening => rwa [reading_callOpening]
  | group => rwa [reading_group]
  | primary => rwa [reading_primary]
  | list item =>
    cases item with
    | argument => rwa [reading_arguments]
    | parameter => rwa [reading_parameters]
  | items item =>
    cases item with
    | argument => rwa [reading_argumentList]
    | parameter => rwa [reading_nameList]
  | name => rwa [reading_name]
  | form f => rwa [reading_form]
  | oneOf forms => rwa [reading_oneOf]
  | topStatement => rwa [reading_topStatement]
  | block => rwa [reading_block]
  | statements => rwa [reading_statements]
  | program => rwa [reading_program]

theorem restores_of_failed {σ : Strategy} {fuel : Nat} {α : Type} {p : Production α}
    {ts rest : List Located} (hp : p.restores = true)
    (h : p.run σ fuel ts = (.failed (), rest)) : rest = ts := by
  cases p with
  | oneOf forms => exact run_oneOf_failed h
  | topStatement => exact run_topStatement_failed h
  | _ => cases hp

/-- Whatever the strategy, a run of a production comes to what is read of it, or
wavers. -/
theorem run_meets (σ : Strategy) (fuel : Nat) {α : Type} (p : Production α) (ts : List Located) :
    Meets (p.wavers σ) (p.reading ts) (p.run σ fuel ts) := by
  -- By induction on the fuel: the runs of what is called have less.
  induction fuel generalizing α p ts with
  | zero => trivial
  | succ fuel ih =>
    exact .of_routine ((routine_guarded σ p).meets ih (fun _ _ _ => restores_of_failed) ts)

end Script.Cursor
