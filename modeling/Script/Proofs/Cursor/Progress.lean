import Script.Proofs.Cursor

/-!
# Reading always ends

A production that calls another before it has taken a token calls one of lower
rank, and every other call starts further on. So the number of tokens left and
the rank of the production go down together with every call, and no run needs
more fuel than they allow. What a run leaves is the end of what it was given,
and a production that succeeds has taken a token, unless it is a loop that may
end before its first round.
-/

set_option autoImplicit false

namespace Script.Cursor

namespace Production

def rank : {α : Type} → Production α → Nat
  | _, .chainRest _ _ | _, .callArguments | _, .callOpening | _, .primary | _, .name
  | _, .form .branch | _, .form .loop | _, .form .definition | _, .block => 0
  | _, .group | _, .form .assignment | _, .items .parameter => 1
  | _, .call | _, .list .parameter => 2
  | _, .unary => 3
  | _, .chain .multiplicative => 4
  | _, .chain .additive => 5
  | _, .chain .comparison => 6
  | _, .form .expression | _, .items .argument => 7
  | _, .list .argument | _, .oneOf _ => 8
  | _, .statements | _, .topStatement => 9
  | _, .program => 10

/-- Whether a production takes a token when it succeeds. Two loops may end
before their first round. -/
def advances : {α : Type} → Production α → Bool
  | _, .chainRest _ _ | _, .program => false
  | _, _ => true

def cost {α : Type} (p : Production α) (ts : List Located) : Nat :=
  ts.length * 11 + p.rank + 1

theorem rank_le {α : Type} (p : Production α) : p.rank ≤ 10 := by
  fun_cases rank p <;> decide

end Production

namespace Routine
variable {α : Type}

/-- Every call goes down in rank unless a token has been taken before, and a
node is given only then, if it has to be. -/
def Descends (rank : Nat) (advances : Bool) : (moved : Bool) → Routine α → Prop
  | moved, .give _ => advances = true → moved = true
  | _, .fail => True
  | moved, .peek next => ∀ t, (next t).Descends rank advances moved
  | moved, .take next =>
    (∀ t, (next (some t)).Descends rank advances true) ∧ (next none).Descends rank advances moved
  | moved, .call p next | moved, .attempt p next =>
    (moved = true ∨ p.rank < rank) ∧
      (∀ b, (next (some b)).Descends rank advances (moved || p.advances)) ∧
      (next none).Descends rank advances moved

variable {rank : Nat} {advances moved : Bool}

@[simp] theorem descends_give {a : α} :
    (give a).Descends rank advances moved ↔ (advances = true → moved = true) :=
  Iff.rfl

@[simp] theorem descends_fail : (fail : Routine α).Descends rank advances moved :=
  trivial

@[simp] theorem descends_peek {next : Option Located → Routine α} :
    (peek next).Descends rank advances moved ↔ ∀ t, (next t).Descends rank advances moved :=
  Iff.rfl

@[simp] theorem descends_take {next : Option Located → Routine α} :
    (take next).Descends rank advances moved ↔
      (∀ t, (next (some t)).Descends rank advances true) ∧
        (next none).Descends rank advances moved :=
  Iff.rfl

section
variable {β : Type} {p : Production β}

@[simp] theorem descends_call {next : Option β → Routine α} :
    (call p next).Descends rank advances moved ↔
      (moved = true ∨ p.rank < rank) ∧
        (∀ b, (next (some b)).Descends rank advances (moved || p.advances)) ∧
        (next none).Descends rank advances moved :=
  Iff.rfl

@[simp] theorem descends_attempt {next : Option β → Routine α} :
    (attempt p next).Descends rank advances moved ↔
      (moved = true ∨ p.rank < rank) ∧
        (∀ b, (next (some b)).Descends rank advances (moved || p.advances)) ∧
        (next none).Descends rank advances moved :=
  Iff.rfl

@[simp] theorem descends_read {next : β → Routine α} :
    (read p next).Descends rank advances moved ↔
      (moved = true ∨ p.rank < rank) ∧
        ∀ b, (next b).Descends rank advances (moved || p.advances) := by
  simp [read]

end

section
variable {k : Token} {next other : Routine α}

@[simp] theorem descends_expect :
    (expect k next).Descends rank advances moved ↔ next.Descends rank advances true := by
  simp only [expect, descends_take, descends_fail, and_true]
  constructor
  · intro h
    simpa using h ⟨k, 0⟩
  · intro h t
    split
    · exact h
    · trivial

@[simp] theorem descends_advance :
    (advance next).Descends rank advances moved ↔ next.Descends rank advances true := by
  simp only [advance, descends_take, descends_fail, and_true]
  exact ⟨fun h => h ⟨.newline, 0⟩, fun h _ => h⟩

@[simp] theorem descends_before :
    (before k next other).Descends rank advances moved ↔
      next.Descends rank advances moved ∧ other.Descends rank advances moved := by
  simp only [before, descends_peek]
  constructor
  · intro h
    exact ⟨by simpa using h (some ⟨k, 0⟩), h none⟩
  · rintro ⟨hnext, hother⟩ (_ | t)
    · exact hother
    · dsimp only
      split
      · exact hnext
      · exact hother

@[simp] theorem descends_accept :
    (accept k next other).Descends rank advances moved ↔
      next.Descends rank advances true ∧ other.Descends rank advances moved := by
  rw [accept, descends_before, descends_advance]

end

theorem elseBlock_descends {node : Option (List Statement) → α} :
    (elseBlock node).Descends rank advances true := by
  simp [elseBlock]

theorem descends_firstOf {ps : List (Production α)}
    (h : ∀ p ∈ ps, p.rank < rank ∧ p.advances = true) :
    (firstOf ps).Descends rank advances moved := by
  induction ps with
  | nil => trivial
  | cons p ps ih =>
    obtain ⟨hp, hps⟩ := List.forall_mem_cons.1 h
    refine ⟨.inr hp.1, fun a => ?_, ih hps⟩
    simp [hp.2]

end Routine

open Routine

theorem callRoutine_descends (retreats : Bool) :
    (callRoutine retreats).Descends Production.call.rank true false := by
  refine descends_peek.2 fun t => ?_
  split
  · split <;> simp [Production.rank, Production.advances]
  · simp [Production.rank, Production.advances]

theorem formRoutine_descends (f : Form) :
    (formRoutine f).Descends (Production.form f).rank true false := by
  cases f with
  | branch =>
    simp only [formRoutine, guarded, descends_expect, descends_read]
    exact ⟨by simp, fun c => ⟨by simp, fun body => elseBlock_descends⟩⟩
  | _ => simp [formRoutine, guarded, Production.rank, Production.advances]

theorem routine_descends (σ : Strategy) {α : Type} (p : Production α) :
    (p.routine σ).Descends p.rank p.advances false := by
  cases p with
  | chain l => cases l <;> simp [Production.routine, operand, Production.rank, Production.advances]
  | chainRest l left =>
    refine descends_peek.2 fun t => ?_
    split <;> simp [Production.advances]
  | call => exact callRoutine_descends σ.retreats
  | primary =>
    refine descends_take.2 ⟨fun t => ?_, trivial⟩
    split <;> simp
  | list item => cases item <;> simp [Production.routine, Production.rank, Production.advances]
  | items item =>
    refine descends_read.2 ⟨?_, fun a => descends_take.2 ⟨fun t => ?_, trivial⟩⟩
    · cases item <;> simp [Item.production, Production.rank]
    · split <;> simp [Production.advances]
  | name =>
    refine descends_take.2 ⟨fun t => ?_, trivial⟩
    split <;> simp
  | form f => exact formRoutine_descends f
  | oneOf forms =>
    refine descends_firstOf fun p hp => ?_
    obtain ⟨f, _, rfl⟩ := List.mem_map.1 hp
    cases f <;> simp [Production.rank, Production.advances]
  | statements =>
    refine descends_peek.2 fun t => ?_
    split
    · split <;> simp [Production.rank, Production.advances]
    · trivial
  | program =>
    refine descends_peek.2 fun t => ?_
    split <;> simp [Production.rank, Production.advances]
  | _ => simp [Production.routine, Production.rank, Production.advances]

structure Orderly {α : Type} (advances : Bool) (ts : List Located) (result : Result α) : Prop where
  ends : result.1 ≠ .exhausted
  suffix : result.2 <:+ ts
  shorter : advances = true → ∀ a, result.1 = .done a → result.2.length < ts.length

theorem Orderly.moved {α : Type} {advances moved : Bool} {start ts rest : List Located} {a : α}
    (h : Orderly advances ts (.done a, rest)) (hts : ts <:+ start)
    (hmoved : moved = true → ts.length < start.length) (hor : (moved || advances) = true) :
    rest.length < start.length := by
  rcases Bool.or_eq_true_iff.1 hor with hm | ha
  · exact Nat.lt_of_le_of_lt h.suffix.length_le (hmoved hm)
  · exact Nat.lt_of_lt_of_le (h.shorter ha a rfl) hts.length_le

section
variable {α : Type} {callee : {β : Type} → Production β → List Located → Result β}
  {start : List Located} {rank : Nat} {advances : Bool}

theorem Routine.Descends.orderly
    (hcallee : ∀ {β : Type} (q : Production β) ts, ts <:+ start →
      ts.length < start.length ∨ q.rank < rank → Orderly q.advances ts (callee q ts))
    {r : Routine α} {moved : Bool} (h : r.Descends rank advances moved) {ts : List Located}
    (hts : ts <:+ start) (hmoved : moved = true → ts.length < start.length) :
    Orderly advances start (r.run callee ts) := by
  induction r generalizing moved ts with
  | give a => exact ⟨nofun, hts, fun ha b _ => hmoved (h ha)⟩
  | fail => exact ⟨nofun, hts, nofun⟩
  | peek next ih => exact ih _ (h _) hts hmoved
  | take next ih =>
    cases ts with
    | nil => exact ih _ h.2 hts hmoved
    | cons t rest =>
      have hrest : rest <:+ start := (List.suffix_cons t rest).trans hts
      exact ih _ (h.1 t) hrest fun _ => Nat.lt_of_succ_le hts.length_le
  | call p next ih =>
    obtain ⟨hlower, hsome, hnone⟩ := h
    have hq := hcallee p ts hts (hlower.imp_left hmoved)
    rw [run]
    split
    next b rest hresult =>
      rw [hresult] at hq
      exact ih _ (hsome b) (hq.suffix.trans hts) (hq.moved hts hmoved)
    next rest hresult =>
      rw [hresult] at hq
      exact ih _ hnone (hq.suffix.trans hts) fun hm =>
        Nat.lt_of_le_of_lt hq.suffix.length_le (hmoved hm)
    next rest hresult => exact absurd (congrArg Prod.fst hresult) hq.ends
  | attempt p next ih =>
    obtain ⟨hlower, hsome, hnone⟩ := h
    have hq := hcallee p ts hts (hlower.imp_left hmoved)
    rw [run]
    split
    next b rest hresult =>
      rw [hresult] at hq
      exact ih _ (hsome b) (hq.suffix.trans hts) (hq.moved hts hmoved)
    next => exact ih _ hnone hts hmoved
    next rest hresult => exact absurd (congrArg Prod.fst hresult) hq.ends

end

/-- With enough fuel a production ends, whatever the tokens. -/
theorem run_orderly (σ : Strategy) (fuel : Nat) {α : Type} (p : Production α) (ts : List Located)
    (h : p.cost ts ≤ fuel) : Orderly p.advances ts (p.run σ fuel ts) := by
  induction fuel generalizing α p ts with
  | zero => exact absurd h (Nat.not_succ_le_zero _)
  | succ fuel ih =>
    refine (routine_descends σ p).orderly (fun q rest hrest hlower => ih q rest ?_)
      List.suffix_rfl nofun
    have hq := q.rank_le
    have hle := hrest.length_le
    unfold Production.cost at h ⊢
    omega

/-! ### More fuel changes nothing -/

section
variable {α : Type} {callee callee' : {β : Type} → Production β → List Located → Result β}

theorem Routine.run_mono
    (hcallee : ∀ {β : Type} (q : Production β) ts,
      (callee q ts).1 ≠ .exhausted → callee' q ts = callee q ts)
    (r : Routine α) (ts : List Located) (h : (r.run callee ts).1 ≠ .exhausted) :
    r.run callee' ts = r.run callee ts := by
  induction r generalizing ts with
  | give a => rfl
  | fail => rfl
  | peek next ih => exact ih _ _ h
  | take next ih => exact ih _ _ h
  | call p next ih | attempt p next ih =>
    simp only [run] at h ⊢
    have hq := hcallee p ts
    cases hresult : callee p ts with
    | mk outcome rest =>
      rw [hresult] at hq h
      cases outcome with
      | done b =>
        rw [hq nofun]
        exact ih _ _ h
      | failed _ =>
        rw [hq nofun]
        exact ih _ _ h
      | exhausted => exact absurd rfl h

end

theorem run_succ (σ : Strategy) (fuel : Nat) {α : Type} (p : Production α) (ts : List Located)
    (h : (p.run σ fuel ts).1 ≠ .exhausted) : p.run σ (fuel + 1) ts = p.run σ fuel ts := by
  induction fuel generalizing α p ts with
  | zero => exact absurd rfl h
  | succ fuel ih => exact Routine.run_mono (fun q rest => ih q rest) _ ts h

theorem run_of_le (σ : Strategy) {fuel fuel' : Nat} (hle : fuel ≤ fuel') {α : Type}
    (p : Production α) (ts : List Located) (h : (p.run σ fuel ts).1 ≠ .exhausted) :
    p.run σ fuel' ts = p.run σ fuel ts := by
  induction hle with
  | refl => rfl
  | step _ ih => rw [run_succ σ _ p ts (ih ▸ h), ih]

/-! ### Alternatives that all fail -/

theorem run_firstOf_failed {α : Type}
    {callee : {β : Type} → Production β → List Located → Result β} {ps : List (Production α)}
    {ts rest : List Located} (h : (firstOf ps).run callee ts = (.failed (), rest)) : rest = ts := by
  induction ps with
  | nil =>
    cases h
    rfl
  | cons p ps ih =>
    rw [firstOf, run] at h
    split at h
    · cases h
    · exact ih h
    · cases h

theorem run_oneOf_failed {σ : Strategy} {fuel : Nat} {forms : List Form} {ts rest : List Located}
    (h : (Production.oneOf forms).run σ fuel ts = (.failed (), rest)) : rest = ts := by
  cases fuel with
  | zero => cases h
  | succ fuel => exact run_firstOf_failed h

/-- The forms before a definition are called and not attempted. They may be,
since they put the cursor back themselves. -/
theorem run_topStatement_failed {σ : Strategy} {fuel : Nat} {ts rest : List Located}
    (h : Production.topStatement.run σ fuel ts = (.failed (), rest)) : rest = ts := by
  cases fuel with
  | zero => cases h
  | succ fuel =>
    rw [Production.run, Production.routine, run] at h
    split at h
    · cases h
    next mid hearly =>
      obtain rfl := run_oneOf_failed hearly
      dsimp only at h
      rw [run] at h
      split at h
      · cases h
      · dsimp only at h
        rw [Routine.read, run] at h
        split at h
        · cases h
        next hlate =>
          cases h
          exact run_oneOf_failed hlate
        · cases h
      · cases h
    · cases h

end Script.Cursor
