import Script.Proofs.Grammar.Acceptance

/-!
# Where reading stops

A statement at the head of some tokens is complete if the grammar gives it
and no `else` comes after it that would belong to it. Only one statement at
the head can be complete, and that one is read. So reading goes on over
complete statements and stops at the first token of which no complete
statement starts. There is one such place at most, and a program is read if
there is none.
-/

set_option autoImplicit false

namespace Script.Grammar
open Parsing

/-- The tokens are a statement that ends before the rest: an `if` without a
last `else` does not end before an `else`. -/
def Complete (us rest : List Located) : Prop :=
  ∃ d s, TopClause d (kinds us) s ∧ Ends d rest

inductive AllComplete (rest : List Located) : List Located → Prop where
  | nil : AllComplete rest []
  | cons {us vs : List Located} : Complete us (vs ++ rest) → AllComplete rest vs →
      AllComplete rest (us ++ vs)

/-- Complete statements come first, and none starts at the token after them. -/
structure StopsAt (ts before : List Located) (found : Located) (rest : List Located) : Prop where
  split : ts = before ++ found :: rest
  complete : AllComplete (found :: rest) before
  stuck : ∀ us vs, found :: rest = us ++ vs → ¬ Complete us vs

variable {ts us vs rest rest' before : List Located} {found : Located}

theorem complete_iff_reads :
    Complete us rest ↔ ∃ s, Reads (topStatement (us ++ rest)) s rest := by
  constructor
  · rintro ⟨d, s, hs, hends⟩
    exact ⟨s, topStatement_complete hs rfl hends⟩
  · rintro ⟨s, h⟩
    obtain ⟨d, us', hus, hs, hends⟩ := topStatement_sound h
    rw [List.append_cancel_right hus]
    exact ⟨d, s, hs, hends⟩

theorem Complete.unique (h : Complete us rest) (h' : Complete vs rest')
    (hts : us ++ rest = vs ++ rest') : us = vs ∧ rest = rest' := by
  obtain ⟨s, hs⟩ := complete_iff_reads.1 h
  obtain ⟨s', hs'⟩ := complete_iff_reads.1 h'
  rw [← hts] at hs'
  obtain ⟨_, rfl⟩ := hs.unique hs'
  exact ⟨List.append_cancel_right hts, rfl⟩

theorem topStatement_eq_none_iff :
    topStatement ts = none ↔ ∀ us vs, ts = us ++ vs → ¬ Complete us vs := by
  constructor
  · rintro h us vs rfl hc
    obtain ⟨s, hs⟩ := complete_iff_reads.1 hc
    rw [h] at hs
    exact not_reads_none hs
  · intro h
    apply eq_none_of_not_reads
    intro s rest hs
    obtain ⟨d, us, rfl, hu, hends⟩ := topStatement_sound hs
    exact h us rest rfl ⟨d, s, hu, hends⟩

/-! ### The place where reading stops -/

theorem stopsAt_head (h : topStatement (found :: rest) = none) :
    StopsAt (found :: rest) [] found rest :=
  ⟨rfl, .nil, topStatement_eq_none_iff.1 h⟩

theorem not_stopsAt_nil : ¬ StopsAt [] before found rest := by
  intro h
  simpa using h.split

theorem stopsAt_append_iff (h : Complete us vs) :
    StopsAt (us ++ vs) before found rest ↔
      ∃ more, before = us ++ more ∧ StopsAt vs more found rest := by
  constructor
  · rintro ⟨hsplit, hcomplete, hstuck⟩
    cases hcomplete with
    | nil => exact absurd h (hstuck us vs hsplit.symm)
    | @cons us' more hc hmore =>
      rw [List.append_assoc] at hsplit
      obtain ⟨rfl, rfl⟩ := h.unique hc hsplit
      exact ⟨more, rfl, rfl, hmore, hstuck⟩
  · rintro ⟨more, rfl, rfl, hcomplete, hstuck⟩
    exact ⟨(List.append_assoc ..).symm, .cons h hcomplete, hstuck⟩

theorem StopsAt.unique {before' : List Located} {found' : Located}
    (h : StopsAt ts before found rest) (h' : StopsAt ts before' found' rest') :
    before = before' ∧ found = found' ∧ rest = rest' := by
  obtain ⟨rfl, hcomplete, hstuck⟩ := h
  induction hcomplete generalizing before' with
  | nil =>
    obtain ⟨hsplit, hcomplete', _⟩ := h'
    cases hcomplete' with
    | nil =>
      obtain ⟨rfl, rfl⟩ := List.cons.inj hsplit
      exact ⟨rfl, rfl, rfl⟩
    | cons hc _ =>
      rw [List.append_assoc] at hsplit
      exact absurd hc (hstuck _ _ hsplit)
  | cons hc _ ih =>
    rw [List.append_assoc] at h'
    obtain ⟨more, rfl, hmore⟩ := (stopsAt_append_iff hc).1 h'
    obtain ⟨rfl, hfound⟩ := ih hmore
    exact ⟨rfl, hfound⟩

theorem map_eq_error_iff {ε α β : Type} {f : α → β} {x : Except ε α} {e : ε} :
    x.map f = .error e ↔ x = .error e := by
  cases x <;> simp [Except.map]

/-- The induction is on the length of what is left to read. -/
theorem topStatements_eq_error_iff (ts : List Located) (found : Located) :
    topStatements ts = .error found ↔ ∃ before rest, StopsAt ts before found rest := by
  match ts with
  | [] =>
    rw [topStatements]
    simp [not_stopsAt_nil]
  | t :: tail =>
    cases hp : topStatement (t :: tail) with
    | none =>
      have hstop := stopsAt_head hp
      rw [topStatements, hp]
      constructor
      · rintro ⟨⟩
        exact ⟨[], tail, hstop⟩
      · rintro ⟨before, rest, h⟩
        obtain ⟨_, rfl, _⟩ := hstop.unique h
        rfl
    | some p =>
      obtain ⟨s, mid, hr⟩ : ∃ s mid, Reads (topStatement (t :: tail)) s mid :=
        ⟨p.node, p.rest, p.shorter, hp⟩
      have hshorter := hr.shorter
      obtain ⟨d, us, hts, hs, hends⟩ := topStatement_sound hr
      have hc : Complete us mid := ⟨d, s, hs, hends⟩
      rw [topStatements_of_reads hr, map_eq_error_iff, topStatements_eq_error_iff mid, hts]
      simp only [stopsAt_append_iff hc]
      constructor
      · rintro ⟨before, rest, h⟩
        exact ⟨us ++ before, rest, before, rfl, h⟩
      · rintro ⟨_, rest, before, _, h⟩
        exact ⟨before, rest, h⟩
termination_by ts.length
decreasing_by exact hshorter

theorem parse_eq_error_iff :
    parse ts = .error found ↔ topStatements ts = .error found := by
  unfold parse
  cases topStatements ts <;> simp

/-- Reading fails with a token exactly if complete statements come before it
and no complete statement starts at it. No list of tokens can be split so in
two ways, and one that cannot be split so is read. -/
theorem parse_eq_error_iff_stopsAt (ts : List Located) :
    (∀ found, parse ts = .error found ↔ ∃ before rest, StopsAt ts before found rest) ∧
    (∀ before before' found found' rest rest', StopsAt ts before found rest →
      StopsAt ts before' found' rest' → before = before' ∧ found = found' ∧ rest = rest') ∧
    ((¬ ∃ before found rest, StopsAt ts before found rest) → ∃ s, parse ts = .ok s) := by
  have herror (found : Located) :
      parse ts = .error found ↔ ∃ before rest, StopsAt ts before found rest :=
    parse_eq_error_iff.trans (topStatements_eq_error_iff ts found)
  refine ⟨herror, fun _ _ _ _ _ _ => StopsAt.unique, fun h => ?_⟩
  cases hp : parse ts with
  | ok s => exact ⟨s, rfl⟩
  | error found =>
    obtain ⟨before, rest, hstop⟩ := (herror found).1 hp
    exact absurd ⟨before, found, rest, hstop⟩ h

end Script.Grammar
