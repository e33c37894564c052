import Script.Proofs.Cursor.Outcomes

/-!
# Reading with enough fuel

With enough fuel every production has a result, and more fuel gives the same.
Programs, statements and blocks have the result that the running reader gives,
in whatever order the forms of a statement are tried, and whether or not a call
retreats.
-/

set_option autoImplicit false

namespace Script.Cursor
open Parsing Routine

def Production.result (σ : Strategy) {α : Type} (p : Production α) (ts : List Located) :
    Result α :=
  p.run σ (p.cost ts) ts

def settled {α : Type} (ts : List Located) : Option (α × List Located) → Result α
  | some (a, rest) => (.done a, rest)
  | none => (.failed (), ts)

section
variable {σ : Strategy} {α : Type} {p : Production α} {ts rest : List Located}

theorem result_orderly (σ : Strategy) (p : Production α) (ts : List Located) :
    Orderly p.advances ts (p.result σ ts) :=
  run_orderly σ (p.cost ts) p ts (Nat.le_refl _)

theorem run_eq_result {fuel : Nat} (h : p.cost ts ≤ fuel) : p.run σ fuel ts = p.result σ ts :=
  run_of_le σ h p ts (result_orderly σ p ts).ends

theorem result_eq_run {fuel : Nat} (h : (p.run σ fuel ts).1 ≠ .exhausted) :
    p.result σ ts = p.run σ fuel ts := by
  obtain hle | hle := Nat.le_total (p.cost ts) fuel
  · exact (run_eq_result hle).symm
  · exact run_of_le σ hle p ts h

theorem result_eq (σ : Strategy) (p : Production α) (ts : List Located) :
    p.result σ ts = (p.routine σ).run (fun q => q.result σ) ts :=
  (Routine.run_mono (fun _ _ => result_eq_run) (p.routine σ) ts (result_orderly σ p ts).ends).symm

theorem result_eq_done_iff (hp : p.wavers σ = false) {a : α} :
    p.result σ ts = (.done a, rest) ↔ p.reading ts = some (a, rest) := by
  have hmeets : Meets false (p.reading ts) (p.result σ ts) := hp ▸ run_meets σ (p.cost ts) p ts
  have hends := (result_orderly σ p ts).ends
  cases hresult : p.result σ ts with
  | mk outcome mid =>
    rw [hresult] at hmeets hends
    cases outcome with
    | done b =>
      rw [show p.reading ts = some (b, mid) from hmeets]
      simp
    | failed _ => simp [MayFail.eq_none hmeets]
    | exhausted => exact absurd rfl hends

theorem result_of_restores (hp : p.wavers σ = false) (hrestores : p.restores = true) :
    p.result σ ts = settled ts (p.reading ts) := by
  cases hreading : p.reading ts with
  | some x => exact (result_eq_done_iff hp).2 hreading
  | none =>
    have hends := (result_orderly σ p ts).ends
    cases hresult : p.result σ ts with
    | mk outcome rest =>
      rw [hresult] at hends
      cases outcome with
      | done a => exact nomatch hreading.symm.trans ((result_eq_done_iff hp).1 hresult)
      | failed _ => rw [restores_of_failed hrestores hresult, settled]
      | exhausted => exact absurd rfl hends

theorem result_oneOf (σ : Strategy) (forms : List Form) (ts : List Located) :
    (Production.oneOf forms).result σ ts =
      settled ts ((forms.findSome? (·.read ts)).map Parsed.both) :=
  result_of_restores rfl rfl

theorem result_anywhere (σ : Strategy) (ts : List Located) :
    (Production.oneOf σ.anywhere).result σ ts = settled ts ((statement ts).map Parsed.both) := by
  rw [result_oneOf, statement_eq_of_anywhere σ]

theorem result_topStatement (σ : Strategy) (ts : List Located) :
    Production.topStatement.result σ ts =
      settled ts ((Parsing.topStatement ts).map Parsed.both) :=
  result_of_restores rfl rfl

theorem result_program (σ : Strategy) (ts : List Located) :
    Production.program.result σ ts = (.done (topStatements ts), leftOver ts) :=
  (result_eq_done_iff rfl).2 rfl

/-- The statements of a block stop at the same token under all strategies, even
if they fail. -/
theorem result_statements (σ τ : Strategy) (ts : List Located) :
    Production.statements.result σ ts = Production.statements.result τ ts := by
  rw [result_eq, result_eq]
  cases ts with
  | nil => rfl
  | cons t mid =>
    by_cases ht : t.token = .rightBrace
    · simp only [Production.routine, run, List.head?_cons, ht, if_true]
      rfl
    · simp only [Production.routine, run, List.head?_cons, ht, if_false, Routine.read,
        result_anywhere]
      cases hs : statement (t :: mid) with
      | none => rfl
      | some p =>
        simp only [Option.map_some, settled, Parsed.both]
        rw [result_statements σ τ p.rest]
termination_by ts.length
decreasing_by exact p.shorter

theorem result_block (σ τ : Strategy) (ts : List Located) :
    Production.block.result σ ts = Production.block.result τ ts := by
  rw [result_eq, result_eq]
  simp only [Production.routine, expect, Routine.read, run]
  split
  · split
    · simp only [run, result_statements σ τ]
    · rfl
  · rfl

end

/-- Every production ends on every list of tokens, and more fuel than is enough
gives the same. What it leaves is the end of what it was given, and one that
succeeds has taken a token, unless it is a loop that may end before its first
round. It reads what the running reader reads, and a statement that does not
read leaves the cursor where it was. -/
theorem reading_always_ends {α : Type} (p : Production α) (ts : List Located) :
    (∀ more, p.run .standard (p.cost ts + more) ts = p.result .standard ts) ∧
    (p.result .standard ts).1 ≠ .exhausted ∧
    (∃ used, ts = used ++ (p.result .standard ts).2) ∧
    (p.advances = true → ∀ a rest, p.result .standard ts = (.done a, rest) →
      ∃ t used, ts = t :: used ++ rest) ∧
    (p.restores = true → ∀ rest, p.result .standard ts = (.failed (), rest) → rest = ts) ∧
    (∀ a rest, p.result .standard ts = (.done a, rest) ↔ p.reading ts = some (a, rest)) := by
  have horderly := result_orderly .standard p ts
  have hexact : p.wavers .standard = false := by cases p <;> rfl
  refine ⟨fun more => run_eq_result (Nat.le_add_right _ _), horderly.ends, ?_, ?_,
    fun hp rest => restores_of_failed hp, fun a rest => result_eq_done_iff hexact⟩
  · obtain ⟨used, hused⟩ := horderly.suffix
    exact ⟨used, hused.symm⟩
  · intro hp a rest hdone
    rw [hdone] at horderly
    obtain ⟨used, rfl⟩ := horderly.suffix
    cases used with
    | nil => exact absurd (horderly.shorter hp a rfl) (Nat.lt_irrefl _)
    | cons t used => exact ⟨t, used, rfl⟩

/-- No choice decides what is read. Of the forms of a statement one at most
reads, so their order does not count. A program, a statement at the top of it or
anywhere, and a block come to the same whatever the order, and whether or not a
call goes back to the name where its arguments do not read. -/
theorem choices_never_decide (ts : List Located) :
    (∀ f g : Form, f.read ts ≠ none → g.read ts ≠ none → f = g) ∧
    (∀ forms : List Form, (∀ f, f ∈ forms) →
      forms.findSome? (·.read ts) = Parsing.topStatement ts) ∧
    ∀ σ : Strategy,
      (∃ statements, Production.program.result σ ts = (.done statements, leftOver ts) ∧
        parse ts = statements.map Source.mk) ∧
      Production.topStatement.result σ ts =
        settled ts ((Parsing.topStatement ts).map Parsed.both) ∧
      (Production.oneOf σ.anywhere).result σ ts = settled ts ((statement ts).map Parsed.both) ∧
      Production.block.result σ ts = Production.block.result .standard ts ∧
      ∀ body rest, Production.block.result σ ts = (.done body, rest) ↔
        Reads (Parsing.block ts) body rest := by
  refine ⟨fun f g hf hg => (Form.eq_predicted hf).trans (Form.eq_predicted hg).symm, ?_, ?_⟩
  · intro forms hforms
    rw [Form.topStatement_eq_findSome?]
    exact Form.findSome?_read_congr fun f => iff_of_true (hforms f) (Form.mem_all f)
  · intro σ
    refine ⟨⟨topStatements ts, result_program σ ts, ?_⟩, result_topStatement σ ts,
      result_anywhere σ ts, result_block σ .standard ts, fun body rest => ?_⟩
    · rw [parse]
      cases topStatements ts <;> rfl
    · rw [result_eq_done_iff rfl, Production.reading_block_iff]

/-! An expression by itself does depend on the choice. -/

example :
    (Production.chain .comparison).result .standard
        [⟨.ident "f", 1⟩, ⟨.leftParen, 1⟩, ⟨.int 1, 1⟩, ⟨.semicolon, 1⟩] =
      (.done (.variable "f"), [⟨.leftParen, 1⟩, ⟨.int 1, 1⟩, ⟨.semicolon, 1⟩]) :=
  rfl

example :
    (Production.chain .comparison).result .predicting
        [⟨.ident "f", 1⟩, ⟨.leftParen, 1⟩, ⟨.int 1, 1⟩, ⟨.semicolon, 1⟩] =
      (.failed (), []) :=
  rfl

end Script.Cursor
