import Script.Proofs.Grammar.Acceptance

/-!
# The forms of a statement

A statement has five forms, a definition among them. The first two tokens tell
them apart: whatever the tokens, no form but the one that they predict can be
read. So the forms may be tried in any order, or none but one may be tried.
-/

set_option autoImplicit false

namespace Script

inductive Form where
  | expression
  | assignment
  | branch
  | loop
  | definition
  deriving DecidableEq

namespace Form
open Parsing Grammar

def all : List Form :=
  [.expression, .assignment, .branch, .loop, .definition]

theorem mem_all (form : Form) : form ∈ all := by
  cases form <;> decide

def read (form : Form) (ts : List Located) : Option (Parsed Statement ts) :=
  match form with
  | .expression => expressionStatement ts
  | .assignment => Parsing.assignment ts
  | .branch => Parsing.branch ts
  | .loop => Parsing.loop ts
  | .definition => Parsing.definition ts

def predicted : List Located → Form
  | ⟨.ident _, _⟩ :: ⟨.assign, _⟩ :: _ => .assignment
  | ⟨.ifWord, _⟩ :: _ => .branch
  | ⟨.whileWord, _⟩ :: _ => .loop
  | ⟨.defWord, _⟩ :: _ => .definition
  | _ => .expression

theorem eq_predicted_of_reads {form : Form} {ts rest : List Located} {s : Statement}
    (h : Reads (form.read ts) s rest) : form = predicted ts := by
  cases form with
  | expression =>
    have hread : expressionStatement ts ≠ none := by
      intro hnone
      rw [read, hnone] at h
      exact not_reads_none h
    unfold predicted
    split
    · exact absurd expressionStatement_eq_none_of_assign hread
    · exact absurd (expressionStatement_eq_none rfl) hread
    · exact absurd (expressionStatement_eq_none rfl) hread
    · exact absurd (expressionStatement_eq_none rfl) hread
    · rfl
  | assignment =>
    obtain ⟨_, _, _, _, _, ⟨_, rfl⟩, ⟨_, rfl⟩, _⟩ := reads_assignment.1 h
    rfl
  | branch =>
    obtain ⟨_, _, _, _, _, _, ⟨_, rfl⟩, _⟩ := reads_branch.1 h
    rfl
  | loop =>
    obtain ⟨_, _, _, _, ⟨_, rfl⟩, _⟩ := reads_loop.1 h
    rfl
  | definition =>
    obtain ⟨_, _, _, _, _, _, _, ⟨_, rfl⟩, _⟩ := reads_definition.1 h
    rfl

variable {ts : List Located}

theorem eq_predicted {form : Form} (h : form.read ts ≠ none) : form = predicted ts := by
  obtain ⟨p, hp⟩ := Option.ne_none_iff_exists'.1 h
  exact eq_predicted_of_reads ⟨p.shorter, hp⟩

/-- The forms that are tried count, and not their order. -/
theorem findSome?_read {forms : List Form} (h : predicted ts ∈ forms) :
    forms.findSome? (·.read ts) = (predicted ts).read ts := by
  cases hfound : forms.findSome? (·.read ts) with
  | none => exact (List.findSome?_eq_none_iff.1 hfound _ h).symm
  | some p =>
    obtain ⟨form, _, hform⟩ := List.exists_of_findSome?_eq_some hfound
    rw [← eq_predicted (hform ▸ Option.some_ne_none p), hform]

theorem findSome?_read_eq_none {forms : List Form} (h : predicted ts ∉ forms) :
    forms.findSome? (·.read ts) = none := by
  refine List.findSome?_eq_none_iff.2 fun form hform => Option.eq_none_iff_forall_ne_some.2 ?_
  intro p hp
  exact h (eq_predicted (hp ▸ Option.some_ne_none p) ▸ hform)

theorem findSome?_read_congr {forms forms' : List Form} (h : ∀ form, form ∈ forms ↔ form ∈ forms') :
    forms.findSome? (·.read ts) = forms'.findSome? (·.read ts) := by
  by_cases hmem : predicted ts ∈ forms
  · rw [findSome?_read hmem, findSome?_read ((h _).1 hmem)]
  · rw [findSome?_read_eq_none hmem, findSome?_read_eq_none (mt (h _).2 hmem)]

theorem statement_eq_findSome? (ts : List Located) :
    statement ts = (all.filter (· != .definition)).findSome? (·.read ts) := by
  rw [statement]
  show _ = [expression, assignment, branch, loop].findSome? (·.read ts)
  simp only [List.findSome?_cons, List.findSome?_nil, read]
  cases expressionStatement ts <;> cases Parsing.assignment ts <;> cases Parsing.branch ts <;>
    cases Parsing.loop ts <;> rfl

theorem topStatement_eq_findSome? (ts : List Located) :
    topStatement ts = all.findSome? (·.read ts) := by
  have hsplit : all = all.filter (· != .definition) ++ [.definition] := rfl
  rw [topStatement, hsplit, List.findSome?_append, ← statement_eq_findSome?]
  cases statement ts with
  | some p => rfl
  | none =>
    simp only [List.findSome?_cons, List.findSome?_nil, read]
    cases Parsing.definition ts <;> rfl

end Form
end Script
