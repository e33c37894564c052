import Script.Proofs.Grammar.Rejection
import Script.Proofs.Joining
import Script.Proofs.Lexicon.Division

/-!
# Lines

A piece moves on as many lines as it has newlines, be it a newline by itself,
a comment or a string, and only an unknown token hides the newlines that it
has. So the line of a token is that of the place where it starts, less what
the unknown tokens before it hide. Up to the first of them nothing is hidden,
and a text with one of them is not run. The line in a failure is thus always
the line in the text.
-/

set_option autoImplicit false

namespace Script

namespace Piece

theorem located_eq_append {line : Nat} {ps : List Piece} {earlier later : List Located}
    {t : Located} (h : located line ps = earlier ++ t :: later) :
    ∃ before σ after, ps = before ++ .lexeme t.token σ :: after ∧
      before.filterMap token? = earlier.map Located.token ∧ t.line = line + allLines before := by
  induction ps generalizing line earlier with
  | nil => simp [located] at h
  | cons p ps ih =>
    have hlines (before : List Piece) : allLines (p :: before) = p.lines + allLines before := rfl
    cases p with
    | gap text =>
      obtain ⟨before, σ, after, rfl, htokens, hline⟩ := ih h
      refine ⟨.gap text :: before, σ, after, rfl, htokens, ?_⟩
      rw [hline, hlines, Nat.add_assoc]
    | lexeme token σ =>
      cases earlier with
      | nil =>
        obtain ⟨rfl, rfl⟩ := List.cons.inj h
        exact ⟨[], σ, ps, rfl, rfl, rfl⟩
      | cons u earlier =>
        obtain ⟨rfl, hmore⟩ := List.cons.inj h
        obtain ⟨before, τ, after, rfl, htokens, hline⟩ := ih hmore
        refine ⟨.lexeme token σ :: before, τ, after, rfl, ?_, ?_⟩
        · rw [List.filterMap_cons, token?, htokens, List.map_cons]
        · rw [hline, hlines, Nat.add_assoc]

end Piece

namespace Lexicon
open Piece

variable {text : List Char} {pieces before : List Piece} {t : Token} {σ : List Char} {p : Nat}

theorem Divides.flatMap_text (h : Divides text pieces) : pieces.flatMap Piece.text = text := by
  rw [h.eq_all, flatMap_text_all]

theorem First.eq_toList_of_unknown {word : String} {rest : List Char}
    (h : First text (.lexeme (.unknown word) σ) rest) : σ = word.toList := by
  cases h with
  | ruled hd hm =>
    cases hm with
    | tooLarge => exact String.toList_ofList.symm
    | kept =>
      cases hd.allows with
      | kept hmem => simp [keptWords] at hmem
    | mark =>
      cases hd.allows with
      | mark hmem => simp [marks] at hmem
  | openString => exact String.toList_ofList.symm
  | stray => simp

theorem Divides.eq_toList_of_unknown {word : String} (h : Divides text pieces)
    (hmem : .lexeme (.unknown word) σ ∈ pieces) : σ = word.toList := by
  induction h with
  | nil => cases hmem
  | cons hfirst _ ih =>
    obtain rfl | hmem := List.mem_cons.1 hmem
    · exact hfirst.eq_toList_of_unknown
    · exact ih hmem

/-- In the division of a text, the lexeme of a token starts at a place, after
some pieces. -/
structure StartsAt (text : List Char) (p : Nat) (before : List Piece) (t : Token)
    (σ : List Char) : Prop where
  divides : ∃ after, Divides text (before ++ .lexeme t σ :: after)
  place : p = (before.flatMap Piece.text).length

theorem StartsAt.take_eq (h : StartsAt text p before t σ) :
    text.take p = before.flatMap Piece.text := by
  obtain ⟨⟨after, hdivides⟩, rfl⟩ := h
  rw [← hdivides.flatMap_text, List.flatMap_append, List.take_left]

theorem exists_startsAt {source : String} {earlier later : List Located} {t : Located}
    (h : tokenize source = earlier ++ t :: later) :
    ∃ p before σ, StartsAt source.toList p before t.token σ ∧
      before.filterMap token? = earlier.map Located.token ∧
      t.line + hiddenLines before = 1 + (source.toList.take p).count '\n' := by
  obtain ⟨before, σ, after, hpieces, htokens, hline⟩ := located_eq_append h
  have hdivides := divides_all source.toList
  rw [hpieces] at hdivides
  have hstarts : StartsAt source.toList _ before t.token σ := ⟨⟨after, hdivides⟩, rfl⟩
  refine ⟨_, before, σ, hstarts, htokens, ?_⟩
  rw [hstarts.take_eq, hline, ← allLines_add_hiddenLines]
  omega

theorem StartsAt.eq_toList_of_unknown {word : String}
    (h : StartsAt text p before (.unknown word) σ) : σ = word.toList := by
  obtain ⟨after, hdivides⟩ := h.divides
  exact hdivides.eq_toList_of_unknown (List.mem_append_right _ List.mem_cons_self)

theorem eq_of_known {earlier : List Located} {line lineAbove : Nat}
    (htokens : before.filterMap token? = earlier.map Located.token)
    (hknown : ∀ u ∈ earlier, ∀ word, u.token ≠ .unknown word)
    (hline : line + hiddenLines before = lineAbove) : line = lineAbove := by
  rw [← hline, hiddenLines_eq_zero (not_unknown_of_tokens htokens hknown), Nat.add_zero]

end Lexicon

/-! ### Failures of reading -/

theorem firstUnknown?_eq_some {ts : List Located} {word : String} {line : Nat}
    (h : firstUnknown? ts = some (word, line)) :
    ∃ earlier later, ts = earlier ++ ⟨.unknown word, line⟩ :: later ∧
      ∀ u ∈ earlier, ∀ word', u.token ≠ .unknown word' := by
  induction ts with
  | nil => cases h
  | cons t ts ih =>
    obtain ⟨token, line'⟩ := t
    cases token with
    | unknown word' =>
      cases h
      exact ⟨[], ts, rfl, nofun⟩
    | _ =>
      obtain ⟨earlier, later, rfl, hknown⟩ := ih h
      exact ⟨_ :: earlier, later, rfl, List.forall_mem_cons.2 ⟨nofun, hknown⟩⟩

theorem Runs.read_of_failed {text : String} {env : Environment} {f : Failure}
    {before trace : Trace} (h : Runs text env before (.failed f) trace)
    (hf : ∀ e, f ≠ .evaluation e) : read text = .error f := by
  cases hread : read text with
  | error e =>
    obtain ⟨he, _⟩ := (runs_of_read_error hread).1 h
    cases he
    rfl
  | ok s =>
    obtain ⟨o, ho, _⟩ := (runs_of_read hread).1 h
    cases o with
    | failed e =>
      cases ho
      exact absurd rfl (hf e)
    | done p => cases ho
    | exhausted => cases ho

theorem firstUnknown?_of_read {text word : String} {line : Nat}
    (h : read text = .error (.unknownText word line)) :
    firstUnknown? (tokenize text) = some (word, line) := by
  rw [read_eq] at h
  cases hu : firstUnknown? (tokenize text) with
  | some found =>
    rw [hu] at h
    cases h
    rfl
  | none =>
    rw [hu] at h
    cases hp : parse (tokenize text) <;> rw [hp] at h <;> cases h

theorem parse_of_read {text : String} {found : Located}
    (h : read text = .error (.unexpectedToken found)) :
    firstUnknown? (tokenize text) = none ∧ parse (tokenize text) = .error found := by
  rw [read_eq] at h
  cases hu : firstUnknown? (tokenize text) with
  | some unknown =>
    rw [hu] at h
    cases h
  | none =>
    rw [hu] at h
    cases hp : parse (tokenize text) with
    | ok s =>
      rw [hp] at h
      cases h
    | error found' =>
      rw [hp] at h
      cases h
      exact ⟨rfl, rfl⟩

open Lexicon in
/-- Lines are exact. The line of a token is one more than the newlines above
the place where it starts, less those that unknown tokens before it hide. So
the tokens up to the first unknown one, and that one too, have the line on
which they stand. A failure to read a text has the line on which the first
unknown word of the text starts, or the first token of the statement that
cannot be read. -/
theorem lines_are_exact (source : String) :
    (∀ earlier t later, tokenize source = earlier ++ t :: later →
      ∃ p before σ, StartsAt source.toList p before t.token σ ∧
        before.filterMap Piece.token? = earlier.map Located.token ∧
        t.line + Piece.hiddenLines before = 1 + (source.toList.take p).count '\n' ∧
        ((∀ u ∈ earlier, ∀ word, u.token ≠ .unknown word) →
          t.line = 1 + (source.toList.take p).count '\n')) ∧
    (∀ env word line past trace, Runs source env past (.failed (.unknownText word line)) trace →
      ∃ p before, StartsAt source.toList p before (.unknown word) word.toList ∧
        (∀ word' σ, .lexeme (.unknown word') σ ∉ before) ∧
        line = 1 + (source.toList.take p).count '\n') ∧
    ∀ env found past trace, Runs source env past (.failed (.unexpectedToken found)) trace →
      ∃ earlier later p before σ, Grammar.StopsAt (tokenize source) earlier found later ∧
        StartsAt source.toList p before found.token σ ∧
        before.filterMap Piece.token? = earlier.map Located.token ∧
        found.line = 1 + (source.toList.take p).count '\n' := by
  refine ⟨fun earlier t later h => ?_, fun env word line past trace hrun => ?_,
    fun env found past trace hrun => ?_⟩
  · obtain ⟨p, before, σ, hstarts, htokens, hline⟩ := exists_startsAt h
    refine ⟨p, before, σ, hstarts, htokens, hline, fun hknown => ?_⟩
    exact eq_of_known htokens hknown hline
  · have hunknown := firstUnknown?_of_read (hrun.read_of_failed nofun)
    obtain ⟨earlier, later, htext, hknown⟩ := firstUnknown?_eq_some hunknown
    obtain ⟨p, before, σ, hstarts, htokens, hline⟩ := exists_startsAt htext
    obtain rfl := hstarts.eq_toList_of_unknown
    refine ⟨p, before, hstarts, Piece.not_unknown_of_tokens htokens hknown, ?_⟩
    exact eq_of_known htokens hknown hline
  · obtain ⟨hunknown, hparse⟩ := parse_of_read (hrun.read_of_failed nofun)
    obtain ⟨earlier, later, hstop⟩ := (Grammar.topStatements_eq_error_iff _ _).1
      (Grammar.parse_eq_error_iff.1 hparse)
    obtain ⟨p, before, σ, hstarts, htokens, hline⟩ := exists_startsAt hstop.split
    have hknown : ∀ u ∈ earlier, ∀ word, u.token ≠ .unknown word := by
      intro u hu
      apply firstUnknown?_eq_none_iff.1 hunknown
      rw [hstop.split]
      exact List.mem_append_left _ hu
    refine ⟨earlier, later, p, before, σ, hstop, hstarts, htokens, ?_⟩
    exact eq_of_known htokens hknown hline

open Lexicon in
theorem lines_are_exact_below_comment :
    Runs "x;\n/* a\nb */ y = ;" .empty [] (.failed (.unexpectedToken ⟨.ident "y", 3⟩)) [] ∧
      ∃ earlier later p before σ,
        Grammar.StopsAt (tokenize "x;\n/* a\nb */ y = ;") earlier ⟨.ident "y", 3⟩ later ∧
        StartsAt "x;\n/* a\nb */ y = ;".toList p before (.ident "y") σ ∧
        before.filterMap Piece.token? = earlier.map Located.token ∧
        3 = 1 + ("x;\n/* a\nb */ y = ;".toList.take p).count '\n' := by
  have hread : read "x;\n/* a\nb */ y = ;" = .error (.unexpectedToken ⟨.ident "y", 3⟩) := by
    cbv
  have hrun : Runs "x;\n/* a\nb */ y = ;" .empty []
      (.failed (.unexpectedToken ⟨.ident "y", 3⟩)) [] :=
    (runs_of_read_error hread).2 ⟨rfl, rfl⟩
  exact ⟨hrun, (lines_are_exact _).2.2 _ _ _ _ hrun⟩

/-- A string that cannot go on after a backslash hides its newline from the
tokens after it. -/
example : (tokenize "\"a\nb\\\n;x").map Located.line = [1, 1, 2, 2] := by
  cbv

end Script
