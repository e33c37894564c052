import Mathlib
import Script.Execution
import Script.Proofs.Ending
import Script.Proofs.Grammar.Acceptance
import Script.Proofs.Spelling
import Script.Proofs.Uniform

/-!
# Two texts run as one

A text that runs and leaves no comment open can be followed by a newline and
another text. The tokens of the second are moved down by the lines of the
first and by the newline, and are otherwise as they were. What was read of the
first text stays as it is unless the second starts with an `else`. So running
both is running the second where the first has ended. If the host functions are
stateless, that is running the second by itself.
-/

set_option autoImplicit false

namespace Script

def Located.down (lines : Nat) (t : Located) : Located :=
  { t with line := t.line + lines }

def Failure.down (lines : Nat) : Failure → Failure
  | .unknownText text line => .unknownText text (line + lines)
  | .unexpectedToken found => .unexpectedToken (found.down lines)
  | .evaluation e => .evaluation e

/-! ### Tokens -/

namespace Piece

def allLines (pieces : List Piece) : Nat :=
  (pieces.map lines).sum

theorem located_append (line : Nat) (ps qs : List Piece) :
    located line (ps ++ qs) = located line ps ++ located (line + allLines ps) qs := by
  induction ps generalizing line with
  | nil => rfl
  | cons p ps ih =>
    have hline : line + allLines (p :: ps) = line + p.lines + allLines ps := by
      simp [allLines, Nat.add_assoc]
    rw [hline]
    cases p with
    | gap text => exact ih _
    | lexeme t text => exact congrArg (_ :: ·) (ih _)

theorem located_down (line lines : Nat) (ps : List Piece) :
    located (line + lines) ps = (located line ps).map (Located.down lines) := by
  induction ps generalizing line with
  | nil => rfl
  | cons p ps ih =>
    cases p with
    | gap text =>
      rw [located, located, Nat.add_right_comm, ih]
    | lexeme t text =>
      rw [located, located, Nat.add_right_comm, ih]
      rfl

/-- The newlines inside the unknown tokens among pieces. They move nothing on. -/
def hiddenLines : List Piece → Nat
  | [] => 0
  | .lexeme (.unknown _) σ :: rest => σ.count '\n' + hiddenLines rest
  | _ :: rest => hiddenLines rest

theorem allLines_add_hiddenLines (ps : List Piece) :
    allLines ps + hiddenLines ps = (ps.flatMap Piece.text).count '\n' := by
  induction ps with
  | nil => rfl
  | cons p ps ih =>
    have hp : p.lines + hiddenLines (p :: ps) = p.text.count '\n' + hiddenLines ps := by
      cases p with
      | gap text => rfl
      | lexeme t σ =>
        cases t with
        | unknown word => exact Nat.zero_add _
        | _ => rfl
    have hsum : allLines (p :: ps) = p.lines + allLines ps := rfl
    rw [List.flatMap_cons, List.count_append]
    omega

theorem hiddenLines_eq_zero {ps : List Piece} (h : ∀ text σ, .lexeme (.unknown text) σ ∉ ps) :
    hiddenLines ps = 0 := by
  induction ps with
  | nil => rfl
  | cons p ps ih =>
    have ih := ih fun text σ hmem => h text σ (List.mem_cons_of_mem _ hmem)
    cases p with
    | gap text => exact ih
    | lexeme t σ =>
      cases t with
      | unknown word => exact absurd List.mem_cons_self (h word σ)
      | _ => exact ih

theorem allLines_eq_count {ps : List Piece}
    (h : ∀ text σ, .lexeme (.unknown text) σ ∉ ps) :
    allLines ps = (ps.flatMap Piece.text).count '\n' := by
  rw [← allLines_add_hiddenLines, hiddenLines_eq_zero h, Nat.add_zero]

end Piece

def LeavesNoCommentOpen (text : String) : Prop :=
  ∀ rest, .gap ('/' :: '*' :: rest) ∈ Piece.all text.toList → ['*', '/'] <:+ rest

theorem firstUnknown?_eq_none_iff {ts : List Located} :
    firstUnknown? ts = none ↔ ∀ t ∈ ts, ∀ text, t.token ≠ .unknown text := by
  induction ts with
  | nil => simp [firstUnknown?]
  | cons t ts ih =>
    obtain ⟨token, line⟩ := t
    cases token <;> simp [firstUnknown?, ih]

theorem firstUnknown?_append {ts us : List Located} (h : firstUnknown? ts = none) :
    firstUnknown? (ts ++ us) = firstUnknown? us := by
  induction ts with
  | nil => rfl
  | cons t ts ih =>
    obtain ⟨token, line⟩ := t
    cases token with
    | unknown text => cases h
    | _ => exact ih h

theorem firstUnknown?_down (lines : Nat) (ts : List Located) :
    firstUnknown? (ts.map (Located.down lines)) =
      (firstUnknown? ts).map fun (text, line) => (text, line + lines) := by
  induction ts with
  | nil => rfl
  | cons t ts ih =>
    obtain ⟨token, line⟩ := t
    cases token with
    | unknown text => rfl
    | _ => exact ih

theorem Piece.not_unknown_of_tokens {ps : List Piece} {ts : List Located}
    (htokens : ps.filterMap token? = ts.map Located.token)
    (h : ∀ t ∈ ts, ∀ word, t.token ≠ .unknown word) (word : String) (σ : List Char) :
    Piece.lexeme (.unknown word) σ ∉ ps := by
  intro hmem
  have htoken : Token.unknown word ∈ ps.filterMap token? := List.mem_filterMap.2 ⟨_, hmem, rfl⟩
  rw [htokens] at htoken
  obtain ⟨t, ht, hword⟩ := List.mem_map.1 htoken
  exact h t ht word hword

theorem not_mem_all_of_firstUnknown? {text : String} (h : firstUnknown? (tokenize text) = none)
    (word : String) (σ : List Char) :
    Piece.lexeme (.unknown word) σ ∉ Piece.all text.toList :=
  Piece.not_unknown_of_tokens (Piece.map_token_tokenize text).symm
    (firstUnknown?_eq_none_iff.1 h) word σ

def linesAbove (above : String) : Nat :=
  1 + above.toList.count '\n'

theorem tokenize_append_newline {a : String} (ha : firstUnknown? (tokenize a) = none)
    (hc : LeavesNoCommentOpen a) (b : String) :
    tokenize (a ++ "\n" ++ b) =
      tokenize a ++ (tokenize b).map (Located.down (linesAbove a)) := by
  have hunknown := not_mem_all_of_firstUnknown? ha
  have htext : (a ++ "\n" ++ b).toList = a.toList ++ '\n' :: b.toList := by
    simp [String.toList_append]
  have hlines : 1 + Piece.allLines (Piece.all a.toList) = linesAbove a := by
    rw [Piece.allLines_eq_count hunknown, Piece.flatMap_text_all, linesAbove]
  have hnext : Piece.located (linesAbove a) (.gap ['\n'] :: Piece.all b.toList) =
      Piece.located (1 + linesAbove a) (Piece.all b.toList) := by
    rw [Nat.add_comm]
    rfl
  rw [tokenize, htext, Piece.all_append_newline hunknown hc, Piece.located_append, hlines,
    hnext, Piece.located_down]
  rfl

/-! ### Trees -/

namespace Grammar
open Parsing

theorem kinds_down (lines : Nat) (ts : List Located) :
    kinds (ts.map (Located.down lines)) = kinds ts := by
  simp [kinds, Located.down, Function.comp_def]

theorem Ends.down {dangles : Bool} {rest : List Located} (h : Ends dangles rest) (lines : Nat) :
    Ends dangles (rest.map (Located.down lines)) := by
  rintro hd mid ⟨line, ht⟩
  cases rest with
  | nil => cases ht
  | cons t rest =>
    obtain ⟨token, line'⟩ := t
    cases ht
    exact h hd rest ⟨line', rfl⟩

theorem Ends.of_down {dangles : Bool} {rest : List Located} {lines : Nat}
    (h : Ends dangles (rest.map (Located.down lines))) : Ends dangles rest := by
  rintro hd mid ⟨line, rfl⟩
  exact h hd _ ⟨line + lines, rfl⟩

theorem reads_topStatement_down (lines : Nat) {ts : List Located} {s : Statement}
    {rest : List Located} (h : Reads (topStatement ts) s rest) :
    Reads (topStatement (ts.map (Located.down lines))) s (rest.map (Located.down lines)) := by
  obtain ⟨d, us, rfl, hs, hends⟩ := topStatement_sound h
  rw [List.map_append]
  exact topStatement_complete hs (kinds_down lines us) (hends.down lines)

theorem topStatement_down_eq_none (lines : Nat) {ts : List Located}
    (h : topStatement ts = none) : topStatement (ts.map (Located.down lines)) = none := by
  refine eq_none_of_not_reads fun s rest hr => ?_
  obtain ⟨d, us, hts, hs, hends⟩ := topStatement_sound hr
  obtain ⟨vs, ws, rfl, rfl, rfl⟩ := List.map_eq_append_iff.1 hts
  have hread := topStatement_complete hs (kinds_down lines vs).symm hends.of_down
  rw [h] at hread
  exact not_reads_none hread

theorem topStatements_down (lines : Nat) (ts : List Located) :
    topStatements (ts.map (Located.down lines)) =
      (topStatements ts).mapError (Located.down lines) := by
  match ts with
  | [] => rw [List.map_nil, topStatements]; rfl
  | t :: rest =>
    cases hp : topStatement (t :: rest) with
    | none =>
      have hdown := topStatement_down_eq_none lines hp
      rw [List.map_cons] at hdown ⊢
      rw [topStatements, hdown, topStatements, hp]
      rfl
    | some p =>
      have hr : Reads (topStatement (t :: rest)) p.node p.rest := ⟨p.shorter, hp⟩
      rw [topStatements_of_reads hr, topStatements_of_reads (reads_topStatement_down lines hr),
        topStatements_down lines p.rest]
      cases topStatements p.rest <;> rfl
termination_by ts.length
decreasing_by exact p.shorter

end Grammar

/-- What follows a program is read as it would be alone, if it does not start
with an `else`. -/
theorem parse_append_down {ts us : List Located} {s : Source} (h : parse ts = .ok s)
    (helse : ∀ t ∈ us.head?, t.token ≠ .elseWord) (lines : Nat) :
    parse (ts ++ us.map (Located.down lines)) =
      ((parse us).map fun s' => ⟨s.statements ++ s'.statements⟩).mapError
        (Located.down lines) := by
  have hends : Grammar.Ends true us := by
    rintro _ mid ⟨line, rfl⟩
    exact helse _ rfl rfl
  have hread := Grammar.topStatements_complete (Grammar.program_of_parse h) rfl
    (hends.down lines)
  rw [parse, hread, Grammar.topStatements_down, parse]
  cases Parsing.topStatements us <;> rfl

theorem read_eq (text : String) :
    read text = match firstUnknown? (tokenize text) with
      | some (word, line) => .error (.unknownText word line)
      | none => (parse (tokenize text)).mapError .unexpectedToken := by
  simp only [read, readTokens, checkTokens]
  cases firstUnknown? (tokenize text) with
  | some found => rfl
  | none =>
    dsimp only
    cases parse (tokenize text) <;> rfl

theorem read_eq_ok_iff {text : String} {s : Source} :
    read text = .ok s ↔ firstUnknown? (tokenize text) = none ∧ parse (tokenize text) = .ok s := by
  rw [read_eq]
  cases firstUnknown? (tokenize text) with
  | some found => simp
  | none => cases parse (tokenize text) <;> simp [Except.mapError]

theorem read_append_newline {a b : String} {s : Source} (ha : read a = .ok s)
    (hc : LeavesNoCommentOpen a) (helse : ∀ t ∈ (tokenize b).head?, t.token ≠ .elseWord) :
    read (a ++ "\n" ++ b) =
      ((read b).map fun s' => ⟨s.statements ++ s'.statements⟩).mapError
        (Failure.down (linesAbove a)) := by
  obtain ⟨hunknown, hparse⟩ := read_eq_ok_iff.1 ha
  rw [read_eq, tokenize_append_newline hunknown hc, firstUnknown?_append hunknown,
    firstUnknown?_down, parse_append_down hparse helse, read_eq]
  cases firstUnknown? (tokenize b) with
  | some found => rfl
  | none => cases parse (tokenize b) <;> rfl

/-! ### Runs -/

/-- After some events the text ends so if there is enough fuel, and adds what it
observes to them. -/
def Runs (text : String) (env : Environment) (before : Trace)
    (outcome : Outcome Failure (Value × Environment)) (trace : Trace) : Prop :=
  outcome ≠ .exhausted ∧ ∃ fuel, run fuel text env before = (outcome, trace ++ before)

section
variable {text : String} {env : Environment} {outcome : Outcome Failure (Value × Environment)}
  {before trace : Trace}
open Evaluation

theorem runs_of_read_error {e : Failure} (h : read text = .error e) :
    Runs text env before outcome trace ↔ outcome = .failed e ∧ trace = [] := by
  unfold Runs run
  rw [h]
  constructor
  · rintro ⟨_, _, hr⟩
    obtain ⟨rfl, htrace⟩ := Prod.mk.inj hr
    exact ⟨rfl, List.self_eq_append_left.1 htrace⟩
  · rintro ⟨rfl, rfl⟩
    exact ⟨nofun, 0, rfl⟩

theorem Outcome.mapError_eq_exhausted {ε δ α : Type} {f : ε → δ} {o : Outcome ε α} :
    o.mapError f = .exhausted ↔ o = .exhausted := by
  cases o <;> simp [Outcome.mapError]

theorem runs_of_read {s : Source} (h : read text = .ok s) :
    Runs text env before outcome trace ↔ ∃ o, outcome = o.mapError .evaluation ∧
      Yields (statements · .null s.statements env) before o (trace ++ before) := by
  unfold Runs run
  rw [h]
  constructor
  · rintro ⟨ho, fuel, hr⟩
    obtain ⟨rfl, htrace⟩ := Prod.mk.inj hr
    exact ⟨_, rfl, mt Outcome.mapError_eq_exhausted.2 ho, fuel, Prod.ext rfl htrace⟩
  · rintro ⟨o, rfl, ho, fuel, hr⟩
    have hrun := congrArg (fun r => (r.1.mapError Failure.evaluation, r.2)) hr
    exact ⟨mt Outcome.mapError_eq_exhausted.1 ho, fuel, hrun⟩

theorem runs_done_of_read {s : Source} {p : Value × Environment} (h : read text = .ok s)
    (fuel : Nat)
    (hdone : statements fuel .null s.statements env before = (.done p, trace ++ before)) :
    Runs text env before (.done p) trace :=
  (runs_of_read h).2 ⟨.done p, rfl, nofun, fuel, hdone⟩

theorem Runs.read_of_done {p : Value × Environment} (h : Runs text env before (.done p) trace) :
    ∃ s, read text = .ok s ∧
      Yields (statements · .null s.statements env) before (.done p) (trace ++ before) := by
  cases hs : read text with
  | error e =>
    obtain ⟨he, _⟩ := (runs_of_read_error hs).1 h
    cases he
  | ok s =>
    obtain ⟨o, ho, hyields⟩ := (runs_of_read hs).1 h
    cases o with
    | done q =>
      cases ho
      exact ⟨s, rfl, hyields⟩
    | failed e => cases ho
    | exhausted => cases ho

/-- What has been observed before does not matter to stateless functions. -/
theorem runs_after_iff (h : env.Stateless) :
    Runs text env before outcome trace ↔ Runs text env [] outcome trace := by
  constructor
  · rintro ⟨ho, fuel, hr⟩
    rw [run_uniform h] at hr
    obtain ⟨hfirst, hsecond⟩ := Prod.mk.inj hr
    rw [← List.append_cancel_right hsecond, Runs, List.append_nil]
    exact ⟨ho, fuel, Prod.ext hfirst rfl⟩
  · rintro ⟨ho, fuel, hr⟩
    rw [List.append_nil] at hr
    refine ⟨ho, fuel, ?_⟩
    rw [run_uniform h, hr]

theorem Runs.stateless {v : Value} {env' : Environment}
    (hr : Runs text env before (.done (v, env')) trace) (h : env.Stateless) : env'.Stateless := by
  obtain ⟨_, fuel, hr⟩ := hr
  exact stateless_of_run h hr

end

theorem foldl_append_eq (init : String) (words : List String) :
    words.foldl (· ++ ·) init = init ++ String.join words := by
  induction words generalizing init with
  | nil => simp [String.join]
  | cons word words ih =>
    have hjoin : String.join (word :: words) = words.foldl (· ++ ·) ("" ++ word) := rfl
    rw [List.foldl_cons, ih, hjoin, ih, String.empty_append, String.append_assoc]

theorem Trace.output_append (trace trace' : Trace) :
    Trace.output (trace' ++ trace) = Trace.output trace ++ Trace.output trace' := by
  have hjoin : Trace.output (trace' ++ trace) =
    (trace'.reverse.map Event.output).foldl (· ++ ·) (Trace.output trace) := by
      rw [Trace.output, List.reverse_append, List.map_append, String.join, List.foldl_append]
      rfl
  rw [hjoin, foldl_append_eq]
  rfl

theorem Outcome.mapError_down {α : Type} (lines : Nat) (o : Outcome EvalError α) :
    (o.mapError Failure.evaluation).mapError (Failure.down lines) = o.mapError .evaluation := by
  cases o <;> rfl

theorem read_of_no_token {text : String} (h : tokenize text = []) : read text = .ok ⟨[]⟩ := by
  rw [read_eq_ok_iff, h]
  exact ⟨rfl, Grammar.parse_of_program .nil⟩

theorem statements_ne_nil_of_read {text : String} {s : Source} (h : read text = .ok s)
    (ht : tokenize text ≠ []) : s.statements ≠ [] := by
  intro hs
  have hprogram := Grammar.program_of_parse (read_eq_ok_iff.1 h).2
  rw [hs] at hprogram
  generalize hw : Grammar.kinds (tokenize text) = w at hprogram
  cases hprogram with
  | nil => exact ht (List.map_eq_nil_iff.1 hw)

section
open Evaluation
variable {a b : String} {env env₁ : Environment} {v : Value} {s s' : Source}
  {before trace trace₁ : Trace}

theorem yields_from_value (hb : read b = .ok s') (v : Value)
    {o : Outcome EvalError (Value × Environment)} :
    Yields (statements · v s'.statements env₁) before o trace ↔
      ∃ o', Yields (statements · .null s'.statements env₁) before o' trace ∧
        o = if tokenize b = [] then .done (v, env₁) else o' := by
  by_cases ht : tokenize b = []
  · obtain rfl : s' = ⟨[]⟩ := Except.ok.inj (hb.symm.trans (read_of_no_token ht))
    simp only [if_pos ht, yields_statements_nil]
    constructor
    · rintro ⟨rfl, rfl⟩
      exact ⟨_, ⟨rfl, rfl⟩, rfl⟩
    · rintro ⟨_, ⟨_, rfl⟩, rfl⟩
      exact ⟨rfl, rfl⟩
  · have hne := statements_ne_nil_of_read hb ht
    simp only [if_neg ht]
    rw [yields_statements_of_ne_nil hne v .null]
    constructor
    · intro h
      exact ⟨o, h, rfl⟩
    · rintro ⟨_, h, rfl⟩
      exact h

theorem runs_of_read_append
    (hfirst : Yields (statements · .null s.statements env) before (.done (v, env₁))
      (trace₁ ++ before))
    (hwhole : read (a ++ "\n" ++ b) = .ok ⟨s.statements ++ s'.statements⟩)
    {outcome : Outcome Failure (Value × Environment)} :
    Runs (a ++ "\n" ++ b) env before outcome trace ↔
      ∃ o trace₂, outcome = o.mapError .evaluation ∧ trace = trace₂ ++ trace₁ ∧
        Yields (statements · v s'.statements env₁) (trace₁ ++ before) o
          (trace₂ ++ (trace₁ ++ before)) := by
  rw [runs_of_read hwhole]
  constructor
  · rintro ⟨o, ho, h⟩
    have hsecond := (yields_statements_append hfirst).1 h
    obtain ⟨trace₂, rfl, hadds⟩ := hsecond.adds_to (steady_statements v s'.statements env₁)
    exact ⟨o, trace₂, ho, rfl, hadds⟩
  · rintro ⟨o, trace₂, ho, rfl, h⟩
    rw [← List.append_assoc] at h
    exact ⟨o, ho, (yields_statements_append hfirst).2 h⟩

end

open Evaluation in
/-- If a text runs to an end, leaves no comment open and is not followed by an
`else`, then both texts run as one exactly as the second runs where the first
has ended. Only the lines of what does not read are further down, and the
value is that of the first if there is nothing to run in the second. What is
put out is put out by the first and then by the second, and nothing is put out
if the second does not read. If the host functions are stateless, the second
runs as it does with nothing observed before. -/
theorem runs_append_newline_iff {a b : String} {env env₁ : Environment} {v : Value}
    {before trace₁ : Trace} (ha : Runs a env before (.done (v, env₁)) trace₁)
    (hc : LeavesNoCommentOpen a) (helse : ∀ t ∈ (tokenize b).head?, t.token ≠ .elseWord) :
    (∀ outcome trace, Runs (a ++ "\n" ++ b) env before outcome trace ↔
      ∃ o trace₂, Runs b env₁ (trace₁ ++ before) o trace₂ ∧
        outcome = (if tokenize b = [] then .done (v, env₁)
          else o.mapError (Failure.down (linesAbove a))) ∧
        trace = (match read b with
          | .ok _ => trace₂ ++ trace₁
          | .error _ => []) ∧
        Trace.output trace = (match read b with
          | .ok _ => Trace.output trace₁ ++ Trace.output trace₂
          | .error _ => "")) ∧
    (env.Stateless → ∀ o trace₂,
      Runs b env₁ (trace₁ ++ before) o trace₂ ↔ Runs b env₁ [] o trace₂) := by
  refine ⟨fun outcome trace => ?_, fun h o trace₂ => runs_after_iff (ha.stateless h)⟩
  obtain ⟨s, hs, hfirst⟩ := ha.read_of_done
  have hwhole := read_append_newline hs hc helse
  cases hb : read b with
  | error e =>
    -- only a text with tokens can fail to read, so the value is not at stake
    have ht : tokenize b ≠ [] := by
      intro ht
      rw [read_of_no_token ht] at hb
      cases hb
    rw [hb] at hwhole
    rw [runs_of_read_error hwhole]
    simp only [if_neg ht]
    constructor
    · rintro ⟨rfl, rfl⟩
      exact ⟨.failed e, [], (runs_of_read_error hb).2 ⟨rfl, rfl⟩, rfl, rfl, rfl⟩
    · rintro ⟨o, trace₂, ho, rfl, rfl, _⟩
      obtain ⟨rfl, _⟩ := (runs_of_read_error hb).1 ho
      exact ⟨rfl, rfl⟩
  | ok s' =>
    rw [hb] at hwhole
    rw [runs_of_read_append hfirst hwhole]
    constructor
    · rintro ⟨_, trace₂, rfl, rfl, h⟩
      obtain ⟨o, ho, rfl⟩ := (yields_from_value hb v).1 h
      refine ⟨o.mapError .evaluation, trace₂, (runs_of_read hb).2 ⟨o, rfl, ho⟩, ?_, rfl,
        Trace.output_append trace₁ trace₂⟩
      rw [apply_ite (Outcome.mapError Failure.evaluation), Outcome.mapError_down]
      rfl
    · rintro ⟨_, trace₂, hrun, rfl, rfl, _⟩
      obtain ⟨o, rfl, ho⟩ := (runs_of_read hb).1 hrun
      refine ⟨_, trace₂, ?_, rfl, (yields_from_value hb v).2 ⟨o, ho, rfl⟩⟩
      rw [apply_ite (Outcome.mapError Failure.evaluation), Outcome.mapError_down]
      rfl

open Evaluation in
theorem runs_assignment_then_print :
    Runs ("x = 2;" ++ "\n" ++ "print(x);") .prelude []
      (.done (.null, Environment.prelude.setVariable "x" (.int 2))) [.printed "2\n"] := by
  have hreadFirst : read "x = 2;" = .ok ⟨[.assign "x" (.int 2)]⟩ := by cbv
  have hread : read "print(x);" = .ok ⟨[.expression (.call "print" [.variable "x"])]⟩ := by cbv
  have hfirst : Runs "x = 2;" .prelude []
      (.done (.null, Environment.prelude.setVariable "x" (.int 2))) [] :=
    runs_done_of_read hreadFirst 10 rfl
  have hpieces : Piece.all "x = 2;".toList = [.lexeme (.ident "x") ['x'], .gap [' '],
      .lexeme .assign ['='], .gap [' '], .lexeme (.int 2) ['2'], .lexeme .semicolon [';']] := by
    cbv
  have hc : LeavesNoCommentOpen "x = 2;" := by
    intro rest hrest
    rw [hpieces] at hrest
    simp at hrest
  have htokens : (tokenize "print(x);").head? = some ⟨.ident "print", 1⟩ := by cbv
  have helse : ∀ t ∈ (tokenize "print(x);").head?, t.token ≠ .elseWord := by
    rw [htokens]
    simp
  have hsecond : Runs "print(x);" (Environment.prelude.setVariable "x" (.int 2)) []
      (.done (.null, Environment.prelude.setVariable "x" (.int 2))) [.printed "2\n"] :=
    runs_done_of_read hread 10 rfl
  obtain ⟨hjoined, hapart⟩ := runs_append_newline_iff hfirst hc helse
  have hlater := (hapart Environment.stateless_prelude _ _).2 hsecond
  refine (hjoined _ _).2 ⟨_, _, hlater, ?_, ?_, ?_⟩
  · rw [if_neg]
    · rfl
    · intro hnil
      rw [hnil] at htokens
      cases htokens
  · rw [hread]
    rfl
  · rw [hread]
    rfl

end Script
