import Script.Console
import Script.Proofs.Lexicon.Trimming
import Script.Proofs.Uniform

/-!
# Interactive sessions

What a session is after some lines: the environment in force is that of the
programs that have succeeded, one after the other, and all other lines leave it.
If the host functions are stateless, as that of the prelude is, a line looks
only at the environment in force. So lines that leave it can be put in or left
out, and every other line still prints what it did.
-/

set_option autoImplicit false

namespace Script

def Outcome.envOr {ε α : Type} (env : Environment) : Outcome ε (α × Environment) → Environment
  | .done (_, env') => env'
  | _ => env

theorem Runs.eventually {text : String} {env : Environment} {before trace : Trace}
    {outcome : Outcome Failure (Value × Environment)} (h : Runs text env before outcome trace) :
    ∃ least, ∀ fuel, least ≤ fuel → run fuel text env before = (outcome, trace ++ before) := by
  obtain ⟨ho, least, hr⟩ := h
  refine ⟨least, fun fuel hle => ?_⟩
  unfold run at hr ⊢
  cases hread : read text with
  | error e =>
    rw [hread] at hr
    exact hr
  | ok program =>
    rw [hread] at hr
    have hended : (Evaluation.statements least .null program.statements env before).1 ≠
        .exhausted := by
      rw [← (Prod.mk.inj hr).1] at ho
      exact mt Outcome.mapError_eq_exhausted.2 ho
    have hmore := (Evaluation.steady_statements .null program.statements env).more rfl hended hle
    rw [← hr]
    simp only [Node.evaluate, hmore]

namespace Console

theorem process_evaluate (fuel : Nat) (source : String) (showResult : Bool) (env : Environment)
    (trace : Trace) :
    process fuel .evaluate source showResult env trace =
      match run fuel source env trace with
      | (.failed e, trace) => (.failed e, trace)
      | (.exhausted, trace) => (.exhausted, trace)
      | (.done (value, env), trace) =>
        (.done env,
          if showResult then Event.printed (String.ofList (value.display ++ ['\n'])) :: trace
          else trace) := by
  simp only [process, run, read, readTokens]
  cases checkTokens (tokenize source) with
  | error e => rfl
  | ok _ =>
    dsimp only
    rw [if_neg (by decide)]
    cases parse (tokenize source) with
    | error found => rfl
    | ok program =>
      dsimp only
      rw [if_neg (by decide)]
      rcases (Node.source program).evaluate fuel env trace with ⟨_ | _ | _, _⟩ <;> rfl

/-! ### Lines -/

def AsksToQuit (line : List Char) : Prop :=
  String.ofList (Text.trim line) = ":quit" ∨ String.ofList (Text.trim line) = ":q"

instance (line : List Char) : Decidable (AsksToQuit line) :=
  inferInstanceAs (Decidable (_ ∨ _))

def HoldsProgram (line : List Char) : Prop :=
  ∃ c rest, Text.trim line = c :: rest ∧ c ≠ ':'

theorem Command.ofLine_eq_quit_iff (line : String) :
    Command.ofLine line = .quit ↔ line = ":quit" ∨ line = ":q" := by
  unfold Command.ofLine
  split
  · simp
  · simp
  · simp
  · simp
  · simp
  · next hquit hq _ _ _ => simpa using ⟨hquit, hq⟩

theorem Line.quits_command_iff (c : Command) : (Line.command c).quits = true ↔ c = .quit := by
  cases c <;> simp [Line.quits]

section
variable {line rest : List Char}

theorem ofText_of_blank (h : Text.trim line = []) : Line.ofText line = .blank := by
  rw [Line.ofText, h]

theorem ofText_of_colon (h : Text.trim line = ':' :: rest) :
    Line.ofText line = .command (.ofLine (String.ofList (Text.trim line))) := by
  rw [Line.ofText, h]
  rfl

theorem ofText_of_holdsProgram (h : HoldsProgram line) :
    Line.ofText line = .program (String.ofList (Text.trim line)) := by
  obtain ⟨c, rest, htrim, hc⟩ := h
  rw [Line.ofText, htrim]
  split
  · next h => cases h
  · next h => exact absurd (List.cons.inj h).1 hc
  · rfl

theorem line_cases (line : List Char) :
    Text.trim line = [] ∨ (∃ rest, Text.trim line = ':' :: rest) ∨ HoldsProgram line := by
  cases htrim : Text.trim line with
  | nil => exact .inl rfl
  | cons c rest =>
    by_cases hc : c = ':'
    · exact .inr (.inl ⟨rest, by rw [hc]⟩)
    · exact .inr (.inr ⟨c, rest, htrim, hc⟩)

theorem ofText_ne_command (h : ∀ rest, Text.trim line ≠ ':' :: rest) (c : Command) :
    Line.ofText line ≠ .command c := by
  rcases line_cases line with htrim | ⟨rest, htrim⟩ | hprogram
  · rw [ofText_of_blank htrim]
    nofun
  · exact absurd htrim (h rest)
  · rw [ofText_of_holdsProgram hprogram]
    nofun

theorem quits_ofText_iff (line : List Char) :
    (Line.ofText line).quits = true ↔ AsksToQuit line := by
  rcases line_cases line with h | ⟨rest, h⟩ | h
  · rw [ofText_of_blank h, AsksToQuit, h]
    simp [Line.quits]
  · rw [ofText_of_colon h, Line.quits_command_iff, Command.ofLine_eq_quit_iff, AsksToQuit]
  · obtain ⟨c, rest, htrim, hc⟩ := h
    have hcolon (command : String) (h : command.toList.head? = some ':') :
        String.ofList (c :: rest) ≠ command := by
      rintro rfl
      rw [String.toList_ofList] at h
      cases h
      exact hc rfl
    rw [ofText_of_holdsProgram ⟨c, rest, htrim, hc⟩, AsksToQuit, htrim]
    exact ⟨nofun, fun h => (h.elim (hcolon ":quit" rfl) (hcolon ":q" rfl)).elim⟩

end

/-! ### What one line does -/

namespace Interaction

/-- A session that comes after another, which it knows only by the environment
in force. -/
def above (t s : Interaction) : Interaction :=
  ⟨t.env, t.trace ++ s.trace, t.errors ++ s.errors⟩

theorem above_assoc (t u s : Interaction) : (t.above u).above s = t.above (u.above s) := by
  simp only [above, List.append_assoc]

def fresh (env : Environment) : Interaction :=
  ⟨env, [], []⟩

section
variable {s : Interaction} (h : s.env.Stateless) (fuel : Nat)
include h

/-- What a line adds depends on the environment in force and on nothing else. -/
theorem take_eq_above (line : Line) :
    s.take fuel .evaluate line = ((fresh s.env).take fuel .evaluate line).above s := by
  cases line with
  | blank => rfl
  | command c => rfl
  | program source =>
    simp only [take, process_evaluate, fresh, run_uniform h fuel source s.trace]
    rcases run fuel source s.env [] with ⟨_ | _ | _, _⟩ <;> rfl

theorem take_program_env (source : String) :
    (s.take fuel .evaluate (.program source)).env =
      (run fuel source s.env []).1.envOr s.env := by
  simp only [take, process_evaluate, run_uniform h fuel source s.trace]
  rcases run fuel source s.env [] with ⟨_ | _ | _, _⟩ <;> rfl

theorem stateless_take (line : Line) : (s.take fuel .evaluate line).env.Stateless := by
  cases line with
  | blank => exact h
  | command c => exact h
  | program source =>
    rw [take_program_env h]
    rcases hr : run fuel source s.env [] with ⟨⟨v, env'⟩ | _ | _, trace⟩
    · exact stateless_of_run h hr
    · exact h
    · exact h

end

def after (fuel : Nat) (s : Interaction) (lines : List (List Char)) : Interaction :=
  s.takeAll fuel .evaluate (lines.map Line.ofText)

variable {fuel : Nat} {s : Interaction} {line : List Char} {lines : List (List Char)}

theorem after_quit (h : AsksToQuit line) : s.after fuel (line :: lines) = s := by
  rw [after, List.map_cons, takeAll, if_pos ((quits_ofText_iff line).2 h)]

theorem after_cons (h : ¬ AsksToQuit line) :
    s.after fuel (line :: lines) =
      (s.take fuel .evaluate (Line.ofText line)).after fuel lines := by
  rw [after, List.map_cons, takeAll, if_neg (mt (quits_ofText_iff line).1 h)]
  rfl

theorem stateless_after (h : s.env.Stateless) : (s.after fuel lines).env.Stateless := by
  induction lines generalizing s with
  | nil => exact h
  | cons line lines ih =>
    by_cases hquit : AsksToQuit line
    · rw [after_quit hquit]
      exact h
    · rw [after_cons hquit]
      exact ih (stateless_take h fuel _)

theorem after_eq_above (h : s.env.Stateless) :
    s.after fuel lines = ((fresh s.env).after fuel lines).above s := by
  induction lines generalizing s with
  | nil => rfl
  | cons line lines ih =>
    by_cases hquit : AsksToQuit line
    · rw [after_quit hquit, after_quit hquit]
      rfl
    · let t := (fresh s.env).take fuel .evaluate (Line.ofText line)
      have ht : t.env.Stateless := stateless_take (s := fresh s.env) h fuel _
      calc s.after fuel (line :: lines)
        _ = (t.above s).after fuel lines := by rw [after_cons hquit, take_eq_above h]
        _ = ((fresh t.env).after fuel lines).above (t.above s) := ih ht
        _ = (((fresh t.env).after fuel lines).above t).above s := (above_assoc _ t s).symm
        _ = (t.after fuel lines).above s := by rw [← ih ht]
        _ = ((fresh s.env).after fuel (line :: lines)).above s := by rw [after_cons hquit]

theorem after_append (h : ∀ line ∈ lines, ¬ AsksToQuit line) (later : List (List Char)) :
    s.after fuel (lines ++ later) = (s.after fuel lines).after fuel later := by
  induction lines generalizing s with
  | nil => rfl
  | cons line lines ih =>
    obtain ⟨hline, h⟩ := List.forall_mem_cons.1 h
    rw [List.cons_append, after_cons hline, after_cons hline, ih h]

theorem after_append_of_quit (h : ∃ line ∈ lines, AsksToQuit line) (later : List (List Char)) :
    s.after fuel (lines ++ later) = s.after fuel lines := by
  induction lines generalizing s with
  | nil => simp at h
  | cons line lines ih =>
    by_cases hline : AsksToQuit line
    · rw [List.cons_append, after_quit hline, after_quit hline]
    · rw [List.cons_append, after_cons hline, after_cons hline, ih]
      simpa [hline] using h

end Interaction

/-! ### The fold of a session -/

/-- A line that leaves the environment: a blank one, a command that does not
end the session, or a program that fails. -/
inductive Idle (env : Environment) (line : List Char) : Prop where
  | blank : Text.trim line = [] → Idle env line
  | command {rest : List Char} : Text.trim line = ':' :: rest → ¬ AsksToQuit line → Idle env line
  | failing {e : Failure} {trace : Trace} : HoldsProgram line →
      Runs (String.ofList (Text.trim line)) env [] (.failed e) trace → Idle env line

inductive Leaves (env : Environment) (line : List Char) : Environment → Prop where
  | idle : Idle env line → Leaves env line env
  | program {v : Value} {env' : Environment} {trace : Trace} : HoldsProgram line →
      Runs (String.ofList (Text.trim line)) env [] (.done (v, env')) trace →
        Leaves env line env'

/-- The environment after some lines, one after the other. After a line that
ends the session nothing counts. -/
inductive Folds : Environment → List (List Char) → Environment → Prop where
  | nil {env : Environment} : Folds env [] env
  | quit {env : Environment} {line : List Char} {lines : List (List Char)} :
      AsksToQuit line → Folds env (line :: lines) env
  | cons {env env₁ env₂ : Environment} {line : List Char} {lines : List (List Char)} :
      Leaves env line env₁ → Folds env₁ lines env₂ → Folds env (line :: lines) env₂

section
variable {env env' env₁ env₂ : Environment} {line : List Char} {lines lines' : List (List Char)}

theorem HoldsProgram.not_asksToQuit (h : HoldsProgram line) : ¬ AsksToQuit line := by
  rw [← quits_ofText_iff, ofText_of_holdsProgram h]
  nofun

theorem Idle.not_asksToQuit (h : Idle env line) : ¬ AsksToQuit line := by
  cases h with
  | blank htrim =>
    rw [← quits_ofText_iff, ofText_of_blank htrim]
    nofun
  | command _ hquit => exact hquit
  | failing hprogram => exact hprogram.not_asksToQuit

theorem Leaves.not_asksToQuit (h : Leaves env line env') : ¬ AsksToQuit line := by
  cases h with
  | idle hidle => exact hidle.not_asksToQuit
  | program hprogram => exact hprogram.not_asksToQuit

theorem Leaves.stateless (h : Leaves env line env') (henv : env.Stateless) : env'.Stateless := by
  cases h with
  | idle => exact henv
  | program _ hruns => exact hruns.stateless henv

theorem HoldsProgram.eventually (h : HoldsProgram line) (henv : env.Stateless) {trace : Trace}
    {outcome : Outcome Failure (Value × Environment)}
    (hruns : Runs (String.ofList (Text.trim line)) env [] outcome trace) :
    ∃ least, ∀ fuel, least ≤ fuel → ∀ s : Interaction, s.env = env →
      (s.take fuel .evaluate (Line.ofText line)).env = outcome.envOr env := by
  obtain ⟨least, hrun⟩ := hruns.eventually
  refine ⟨least, fun fuel hfuel s hs => ?_⟩
  subst hs
  rw [ofText_of_holdsProgram h, Interaction.take_program_env henv, hrun fuel hfuel]

theorem Leaves.eventually (h : Leaves env line env') (henv : env.Stateless) :
    ∃ least, ∀ fuel, least ≤ fuel → ∀ s : Interaction, s.env = env →
      (s.take fuel .evaluate (Line.ofText line)).env = env' := by
  cases h with
  | idle hidle =>
    cases hidle with
    | blank htrim =>
      refine ⟨0, fun fuel _ s hs => ?_⟩
      rw [ofText_of_blank htrim]
      exact hs
    | command htrim _ =>
      refine ⟨0, fun fuel _ s hs => ?_⟩
      rw [ofText_of_colon htrim]
      exact hs
    | failing hprogram hruns => exact hprogram.eventually henv hruns
  | program hprogram hruns => exact hprogram.eventually henv hruns

theorem Folds.eventually (h : Folds env lines env') (henv : env.Stateless) :
    ∃ least, ∀ fuel, least ≤ fuel → ∀ s : Interaction, s.env = env →
      (s.after fuel lines).env = env' := by
  induction h with
  | nil => exact ⟨0, fun _ _ _ hs => hs⟩
  | quit hquit =>
    refine ⟨0, fun fuel _ s hs => ?_⟩
    rw [Interaction.after_quit hquit, hs]
  | cons hline _ ih =>
    obtain ⟨m, hm⟩ := hline.eventually henv
    obtain ⟨n, hn⟩ := ih (hline.stateless henv)
    refine ⟨max m n, fun fuel hfuel s hs => ?_⟩
    rw [Interaction.after_cons hline.not_asksToQuit]
    exact hn fuel (by omega) _ (hm fuel (by omega) s hs)

theorem Folds.unique (h : Folds env lines env₁) (h' : Folds env lines env₂)
    (henv : env.Stateless) : env₁ = env₂ := by
  obtain ⟨m, hm⟩ := h.eventually henv
  obtain ⟨n, hn⟩ := h'.eventually henv
  have hfirst := hm (max m n) (Nat.le_max_left m n) (.fresh env) rfl
  have hsecond := hn (max m n) (Nat.le_max_right m n) (.fresh env) rfl
  exact hfirst.symm.trans hsecond

/-- The session comes to a program that never ends. -/
def Stalls (env : Environment) (lines : List (List Char)) : Prop :=
  ∃ earlier line later env', lines = earlier ++ line :: later ∧
    (∀ l ∈ earlier, ¬ AsksToQuit l) ∧ Folds env earlier env' ∧ HoldsProgram line ∧
      ∀ outcome trace, ¬ Runs (String.ofList (Text.trim line)) env' [] outcome trace

theorem Stalls.cons (hline : Leaves env line env') (h : Stalls env' lines) :
    Stalls env (line :: lines) := by
  obtain ⟨earlier, last, later, env₁, rfl, hquit, hfolds, hlast⟩ := h
  exact ⟨line :: earlier, last, later, env₁, rfl,
    List.forall_mem_cons.2 ⟨hline.not_asksToQuit, hquit⟩, .cons hline hfolds, hlast⟩

theorem leaves_or_never (env : Environment) (h : HoldsProgram line) :
    (∃ env', Leaves env line env') ∨
      ∀ outcome trace, ¬ Runs (String.ofList (Text.trim line)) env [] outcome trace := by
  by_cases hends : ∃ outcome trace, Runs (String.ofList (Text.trim line)) env [] outcome trace
  · obtain ⟨outcome, trace, hruns⟩ := hends
    cases outcome with
    | done p => exact .inl ⟨p.2, .program h hruns⟩
    | failed e => exact .inl ⟨env, .idle (.failing h hruns)⟩
    | exhausted => exact absurd rfl hruns.1
  · exact .inr fun outcome trace hruns => hends ⟨outcome, trace, hruns⟩

theorem folds_or_stalls (env : Environment) (lines : List (List Char)) :
    (∃ env', Folds env lines env') ∨ Stalls env lines := by
  induction lines generalizing env with
  | nil => exact .inl ⟨env, .nil⟩
  | cons line lines ih =>
    have further {env₁ : Environment} (hline : Leaves env line env₁) :
        (∃ env', Folds env (line :: lines) env') ∨ Stalls env (line :: lines) :=
      (ih env₁).imp (fun ⟨env', h⟩ => ⟨env', .cons hline h⟩) (.cons hline)
    by_cases hquit : AsksToQuit line
    · exact .inl ⟨env, .quit hquit⟩
    rcases line_cases line with htrim | ⟨rest, htrim⟩ | hprogram
    · exact further (.idle (.blank htrim))
    · exact further (.idle (.command htrim hquit))
    · rcases leaves_or_never env hprogram with ⟨env₁, hline⟩ | hnever
      · exact further hline
      · exact .inr ⟨[], line, lines, env, rfl, nofun, .nil, hprogram, hnever⟩

/-! ### Sessions that vary -/

/-- Lines that leave the environment are put in and left out. After a line that
ends the session everything may differ. -/
inductive Varies : Environment → List (List Char) → List (List Char) → Prop where
  | nil {env : Environment} : Varies env [] []
  | same {env env' : Environment} {line : List Char} {lines lines' : List (List Char)} :
      Leaves env line env' → Varies env' lines lines' →
        Varies env (line :: lines) (line :: lines')
  | inserted {env : Environment} {line : List Char} {lines lines' : List (List Char)} :
      Idle env line → Varies env lines lines' → Varies env lines (line :: lines')
  | deleted {env : Environment} {line : List Char} {lines lines' : List (List Char)} :
      Idle env line → Varies env lines lines' → Varies env (line :: lines) lines'
  | quit {env : Environment} {line : List Char} {lines lines' : List (List Char)} :
      AsksToQuit line → Varies env (line :: lines) (line :: lines')

theorem Varies.quit_iff (h : Varies env lines lines') :
    (∃ line ∈ lines, AsksToQuit line) ↔ ∃ line ∈ lines', AsksToQuit line := by
  induction h with
  | nil => rfl
  | same hline _ ih => simp [hline.not_asksToQuit, ih]
  | inserted hidle _ ih => simp [hidle.not_asksToQuit, ih]
  | deleted hidle _ ih => simp [hidle.not_asksToQuit, ih]
  | quit hquit => simp [hquit]

theorem Varies.eventually (h : Varies env lines lines') (henv : env.Stateless) :
    ∃ least, ∀ fuel, least ≤ fuel → ∀ s s' : Interaction, s.env = env → s'.env = env →
      (s.after fuel lines).env = (s'.after fuel lines').env := by
  induction h with
  | nil => exact ⟨0, fun _ _ _ _ hs hs' => hs.trans hs'.symm⟩
  | same hline _ ih =>
    obtain ⟨m, hm⟩ := hline.eventually henv
    obtain ⟨n, hn⟩ := ih (hline.stateless henv)
    refine ⟨max m n, fun fuel hfuel s s' hs hs' => ?_⟩
    have hquit := hline.not_asksToQuit
    rw [Interaction.after_cons hquit, Interaction.after_cons hquit]
    exact hn fuel (by omega) _ _ (hm fuel (by omega) s hs) (hm fuel (by omega) s' hs')
  | inserted hidle _ ih =>
    obtain ⟨m, hm⟩ := (Leaves.idle hidle).eventually henv
    obtain ⟨n, hn⟩ := ih henv
    refine ⟨max m n, fun fuel hfuel s s' hs hs' => ?_⟩
    rw [Interaction.after_cons hidle.not_asksToQuit]
    exact hn fuel (by omega) _ _ hs (hm fuel (by omega) s' hs')
  | deleted hidle _ ih =>
    obtain ⟨m, hm⟩ := (Leaves.idle hidle).eventually henv
    obtain ⟨n, hn⟩ := ih henv
    refine ⟨max m n, fun fuel hfuel s s' hs hs' => ?_⟩
    rw [Interaction.after_cons hidle.not_asksToQuit]
    exact hn fuel (by omega) _ _ (hm fuel (by omega) s hs) hs'
  | quit hquit =>
    refine ⟨0, fun fuel _ s s' hs hs' => ?_⟩
    rw [Interaction.after_quit hquit, Interaction.after_quit hquit, hs, hs']

theorem Varies.exists_added (h : Varies env lines lines') {fuel : Nat} {s s' : Interaction}
    (hs : s.env.Stateless) (henv : (s.after fuel lines).env = (s'.after fuel lines').env)
    (next : List (List Char)) :
    ∃ added : Interaction, s.after fuel (lines ++ next) = added.above (s.after fuel lines) ∧
      s'.after fuel (lines' ++ next) = added.above (s'.after fuel lines') := by
  by_cases hquit : ∃ line ∈ lines, AsksToQuit line
  · have hquit' := h.quit_iff.1 hquit
    rw [Interaction.after_append_of_quit hquit, Interaction.after_append_of_quit hquit']
    refine ⟨.fresh (s.after fuel lines).env, rfl, ?_⟩
    rw [henv]
    rfl
  · have hquit' := mt h.quit_iff.2 hquit
    have hafter : (s.after fuel lines).env.Stateless := Interaction.stateless_after hs
    refine ⟨(Interaction.fresh (s.after fuel lines).env).after fuel next, ?_, ?_⟩
    · rw [Interaction.after_append fun line hline hq => hquit ⟨line, hline, hq⟩]
      exact Interaction.after_eq_above hafter
    · rw [henv] at hafter ⊢
      rw [Interaction.after_append fun line hline hq => hquit' ⟨line, hline, hq⟩]
      exact Interaction.after_eq_above hafter

end

def Interaction.opening : Interaction :=
  ⟨.prelude, [.printed banner], []⟩

def ended (lines : List (List Char)) : String :=
  String.ofList (lines.flatMap (· ++ ['\n']))

theorem newline_not_mem_typedLines (input : String) : ∀ line ∈ typedLines input, '\n' ∉ line := by
  rw [typedLines, List.forall_mem_map]
  exact fun line hline h =>
    Text.newline_not_mem_lines _ line hline (Text.mem_of_mem_retyped h)

theorem typedLines_ended {lines : List (List Char)}
    (h : ∀ line ∈ lines, '\n' ∉ line ∧ '\x08' ∉ line) : typedLines (ended lines) = lines := by
  rw [typedLines, ended, String.toList_ofList]
  induction lines with
  | nil => rfl
  | cons line lines ih =>
    obtain ⟨⟨hnewline, hback⟩, h⟩ := List.forall_mem_cons.1 h
    rw [List.flatMap_cons, List.append_assoc, List.singleton_append,
      Text.lines_append_newline hnewline, List.map_cons, ih h, Text.retyped_of_not_mem hback]

/-- A session whose host functions are stateless, as under the prelude, is the
fold of its programs that succeed. Its state after some lines has the
environment to which they fold, unless one of them never ends, and what comes
later is taken up from that state, if no line has ended the session. Lines that
leave the environment can be put in and left out: the environment is the same,
and the lines that come next add the same to what has been written. A line
without unknown tokens keeps its tokens when it is trimmed and is no command. An
interaction is such a session over the lines that its reader gives. Typed lines
hold no newline, and lines that are ended and take nothing back are typed as
they stand. -/
theorem sessions_fold_programs (s : Interaction) (hs : s.env.Stateless) :
    (∀ lines env, Folds s.env lines env → ∃ least, ∀ fuel, least ≤ fuel →
      (s.after fuel lines).env = env) ∧
    (∀ lines, (∃! env, Folds s.env lines env) ∨ Stalls s.env lines) ∧
    (∀ fuel earlier later, (∀ line ∈ earlier, ¬ AsksToQuit line) →
      s.after fuel (earlier ++ later) = (s.after fuel earlier).after fuel later) ∧
    (∀ fuel earlier later, (∃ line ∈ earlier, AsksToQuit line) →
      s.after fuel (earlier ++ later) = s.after fuel earlier) ∧
    (∀ lines lines' (s' : Interaction), s'.env = s.env → Varies s.env lines lines' →
      ∃ least, ∀ fuel, least ≤ fuel →
        (s.after fuel lines).env = (s'.after fuel lines').env ∧ ∀ next, ∃ added : Interaction,
          s.after fuel (lines ++ next) = added.above (s.after fuel lines) ∧
          s'.after fuel (lines' ++ next) = added.above (s'.after fuel lines')) ∧
    (∀ line, '\n' ∉ line → firstUnknown? (tokenize (String.ofList line)) = none →
      tokenize (String.ofList (Text.trim line)) = tokenize (String.ofList line) ∧
        ∀ c, Line.ofText line ≠ .command c) ∧
    (∀ reader fuel input, interact reader fuel .evaluate input =
      let last := Interaction.opening.after fuel (reader input)
      ⟨0, last.trace.output, String.join last.errors.reverse⟩) ∧
    (∀ input, ∀ line ∈ typedLines input, '\n' ∉ line) ∧
    ∀ lines, (∀ line ∈ lines, '\n' ∉ line ∧ '\x08' ∉ line) →
      typedLines (ended lines) = lines := by
  refine ⟨fun lines env hfolds => ?_, fun lines => ?_, fun _ _ later h => s.after_append h later,
    fun _ _ later h => s.after_append_of_quit h later, fun lines lines' s' hs' hvaries => ?_,
    fun line hn hknown => ⟨Lexicon.tokenize_trim hn hknown,
      ofText_ne_command (Lexicon.trim_ne_colon hn hknown)⟩,
    fun _ _ _ => rfl, newline_not_mem_typedLines, fun _ => typedLines_ended⟩
  · obtain ⟨least, hleast⟩ := hfolds.eventually hs
    exact ⟨least, fun fuel hfuel => hleast fuel hfuel s rfl⟩
  · refine (folds_or_stalls s.env lines).imp_left fun ⟨env, hfolds⟩ => ?_
    exact ⟨env, hfolds, fun env' hfolds' => hfolds'.unique hfolds hs⟩
  · obtain ⟨least, hleast⟩ := hvaries.eventually hs
    refine ⟨least, fun fuel hfuel => ?_⟩
    have henv := hleast fuel hfuel s s' rfl hs'
    exact ⟨henv, hvaries.exists_added hs henv⟩

def eventfulLines : List (List Char) :=
  ["x = 1;".toList, " \t".toList, ":env".toList, "print(x); x = 5; x / 0;".toList,
    " x = x + 1; ".toList, ":q".toList, "x = 9;".toList]

def plainLines : List (List Char) :=
  ["x = 1;".toList, " x = x + 1; ".toList, ":q".toList]

theorem sessions_fold_programs_past_failure :
    (∃ least, ∀ fuel, least ≤ fuel → (Interaction.opening.after fuel eventfulLines).env =
      (Environment.prelude.setVariable "x" (.int 1)).setVariable "x" (.int 2)) ∧
    (∃ least, ∀ fuel, least ≤ fuel →
      (Interaction.opening.after fuel eventfulLines).env =
        (Interaction.opening.after fuel plainLines).env) ∧
    tokenize (String.ofList (Text.trim "x; // y\u00a0".toList)) =
      tokenize (String.ofList "x; // y\u00a0".toList) := by
  obtain ⟨hfolds, _, _, _, hvaries, htrim, _⟩ :=
    sessions_fold_programs .opening Environment.stateless_prelude
  have hfirst : Leaves .prelude "x = 1;".toList (Environment.prelude.setVariable "x" (.int 1)) := by
    have hread : read (String.ofList (Text.trim "x = 1;".toList)) =
        .ok ⟨[.assign "x" (.int 1)]⟩ := by cbv
    have hruns : Runs (String.ofList (Text.trim "x = 1;".toList)) .prelude []
        (.done (.null, Environment.prelude.setVariable "x" (.int 1))) [] :=
      runs_done_of_read hread 10 rfl
    exact .program ⟨'x', _, rfl, by decide⟩ hruns
  have hlast : Leaves (Environment.prelude.setVariable "x" (.int 1)) " x = x + 1; ".toList
      ((Environment.prelude.setVariable "x" (.int 1)).setVariable "x" (.int 2)) := by
    have hread : read (String.ofList (Text.trim " x = x + 1; ".toList)) =
        .ok ⟨[.assign "x" (.binary .add (.variable "x") (.int 1))]⟩ := by cbv
    have hruns : Runs (String.ofList (Text.trim " x = x + 1; ".toList))
        (Environment.prelude.setVariable "x" (.int 1)) [] (.done (.null,
          (Environment.prelude.setVariable "x" (.int 1)).setVariable "x" (.int 2))) [] :=
      runs_done_of_read hread 10 rfl
    exact .program ⟨'x', _, rfl, by decide⟩ hruns
  have hblank : Idle (Environment.prelude.setVariable "x" (.int 1)) " \t".toList :=
    .blank rfl
  have hcommand : Idle (Environment.prelude.setVariable "x" (.int 1)) ":env".toList :=
    .command rfl (by decide)
  have hfailing : Idle (Environment.prelude.setVariable "x" (.int 1))
      "print(x); x = 5; x / 0;".toList := by
    have hread : read (String.ofList (Text.trim "print(x); x = 5; x / 0;".toList)) =
        .ok ⟨[.expression (.call "print" [.variable "x"]), .assign "x" (.int 5),
          .expression (.binary .divide (.variable "x") (.int 0))]⟩ := by cbv
    exact .failing ⟨'p', _, rfl, by decide⟩
      ((runs_of_read hread).2 ⟨.failed .divisionByZero, rfl, by simp, 10, rfl⟩)
  have hquit : AsksToQuit ":q".toList := .inr rfl
  refine ⟨hfolds _ _ ?_, ?_, (htrim _ ?_ ?_).1⟩
  · exact .cons hfirst (.cons (.idle hblank) (.cons (.idle hcommand) (.cons (.idle hfailing)
      (.cons hlast (.quit hquit)))))
  · obtain ⟨least, hleast⟩ := hvaries eventfulLines plainLines .opening rfl
      (.same hfirst (.deleted hblank (.deleted hcommand (.deleted hfailing
        (.same hlast (.quit hquit))))))
    exact ⟨least, fun fuel hfuel => (hleast fuel hfuel).1⟩
  · decide
  · cbv

end Console

end Script
