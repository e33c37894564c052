import Script.Proofs.Grammar.Alphabet
import Script.Proofs.Lexicon.Trimming
import Script.Proofs.RoundTrip

/-!
# Printed programs, line by line

Each statement at the top of a program is printed on one line. No string
literal, block or call brings in a newline of its own, and the line of a
statement starts and ends in ink. So the lines of a printed program can be given
one by one, as to an interactive session: each holds one statement, and running
them in turn is evaluating the program.
-/

set_option autoImplicit false

namespace Script
open Piece Evaluation

/-! ### Writers that stay on the line -/

def OnOneLine (w : List Char → List Char) : Prop :=
  ∃ u, '\n' ∉ u ∧ ∀ after, w after = u ++ after

def EndsLine (w : List Char → List Char) : Prop :=
  ∃ u, '\n' ∉ u ∧ Lexicon.EndsInInk u ∧ ∀ after, w after = u ++ after

section
variable {w w' : List Char → List Char} {u : List Char} {c : Char}

theorem OnOneLine.id : OnOneLine fun after => after :=
  ⟨[], List.not_mem_nil, fun _ => rfl⟩

theorem OnOneLine.comp (h : OnOneLine w) (h' : OnOneLine w') :
    OnOneLine fun after => w (w' after) := by
  obtain ⟨u, hu, hw⟩ := h
  obtain ⟨u', hu', hw'⟩ := h'
  refine ⟨u ++ u', fun hmem => (List.mem_append.1 hmem).elim hu hu', fun after => ?_⟩
  show w (w' after) = u ++ u' ++ after
  rw [hw, hw', List.append_assoc]

theorem OnOneLine.append (hu : '\n' ∉ u) (h : OnOneLine w) :
    OnOneLine fun after => u ++ w after :=
  OnOneLine.comp ⟨u, hu, fun _ => rfl⟩ h

theorem OnOneLine.cons (hc : c ≠ '\n') (h : OnOneLine w) :
    OnOneLine fun after => c :: w after :=
  h.append (u := [c]) fun hmem => hc (List.mem_singleton.1 hmem).symm

theorem OnOneLine.endsLine (h : OnOneLine w) (hn : c ≠ '\n') (hc : Text.isWhite c = false) :
    EndsLine fun after => w (c :: after) := by
  obtain ⟨u, hu, hw⟩ := h
  refine ⟨u ++ [c], fun hmem => ?_, Lexicon.endsInInk_concat u hc, fun after => ?_⟩
  · exact (List.mem_append.1 hmem).elim hu fun hlast => hn (List.mem_singleton.1 hlast).symm
  · show w (c :: after) = u ++ [c] ++ after
    rw [hw, List.append_assoc, List.singleton_append]

theorem OnOneLine.comp_endsLine (h : OnOneLine w) (h' : EndsLine w') :
    EndsLine fun after => w (w' after) := by
  obtain ⟨u, hu, hw⟩ := h
  obtain ⟨_, hu', ⟨v, c, rfl, hc⟩, hw'⟩ := h'
  refine ⟨u ++ (v ++ [c]), fun hmem => (List.mem_append.1 hmem).elim hu hu',
    ⟨u ++ v, c, (List.append_assoc u v [c]).symm, hc⟩, fun after => ?_⟩
  show w (w' after) = u ++ (v ++ [c]) ++ after
  rw [hw, hw', List.append_assoc u]

theorem EndsLine.onOneLine (h : EndsLine w) : OnOneLine w := by
  obtain ⟨u, hu, _, hw⟩ := h
  exact ⟨u, hu, hw⟩

end

theorem newline_not_mem_of_isNameChar {cs : List Char} (h : ∀ c ∈ cs, isNameChar c = true) :
    '\n' ∉ cs := fun hmem => absurd (h _ hmem) (by decide)

theorem newline_not_mem_ofNat (n : Nat) : '\n' ∉ Numeral.ofNat n :=
  newline_not_mem_of_isNameChar fun _ hc => isNameChar_of_isDigit (Numeral.isDigit_of_mem_ofNat hc)

theorem newline_not_mem_name {x : String} (h : IsName x) : '\n' ∉ x.toList := by
  obtain ⟨⟨c, cs, hx, hc, hcs⟩, _⟩ := h
  rw [hx]
  exact newline_not_mem_of_isNameChar
    (List.forall_mem_cons.2 ⟨isNameChar_of_isNameStart hc, hcs⟩)

theorem newline_not_mem_literalChar (c : Char) : '\n' ∉ literalChar c := by
  fun_cases literalChar c with
  | case5 _ hn => exact fun hmem => hn (List.mem_singleton.1 hmem).symm
  | _ => decide

theorem newline_not_mem_literal (text : String) : '\n' ∉ literal text := by
  have hbody : '\n' ∉ text.toList.flatMap literalChar := by
    rw [List.mem_flatMap]
    rintro ⟨c, _, hc⟩
    exact newline_not_mem_literalChar c hc
  rw [literal, List.mem_cons, List.mem_append, List.mem_singleton]
  rintro (h | h | h)
  · exact absurd h (by decide)
  · exact hbody h
  · exact absurd h (by decide)

theorem newline_not_mem_spelling (op : Operator) : '\n' ∉ op.spelling.toList := by
  cases op <;> decide

/-! The induction is on the tree, with one case for each form that is printed. -/

mutual

theorem onOneLine_write : ∀ e : Expr, e.Proper Unsigned → OnOneLine e.write
  | .int n, h => by
    have hn : '\n' ∉ writeInt n := by
      rw [writeInt_of_unsigned h]
      exact newline_not_mem_ofNat _
    exact .append hn .id
  | .bool true, _ => .append (by decide) .id
  | .bool false, _ => .append (by decide) .id
  | .string text, _ => .append (newline_not_mem_literal text) .id
  | .null, _ => .append (by decide) .id
  | .variable _, h => .append (newline_not_mem_name h) .id
  | .binary op left right, h => by
    have hright := (onOneLine_write right h.2).comp (.cons (c := ')') (by decide) .id)
    have hop := OnOneLine.append (newline_not_mem_spelling op) (.cons (c := ' ') (by decide) hright)
    have hleft := (onOneLine_write left h.1).comp (.cons (c := ' ') (by decide) hop)
    exact .cons (by decide) hleft
  | .call _ es, h =>
    .append (newline_not_mem_name h.1) (.cons (by decide)
      ((onOneLine_writeAll es h.2).comp (.cons (by decide) .id)))

theorem onOneLine_writeAll : ∀ es : List Expr, Expr.AllProper Unsigned es →
    OnOneLine (Expr.writeAll es)
  | [], _ => .id
  | [e], h => onOneLine_write e h.1
  | e :: e' :: es, h =>
    (onOneLine_write e h.1).comp (.cons (by decide) (.cons (by decide)
      (onOneLine_writeAll (e' :: es) h.2)))

end

theorem onOneLine_writeNames {xs : List String} (h : ∀ x ∈ xs, IsName x) :
    OnOneLine (writeNames xs) := by
  induction xs with
  | nil => exact .id
  | cons x xs ih =>
    obtain ⟨hx, hxs⟩ := List.forall_mem_cons.1 h
    cases xs with
    | nil => exact .append (newline_not_mem_name hx) .id
    | cons y ys =>
      exact .append (newline_not_mem_name hx) (.cons (by decide) (.cons (by decide) (ih hxs)))

theorem endsLine_block (opening : List Char) {body : List Char → List Char}
    (hopening : '\n' ∉ opening) (h : OnOneLine body) :
    EndsLine fun after => opening ++ body (blockEnd ++ after) := by
  have hspace : OnOneLine fun after => opening ++ body (' ' :: after) :=
    .append hopening (h.comp (.cons (by decide) .id))
  exact hspace.endsLine (c := '}') (by decide) (by decide)

mutual

theorem endsLine_write : ∀ s : Statement, s.Proper Unsigned → EndsLine s.write
  | .expression e, h => (onOneLine_write e h).endsLine (by decide) (by decide)
  | .assign _ e, h => by
    have hvalue := OnOneLine.append (u := " = ".toList) (by decide) (onOneLine_write e h.2)
    exact (OnOneLine.append (newline_not_mem_name h.1) hvalue).endsLine (by decide) (by decide)
  | .branch c body none, h => by
    have hhead := OnOneLine.append (u := "if (".toList) (by decide) (onOneLine_write c h.1)
    have hblock := endsLine_block intoBlock (by decide) (onOneLine_writeAllStatements body h.2)
    exact hhead.comp_endsLine hblock
  | .branch c body (some otherwise), h => by
    have hhead := OnOneLine.append (u := "if (".toList) (by decide) (onOneLine_write c h.1)
    have hbody := OnOneLine.append (u := intoBlock) (by decide)
      (onOneLine_writeAllStatements body h.2.1)
    have helse := endsLine_block intoElse (by decide)
      (onOneLine_writeAllStatements otherwise h.2.2)
    exact hhead.comp_endsLine (hbody.comp_endsLine helse)
  | .loop c body, h => by
    have hhead := OnOneLine.append (u := "while (".toList) (by decide) (onOneLine_write c h.1)
    have hblock := endsLine_block intoBlock (by decide) (onOneLine_writeAllStatements body h.2)
    exact hhead.comp_endsLine hblock

theorem onOneLine_writeAllStatements : ∀ ss : List Statement,
    Statement.AllProper Unsigned ss → OnOneLine (Statement.writeAll ss)
  | [], _ => .id
  | s :: ss, h =>
    .cons (by decide) ((endsLine_write s h.1).onOneLine.comp
      (onOneLine_writeAllStatements ss h.2))

end

theorem endsLine_writeAtTop {s : Statement} (h : s.ProperAtTop Unsigned) :
    EndsLine s.write := by
  cases s with
  | define f params body =>
    obtain ⟨hf, hparams, hbody⟩ := h
    have hblock := endsLine_block intoBlock (by decide)
      (onOneLine_writeAllStatements body hbody)
    have hnames := OnOneLine.cons (c := '(') (by decide) (onOneLine_writeNames hparams)
    have hhead := OnOneLine.append (u := "def ".toList) (by decide)
      (OnOneLine.append (newline_not_mem_name hf) hnames)
    exact hhead.comp_endsLine hblock
  | _ => exact endsLine_write _ h

/-! ### What a line starts with -/

def OpensLine (c : Char) : Prop :=
  Text.isWhite c = false ∧ c ≠ ':'

instance (c : Char) : Decidable (OpensLine c) :=
  inferInstanceAs (Decidable (_ ∧ _))

theorem opensLine_of_isNameChar {c : Char} (h : isNameChar c = true) : OpensLine c := by
  refine ⟨Lexicon.not_isWhite_of_isNameChar h, ?_⟩
  rintro rfl
  revert h
  decide

def StartsLine (text : List Char) : Prop :=
  ∃ c rest, text = c :: rest ∧ OpensLine c

theorem startsLine_name {x : String} (h : IsName x) (after : List Char) :
    StartsLine (x.toList ++ after) := by
  obtain ⟨⟨c, cs, hx, hc, _⟩, _⟩ := h
  exact ⟨c, cs ++ after, by rw [hx]; rfl, opensLine_of_isNameChar (isNameChar_of_isNameStart hc)⟩

theorem startsLine_write {e : Expr} (h : e.Proper Unsigned) (after : List Char) :
    StartsLine (e.write after) := by
  cases e with
  | int n =>
    obtain ⟨d, ds, hdigits⟩ : ∃ d ds, Numeral.ofNat n.toInt.natAbs = d :: ds :=
      List.exists_cons_of_ne_nil Nat.toDigits_ne_nil
    have hd : d.isDigit = true := by
      apply Numeral.isDigit_of_mem_ofNat (n := n.toInt.natAbs)
      rw [hdigits]
      exact List.mem_cons_self
    rw [Expr.write_int, writeInt_of_unsigned h, hdigits]
    exact ⟨d, ds ++ after, rfl, opensLine_of_isNameChar (isNameChar_of_isDigit hd)⟩
  | bool b => cases b <;> exact ⟨_, _, rfl, by decide⟩
  | «variable» x => exact startsLine_name h after
  | call f es => exact startsLine_name h.1 _
  | _ => exact ⟨_, _, rfl, by decide⟩

theorem startsLine_writeAtTop {s : Statement} (h : s.ProperAtTop Unsigned) (after : List Char) :
    StartsLine (s.write after) := by
  cases s with
  | expression e => exact startsLine_write h _
  | assign x e => exact startsLine_name h.1 _
  | branch c body otherwise => cases otherwise <;> exact ⟨_, _, rfl, by decide⟩
  | _ => exact ⟨_, _, rfl, by decide⟩

/-! ### The lines of a printed program -/

theorem newline_not_mem_writeAtTop {s : Statement} (h : s.ProperAtTop Unsigned) :
    '\n' ∉ s.write [] := by
  obtain ⟨u, hu, _, hs⟩ := endsLine_writeAtTop h
  rwa [hs, List.append_nil]

theorem write_eq_append {s : Statement} (h : s.ProperAtTop Unsigned) (after : List Char) :
    s.write after = s.write [] ++ after := by
  obtain ⟨u, _, _, hs⟩ := endsLine_writeAtTop h
  rw [hs, hs [], List.append_nil]

/-- Each line is the print of one statement. -/
theorem lines_writeLines {ss : List Statement} (h : ∀ s ∈ ss, s.ProperAtTop Unsigned) :
    Text.lines (writeLines ss []) = ss.map (·.write []) := by
  induction ss with
  | nil => rfl
  | cons s ss ih =>
    obtain ⟨hs, hss⟩ := List.forall_mem_cons.1 h
    have hline := newline_not_mem_writeAtTop hs
    cases ss with
    | nil =>
      obtain ⟨c, rest, hc, _⟩ := startsLine_writeAtTop hs []
      have hne : s.write [] ≠ [] := by
        rw [hc]
        nofun
      exact Text.lines_of_not_mem hline hne
    | cons s' ss =>
      have hwrite : writeLines (s :: s' :: ss) [] = s.write ('\n' :: writeLines (s' :: ss) []) :=
        rfl
      rw [hwrite, write_eq_append hs, Text.lines_append_newline hline, ih hss]
      rfl

theorem count_newline_writeLines {ss : List Statement} (h : ∀ s ∈ ss, s.ProperAtTop Unsigned) :
    (writeLines ss []).count '\n' = ss.length - 1 := by
  induction ss with
  | nil => rfl
  | cons s ss ih =>
    obtain ⟨hs, hss⟩ := List.forall_mem_cons.1 h
    have hline := List.count_eq_zero.2 (newline_not_mem_writeAtTop hs)
    cases ss with
    | nil => exact hline
    | cons s' ss =>
      have hwrite : writeLines (s :: s' :: ss) [] = s.write ('\n' :: writeLines (s' :: ss) []) :=
        rfl
      rw [hwrite, write_eq_append hs, List.count_append, hline, List.count_cons_self, ih hss]
      simp

theorem trim_of_ink {line : List Char} (h : StartsLine line) (h' : Lexicon.EndsInInk line) :
    Text.trim line = line := by
  obtain ⟨c, rest, rfl, hc, _⟩ := h
  obtain ⟨u, d, hu, hd⟩ := h'
  have hlast : (c :: rest).reverse = d :: u.reverse := by
    rw [hu, List.reverse_append]
    rfl
  rw [Text.trim, List.dropWhile_cons_of_neg (by simp [hc]), hlast,
    List.dropWhile_cons_of_neg (by simp [hd]), ← hlast, List.reverse_reverse]

/-- The line holds the statement and nothing else, and is taken as it is. -/
structure HoldsAlone (line : List Char) (s : Statement) : Prop where
  known : firstUnknown? (tokenize (String.ofList line)) = none
  parse : parse (tokenize (String.ofList line)) = .ok ⟨[s]⟩
  noCommand : ∀ rest, line ≠ ':' :: rest
  trim : Text.trim line = line

theorem holdsAlone_write {s : Statement} (h : s.ProperAtTop Unsigned) :
    HoldsAlone (s.write []) s := by
  -- the line is what the program of this one statement is printed as
  have hparse : parse (tokenize (String.ofList (s.write []))) = .ok ⟨[s]⟩ :=
    parse_print (s := ⟨[s]⟩) (List.forall_mem_singleton.2 h)
  have hstarts := startsLine_writeAtTop h []
  have hends : Lexicon.EndsInInk (s.write []) := by
    obtain ⟨u, _, hu, hs⟩ := endsLine_writeAtTop h
    rwa [hs, List.append_nil]
  refine ⟨firstUnknown?_of_parse hparse, hparse, fun rest hrest => ?_, trim_of_ink hstarts hends⟩
  obtain ⟨c, rest', hc, _, hcolon⟩ := hstarts
  rw [hrest] at hc
  exact hcolon (List.cons.inj hc).1.symm

/-! ### Running the lines in turn -/

/-- Texts are run one after the other, each under the environment that the one
before it leaves and after what has been observed in it, until one fails. The
value is that of the last, or the value given if there is none. -/
inductive RunsInTurn : Value → Environment → Trace → List String →
    Outcome Failure (Value × Environment) → Trace → Prop
  | none (value : Value) (env : Environment) (before : Trace) :
      RunsInTurn value env before [] (.done (value, env)) []
  | next {value v : Value} {env env₁ : Environment} {text : String} {texts : List String}
      {outcome : Outcome Failure (Value × Environment)} {before first rest : Trace} :
      Runs text env before (.done (v, env₁)) first →
      RunsInTurn v env₁ (first ++ before) texts outcome rest →
      RunsInTurn value env before (text :: texts) outcome (rest ++ first)
  | fails {value : Value} {env : Environment} {text : String} {texts : List String}
      {e : Failure} {before trace : Trace} :
      Runs text env before (.failed e) trace →
      RunsInTurn value env before (text :: texts) (.failed e) trace

theorem runs_of_read_singleton {text : String} {s : Statement} (h : read text = .ok ⟨[s]⟩)
    {env : Environment} {outcome : Outcome Failure (Value × Environment)} {before trace : Trace} :
    Runs text env before outcome trace ↔ ∃ o, outcome = o.mapError .evaluation ∧
      Yields (statement · s env) before o (trace ++ before) := by
  rw [runs_of_read h]
  simp only [yields_statements_singleton]

/-- Statements in a row run as texts do that hold one of them each. The
induction is on the statements. -/
theorem runsInTurn_iff {texts : List String} {ss : List Statement}
    (h : List.Forall₂ (fun text s => read text = .ok ⟨[s]⟩) texts ss) (value : Value)
    (env : Environment) (before : Trace) (outcome : Outcome Failure (Value × Environment))
    (trace : Trace) :
    RunsInTurn value env before texts outcome trace ↔ ∃ o, outcome = o.mapError .evaluation ∧
      Yields (statements · value ss env) before o (trace ++ before) := by
  induction h generalizing value env before outcome trace with
  | nil =>
    simp only [yields_statements_nil]
    constructor
    · rintro ⟨⟩
      exact ⟨_, rfl, rfl, rfl⟩
    · rintro ⟨_, rfl, rfl, htrace⟩
      rw [List.append_left_eq_self.1 htrace]
      exact .none value env before
  | @cons text s texts ss hread _ ih =>
    simp only [yields_statements_cons_iff]
    constructor
    · rintro (_ | ⟨hrun, hruns⟩ | hrun)
      · obtain ⟨o₁, ho₁, hfirst⟩ := (runs_of_read_singleton hread).1 hrun
        cases o₁ <;> cases ho₁
        obtain ⟨o, rfl, hrest⟩ := (ih _ _ _ _ _).1 hruns
        rw [← List.append_assoc] at hrest
        exact ⟨o, rfl, .inl ⟨_, _, _, hfirst, hrest⟩⟩
      · obtain ⟨o, ho, hfails⟩ := (runs_of_read_singleton hread).1 hrun
        cases o <;> cases ho
        exact ⟨_, rfl, .inr ⟨_, rfl, hfails⟩⟩
    · rintro ⟨o, rfl, ⟨v, env₁, trace₁, hfirst, hrest⟩ | ⟨e, rfl, hfails⟩⟩
      · obtain ⟨first, rfl⟩ := hfirst.adds (steady_statement s env)
        obtain ⟨rest, rfl, hadds⟩ := hrest.adds_to (steady_statements v ss env₁)
        exact .next ((runs_of_read_singleton hread).2 ⟨_, rfl, hfirst⟩)
          ((ih _ _ _ _ _).2 ⟨o, rfl, hadds⟩)
      · exact .fails ((runs_of_read_singleton hread).2 ⟨_, rfl, hfails⟩)

/-- A printed program is taken line by line. A well-formed program is printed
with one newline less than it has statements. Each line holds the statement in
its place and nothing else: it has no unknown token, it starts with no colon, and
trimming leaves it as it is. To run the lines in turn, each under the
environment that the one before it leaves, is to evaluate the program: the value
and the environment are the same and so is what has been observed, and if the
program fails then the first line that fails does so with the same error. -/
theorem printed_programs_run_line_by_line {s : Source} (hs : s.WellFormed) :
    s.print.toList.count '\n' = s.statements.length - 1 ∧
    List.Forall₂ HoldsAlone (Text.lines s.print.toList) s.statements ∧
    ∀ env before outcome trace,
      RunsInTurn .null env before ((Text.lines s.print.toList).map String.ofList) outcome trace ↔
        ∃ o, outcome = o.mapError .evaluation ∧
          Yields (Node.evaluate · (.source s) env) before o (trace ++ before) := by
  have hlines : Text.lines s.print.toList = s.statements.map (·.write []) := by
    rw [Source.print, String.toList_ofList]
    exact lines_writeLines hs
  have hholds : List.Forall₂ HoldsAlone (Text.lines s.print.toList) s.statements := by
    rw [hlines, List.forall₂_map_left_iff, List.forall₂_same]
    exact fun t ht => holdsAlone_write (hs t ht)
  refine ⟨?_, hholds, ?_⟩
  · rw [Source.print, String.toList_ofList]
    exact count_newline_writeLines hs
  · have hreads : List.Forall₂ (fun text t => read text = .ok ⟨[t]⟩)
        ((Text.lines s.print.toList).map String.ofList) s.statements := by
      rw [List.forall₂_map_left_iff]
      exact hholds.imp fun _ _ h => read_eq_ok_iff_parse.2 h.parse
    exact runsInTurn_iff hreads .null

def Source.breakingOff : Source :=
  ⟨[.define "f" ["x"] [.expression (.call "print" [.variable "x"]),
      .branch (.variable "x") [.expression (.string "a\nb")] (some [])],
    .assign "y" (.call "f" [.int 7]),
    .expression (.binary .divide (.variable "x") (.int 0)),
    .expression (.call "print" [.variable "y"])]⟩

theorem printed_programs_run_line_by_line_breaking_off :
    Source.breakingOff.WellFormed ∧ Source.breakingOff.print.toList.count '\n' = 3 ∧
      RunsInTurn .null .prelude []
        ((Text.lines Source.breakingOff.print.toList).map String.ofList)
        (.failed (.evaluation (.typeMismatch .divide .null .int))) [.printed "7\n"] := by
  have hf : IsName "f" := ⟨⟨'f', [], rfl, rfl, nofun⟩, by decide⟩
  have hx : IsName "x" := ⟨⟨'x', [], rfl, rfl, nofun⟩, by decide⟩
  have hy : IsName "y" := ⟨⟨'y', [], rfl, rfl, nofun⟩, by decide⟩
  have hprint : IsName "print" :=
    ⟨⟨'p', ['r', 'i', 'n', 't'], rfl, rfl, List.all_eq_true.1 rfl⟩, by simp [keywords]⟩
  have hs : Source.breakingOff.WellFormed := by
    simp only [Source.WellFormed, Source.Proper, Source.breakingOff, List.forall_mem_cons,
      Statement.ProperAtTop, Statement.AllProper, Statement.Proper, Expr.Proper, Expr.AllProper]
    simp [hf, hx, hy, hprint, Unsigned]
  obtain ⟨hcount, _, hruns⟩ := printed_programs_run_line_by_line hs
  exact ⟨hs, hcount, (hruns _ _ _ _).2
    ⟨.failed (.typeMismatch .divide .null .int), rfl, nofun, 20, rfl⟩⟩

end Script
