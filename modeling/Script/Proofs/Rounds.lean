import Script.Proofs.Uniform

/-!
# Loops, round by round

A loop is the sequence of its rounds. A round is one test that holds and one
run of the body after it, under the environment that the round before it has
left. The loop ends where a test does not hold, or where a test or the body of
a round fails. Since a test leaves the environment as it is, the test that ends
a loop comes out the same when the loop is run once more.
-/

set_option autoImplicit false

namespace Script
open Evaluation

/-! ### Rounds -/

def Tests (condition : Expr) (env : Environment) (base : Trace) (holds : Bool)
    (events : Trace) : Prop :=
  ∃ test env', Yields (expr · condition env) base (.done (test, env')) (events ++ base) ∧
    test.isTruthy = holds

/-- What one round of a loop gives: the value of the body, the environment that
it leaves, and what is observed in the test and in the body. -/
structure Round where
  value : Value
  env : Environment
  events : Trace

def Round.observed (rounds : List Round) : Trace :=
  rounds.reverse.flatMap Round.events

theorem Round.observed_cons (r : Round) (rounds : List Round) :
    observed (r :: rounds) = observed rounds ++ r.events := by
  simp only [observed, List.reverse_cons, List.flatMap_append, List.flatMap_singleton]

theorem Round.observed_cons_append (r : Round) (rounds : List Round) (base : Trace) :
    observed (r :: rounds) ++ base = observed rounds ++ (r.events ++ base) := by
  rw [observed_cons, List.append_assoc]

/-- Rounds in a row, from the environment before the first of them to the one
that the last of them leaves. -/
inductive Rounds (condition : Expr) (body : List Statement) :
    Environment → Trace → List Round → Environment → Prop
  | none (env : Environment) (base : Trace) : Rounds condition body env base [] env
  | next {env env₁ last : Environment} {value : Value} {base first second : Trace}
      {rounds : List Round} :
      Tests condition env base true first →
      Yields (statements · .null body env) (first ++ base) (.done (value, env₁))
        (second ++ (first ++ base)) →
      Rounds condition body env₁ (second ++ first ++ base) rounds last →
      Rounds condition body env base (⟨value, env₁, second ++ first⟩ :: rounds) last

/-- A round in which the test fails, or in which it holds and the body fails. -/
inductive BreaksOff (condition : Expr) (body : List Statement) (env : Environment)
    (base : Trace) (x : EvalError) : Trace → Prop
  | test {events : Trace} :
      Yields (expr · condition env) base (.failed x) (events ++ base) →
      BreaksOff condition body env base x events
  | body {first second : Trace} :
      Tests condition env base true first →
      Yields (statements · .null body env) (first ++ base) (.failed x)
        (second ++ (first ++ base)) →
      BreaksOff condition body env base x (second ++ first)

def Halts (condition : Expr) (body : List Statement) (env : Environment) (base : Trace) : Prop :=
  (∃ events, Tests condition env base false events) ∨
    ∃ x events, BreaksOff condition body env base x events

inductive Stops (condition : Expr) (body : List Statement) (value : Value) (env : Environment)
    (base : Trace) : Outcome EvalError (Value × Environment) → Trace → Prop
  | done {events : Trace} :
      Tests condition env base false events →
      Stops condition body value env base (.done (value, env)) events
  | failed {x : EvalError} {events : Trace} :
      BreaksOff condition body env base x events →
      Stops condition body value env base (.failed x) events

variable {condition : Expr} {body : List Statement} {env env' last last' : Environment}
  {value test : Value} {holds holds' : Bool} {rounds rounds' : List Round}
  {outcome : Outcome EvalError (Value × Environment)} {x : EvalError}
  {base events events' final trace : Trace}

theorem Tests.unique (h : Tests condition env base holds events)
    (h' : Tests condition env base holds' events') : holds = holds' ∧ events = events' := by
  obtain ⟨test, _, hrun, rfl⟩ := h
  obtain ⟨test', _, hrun', rfl⟩ := h'
  obtain ⟨hresult, hevents⟩ := hrun.unique (steady_expr condition env) hrun'
  cases hresult
  exact ⟨rfl, List.append_cancel_right hevents⟩

theorem Tests.not_failed (h : Tests condition env base holds events) :
    ¬ Yields (expr · condition env) base (.failed x) trace := by
  intro hfails
  obtain ⟨test, _, hrun, _⟩ := h
  cases (hrun.unique (steady_expr condition env) hfails).1

theorem Halts.not_round {first : Trace} (h : Halts condition body env base)
    (htest : Tests condition env base true first) :
    ¬ Yields (statements · .null body env) (first ++ base) (.done (value, env')) trace := by
  intro hbody
  rcases h with ⟨_, hfalse⟩ | ⟨_, _, hfails | ⟨htest', hfails⟩⟩
  · cases (htest.unique hfalse).1
  · exact htest.not_failed hfails
  · obtain rfl := (htest.unique htest').2
    cases (hbody.unique (steady_statements .null body env) hfails).1

/-- There is one sequence of rounds after which no other can follow. -/
theorem Rounds.unique (h : Rounds condition body env base rounds last)
    (hlast : Halts condition body last (Round.observed rounds ++ base))
    (h' : Rounds condition body env base rounds' last')
    (hlast' : Halts condition body last' (Round.observed rounds' ++ base)) :
    rounds = rounds' ∧ last = last' := by
  induction h generalizing rounds' with
  | none env base =>
    cases h' with
    | none => exact ⟨rfl, rfl⟩
    | next htest hbody _ => exact absurd hbody (hlast.not_round htest)
  | @next env env₁ last value base first second rounds htest hbody _ ih =>
    cases h' with
    | none => exact absurd hbody (hlast'.not_round htest)
    | next htest' hbody' hrounds' =>
      obtain rfl := (htest.unique htest').2
      obtain ⟨hresult, hevents⟩ := hbody.unique (steady_statements .null body env) hbody'
      cases hresult
      obtain rfl := List.append_cancel_right hevents
      rw [Round.observed_cons_append] at hlast hlast'
      obtain ⟨rfl, hlasts⟩ := ih hlast hrounds' hlast'
      exact ⟨rfl, hlasts⟩

/-! ### From a run to its rounds -/

theorem tests_of_run {fuel : Nat}
    (h : expr fuel condition env base = (.done (test, env'), trace)) :
    env' = env ∧ ∃ events, trace = events ++ base ∧
      Tests condition env base test.isTruthy events := by
  have henv : env' = env := (expr_keeps fuel condition env).result h
  have hyields : Yields (expr · condition env) base (.done (test, env')) trace := ⟨nofun, fuel, h⟩
  obtain ⟨events, rfl⟩ := hyields.adds (steady_expr condition env)
  exact ⟨henv, events, rfl, test, env', hyields, rfl⟩

/-- The induction is on the fuel: what is left after one round is a loop again,
from the value and the environment of that round. -/
theorem rounds_of_loop (ho : outcome ≠ .exhausted) (fuel : Nat)
    (h : loop fuel value condition body env base = (outcome, trace)) :
    ∃ rounds last final, Rounds condition body env base rounds last ∧
      Stops condition body ((rounds.map Round.value).getLastD value) last
        (Round.observed rounds ++ base) outcome final ∧
      trace = final ++ (Round.observed rounds ++ base) := by
  induction fuel generalizing value env base with
  | zero =>
    cases h
    exact absurd rfl ho
  | succ fuel ih =>
    obtain ⟨⟨test, env'⟩, trace₁, htest, h⟩ | ⟨x, rfl, htest⟩ := bind_cases h ho
    · obtain ⟨rfl, first, rfl, hfirst⟩ := tests_of_run htest
      by_cases hholds : test.isTruthy = true
      · rw [hholds] at hfirst
        simp only [if_pos hholds] at h
        obtain ⟨⟨v, env₁⟩, trace₂, hbody, h⟩ | ⟨x, rfl, hbody⟩ := bind_cases h ho
        · have hbody : Yields (statements · .null body env') (first ++ base) (.done (v, env₁))
              trace₂ := ⟨nofun, fuel, hbody⟩
          obtain ⟨second, rfl⟩ := hbody.adds (steady_statements .null body env')
          obtain ⟨rounds, last, final, hrounds, hstops, rfl⟩ := ih h
          rw [← List.append_assoc second] at hrounds hstops ⊢
          refine ⟨⟨v, env₁, second ++ first⟩ :: rounds, last, final, .next hfirst hbody hrounds,
            ?_, ?_⟩
          · rw [List.map_cons, List.getLastD_cons, Round.observed_cons_append]
            exact hstops
          · rw [Round.observed_cons_append]
        · have hbody : Yields (statements · .null body env') (first ++ base) (.failed x) trace :=
            ⟨nofun, fuel, hbody⟩
          obtain ⟨second, rfl⟩ := hbody.adds (steady_statements .null body env')
          refine ⟨[], env', second ++ first, .none env' base, .failed (.body hfirst hbody), ?_⟩
          rw [List.append_assoc]
          rfl
      · rw [Bool.eq_false_iff.2 hholds] at hfirst
        simp only [if_neg hholds] at h
        cases h
        exact ⟨[], env', first, .none env' base, .done hfirst, rfl⟩
    · have hfails : Yields (expr · condition env) base (.failed x) trace := ⟨nofun, fuel, htest⟩
      obtain ⟨first, rfl⟩ := hfails.adds (steady_expr condition env)
      exact ⟨[], env, first, .none env base, .failed (.test hfails), rfl⟩

/-! ### From rounds to a run -/

theorem Tests.ends (h : Tests condition env base holds events) :
    ∃ test, test.isTruthy = holds ∧
      Ends (expr · condition env) base (.done (test, env)) (events ++ base) := by
  obtain ⟨test, env', hrun, hholds⟩ := h
  obtain rfl : env' = env := by
    obtain ⟨_, fuel, hfuel⟩ := hrun
    exact (tests_of_run hfuel).1
  exact ⟨test, hholds, hrun.ends (steady_expr condition env')⟩

theorem BreaksOff.ends (h : BreaksOff condition body env base x events) (value : Value) :
    Ends (loop · value condition body env) base (.failed x) (events ++ base) := by
  cases h with
  | test hfails =>
    have htest := hfails.ends (steady_expr condition env)
    exact htest.bind_of_failed.of_succ fun _ => rfl
  | @body first second htest hfails =>
    obtain ⟨test, hholds, htest⟩ := htest.ends
    have hbody := hfails.ends (steady_statements .null body env)
    rw [List.append_assoc]
    exact (htest.bind (hbody.bind_of_failed.ite_pos hholds)).of_succ fun _ => rfl

theorem Stops.ends (h : Stops condition body value env base outcome events) :
    Ends (loop · value condition body env) base outcome (events ++ base) := by
  cases h with
  | done htest =>
    obtain ⟨test, hholds, htest⟩ := htest.ends
    have hleave := Ends.pure (value, env) (events ++ base)
    exact (htest.bind (hleave.ite_neg (Bool.eq_false_iff.1 hholds))).of_succ fun _ => rfl
  | failed hbreaks => exact hbreaks.ends value

theorem Rounds.ends (h : Rounds condition body env base rounds last)
    (hstops : Stops condition body ((rounds.map Round.value).getLastD value) last
      (Round.observed rounds ++ base) outcome final) :
    Ends (loop · value condition body env) base outcome
      (final ++ (Round.observed rounds ++ base)) := by
  induction h generalizing value with
  | none env base => exact hstops.ends
  | @next env env₁ last v base first second rounds htest hbody _ ih =>
    rw [List.map_cons, List.getLastD_cons, Round.observed_cons_append] at hstops
    obtain ⟨test, hholds, htest⟩ := htest.ends
    have hbody := hbody.ends (steady_statements .null body env)
    have hrest := ih hstops
    rw [List.append_assoc second] at hrest
    rw [Round.observed_cons_append, List.append_assoc second]
    exact (htest.bind ((hbody.bind hrest).ite_pos hholds)).of_succ fun _ => rfl

/-! ### Loops are their rounds -/

theorem yields_loop_iff :
    Yields (statement · (.loop condition body) env) base outcome (trace ++ base) ↔
      ∃ rounds last final, Rounds condition body env base rounds last ∧
        Stops condition body ((rounds.map Round.value).getLastD .null) last
          (Round.observed rounds ++ base) outcome final ∧
        trace = final ++ Round.observed rounds := by
  constructor
  · rintro ⟨ho, fuel, hrun⟩
    cases fuel with
    | zero =>
      cases congrArg Prod.fst hrun
      exact absurd rfl ho
    | succ fuel =>
      obtain ⟨rounds, last, final, hrounds, hstops, htrace⟩ := rounds_of_loop ho fuel hrun
      rw [← List.append_assoc] at htrace
      exact ⟨rounds, last, final, hrounds, hstops, List.append_cancel_right htrace⟩
  · rintro ⟨rounds, last, final, hrounds, hstops, rfl⟩
    have ho : outcome ≠ .exhausted := by
      cases hstops <;> nofun
    have hends := hrounds.ends hstops
    rw [← List.append_assoc] at hends
    exact Ends.yields (hends.of_succ fun _ => rfl) ho

theorem tests_after_iff (h : env.Stateless) (base : Trace) :
    Tests condition env base holds events ↔ Tests condition env [] holds events := by
  have huniform (fuel : Nat) := expr_uniform fuel condition h
  simp only [Tests, Uniform.yields_iff huniform, List.append_nil]

theorem Rounds.stateless (h : Rounds condition body env base rounds last) (henv : env.Stateless) :
    last.Stateless := by
  induction h with
  | none => exact henv
  | next _ hbody _ ih =>
    obtain ⟨_, fuel, hbody⟩ := hbody
    exact ih ((statements_uniform fuel .null body henv).result hbody)

/-- Loops are their rounds. A loop gives a value if it comes through rounds to
an environment under which the condition does not hold: the environment is the
one it leaves, and the value is that of the last round, or null if there is none.
It fails if it comes to an environment under which the condition fails, or holds
and the body fails, with that error. What is observed is what is observed in the
rounds and then in the last test or the round that breaks off. There are no other
rounds that end so. A loop of stateless functions that has given a value gives
null when it is run again, leaves the environment and observes what its last test
did. -/
theorem loops_are_their_rounds (condition : Expr) (body : List Statement) (env : Environment)
    (base : Trace) :
    (∀ v last trace,
      Yields (statement · (.loop condition body) env) base (.done (v, last)) (trace ++ base) ↔
        ∃ rounds final, Rounds condition body env base rounds last ∧
          Tests condition last (Round.observed rounds ++ base) false final ∧
          v = (rounds.map Round.value).getLastD .null ∧ trace = final ++ Round.observed rounds) ∧
    (∀ x trace,
      Yields (statement · (.loop condition body) env) base (.failed x) (trace ++ base) ↔
        ∃ rounds last final, Rounds condition body env base rounds last ∧
          BreaksOff condition body last (Round.observed rounds ++ base) x final ∧
          trace = final ++ Round.observed rounds) ∧
    (∀ rounds rounds' last last', Rounds condition body env base rounds last →
      Halts condition body last (Round.observed rounds ++ base) →
      Rounds condition body env base rounds' last' →
      Halts condition body last' (Round.observed rounds' ++ base) →
        rounds = rounds' ∧ last = last') ∧
    (env.Stateless → ∀ v last trace,
      Yields (statement · (.loop condition body) env) base (.done (v, last)) (trace ++ base) →
        ∃ final, final <+: trace ∧ ∀ base',
          Yields (statement · (.loop condition body) last) base' (.done (.null, last))
            (final ++ base')) := by
  have hdone (v : Value) (last : Environment) (trace : Trace) :
      Yields (statement · (.loop condition body) env) base (.done (v, last)) (trace ++ base) ↔
        ∃ rounds final, Rounds condition body env base rounds last ∧
          Tests condition last (Round.observed rounds ++ base) false final ∧
          v = (rounds.map Round.value).getLastD .null ∧ trace = final ++ Round.observed rounds := by
    rw [yields_loop_iff]
    constructor
    · rintro ⟨rounds, _, final, hrounds, ⟨htest⟩, rfl⟩
      exact ⟨rounds, final, hrounds, htest, rfl, rfl⟩
    · rintro ⟨rounds, final, hrounds, htest, rfl, rfl⟩
      exact ⟨rounds, last, final, hrounds, .done htest, rfl⟩
  refine ⟨hdone, fun x trace => ?_, ?_, fun henv v last trace h => ?_⟩
  · rw [yields_loop_iff]
    constructor
    · rintro ⟨rounds, last, final, hrounds, ⟨_⟩ | ⟨hbreaks⟩, rfl⟩
      exact ⟨rounds, last, final, hrounds, hbreaks, rfl⟩
    · rintro ⟨rounds, last, final, hrounds, hbreaks, rfl⟩
      exact ⟨rounds, last, final, hrounds, .failed hbreaks, rfl⟩
  · intro rounds rounds' last last' hrounds hlast hrounds' hlast'
    exact hrounds.unique hlast hrounds' hlast'
  · obtain ⟨rounds, final, hrounds, htest, _, rfl⟩ := (hdone v last trace).1 h
    have hlast := hrounds.stateless henv
    refine ⟨final, List.prefix_append final _, fun base' => yields_loop_iff.2 ?_⟩
    have htest' := (tests_after_iff hlast base').2 ((tests_after_iff hlast _).1 htest)
    exact ⟨[], last, final, .none last base', .done htest', (List.append_nil final).symm⟩

def Environment.two : Environment :=
  prelude.setVariable "n" (.int 2)

def Environment.one : Environment :=
  two.setVariable "n" (.int 1)

def Environment.zero : Environment :=
  one.setVariable "n" (.int 0)

def Expr.printedPositive : Expr :=
  .binary .equal (.binary .equal (.call "print" [.variable "n"]) .null)
    (.binary .greater (.variable "n") (.int 0))

def Statement.countingDown : List Statement :=
  [.assign "n" (.binary .subtract (.variable "n") (.int 1)),
    .expression (.binary .add (.variable "n") (.int 5))]

def Round.countingDown : List Round :=
  [⟨.int 6, .one, [.printed "2\n"]⟩, ⟨.int 5, .zero, [.printed "1\n"]⟩]

theorem loops_are_their_rounds_counting_down :
    Rounds .printedPositive Statement.countingDown .two [] Round.countingDown .zero ∧
      Halts .printedPositive Statement.countingDown .zero (Round.observed Round.countingDown) ∧
      Yields (statement · (.loop .printedPositive Statement.countingDown) .two) []
        (.done (.int 5, .zero)) [.printed "0\n", .printed "1\n", .printed "2\n"] ∧
      (∀ rounds last, Rounds .printedPositive Statement.countingDown .two [] rounds last →
        Halts .printedPositive Statement.countingDown last (Round.observed rounds) →
          rounds = Round.countingDown ∧ last = .zero) ∧
      Environment.two.Stateless ∧
      ∃ final, final <+: [.printed "0\n", .printed "1\n", .printed "2\n"] ∧ ∀ base,
        Yields (statement · (.loop .printedPositive Statement.countingDown) .zero) base
          (.done (.null, .zero)) (final ++ base) := by
  obtain ⟨hdone, _, hunique, hagain⟩ :=
    loops_are_their_rounds .printedPositive Statement.countingDown .two []
  have htwo : Tests .printedPositive .two [] true [.printed "2\n"] :=
    ⟨.bool true, _, ⟨nofun, 20, rfl⟩, rfl⟩
  have hone : Tests .printedPositive .one [.printed "2\n"] true [.printed "1\n"] :=
    ⟨.bool true, _, ⟨nofun, 20, rfl⟩, rfl⟩
  have hzero : Tests .printedPositive .zero (Round.observed Round.countingDown ++ []) false
      [.printed "0\n"] :=
    ⟨.bool false, _, ⟨nofun, 20, rfl⟩, rfl⟩
  have hfirst : Yields (statements · .null Statement.countingDown .two) [.printed "2\n"]
      (.done (.int 6, .one)) [.printed "2\n"] := ⟨nofun, 20, rfl⟩
  have hsecond : Yields (statements · .null Statement.countingDown .one)
      [.printed "1\n", .printed "2\n"] (.done (.int 5, .zero))
      [.printed "1\n", .printed "2\n"] := ⟨nofun, 20, rfl⟩
  have hrounds : Rounds .printedPositive Statement.countingDown .two [] Round.countingDown .zero :=
    @Rounds.next _ _ _ _ _ _ _ _ [] _ htwo hfirst
      (@Rounds.next _ _ _ _ _ _ _ _ [] _ hone hsecond (.none .zero _))
  have hhalts : Halts .printedPositive Statement.countingDown .zero
      (Round.observed Round.countingDown ++ []) := .inl ⟨_, hzero⟩
  have hruns := (hdone (.int 5) .zero _).2 ⟨_, _, hrounds, hzero, rfl, rfl⟩
  have hstateless : Environment.two.Stateless := Environment.stateless_prelude
  refine ⟨hrounds, by simpa using hhalts, hruns, fun rounds last h hlast => ?_, hstateless,
    hagain hstateless _ _ _ hruns⟩
  exact hunique _ _ _ _ h (by simpa using hlast) hrounds hhalts

end Script
