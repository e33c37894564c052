import Script.Proofs.LineByLine
import Script.Proofs.Lexicon.Division
import Script.Proofs.Plain

/-!
# Shown values read back

A value is shown as text, and the text is nearly always an expression for the
value. There are two exceptions. The digits of the least integer are too large
for an integer without its sign. And strings are shown with more escapes than
are resolved when a string is read: a character written by one of the others
comes back as the text of its escape.
-/

set_option autoImplicit false

namespace Script
open Piece Grammar Evaluation Lexicon

/-! ### Escapes that are not resolved -/

namespace Text

/-- The character is shown by an escape that is not resolved when it is read. -/
def IsCoded (c : Char) : Prop :=
  escaped c = ['\\', '0'] ∨ escaped c = ['\\', 'r'] ∨ escaped c = codePoint c

instance (c : Char) : Decidable (IsCoded c) :=
  inferInstanceAs (Decidable (_ ∨ _ ∨ _))

def rereadChar (c : Char) : List Char :=
  if IsCoded c then escaped c else [c]

def reread (text : String) : String :=
  String.ofList (text.toList.flatMap rereadChar)

theorem rereadChar_of_not_isCoded {c : Char} (h : ¬ IsCoded c) : rereadChar c = [c] :=
  if_neg h

theorem rereadChar_of_isCoded {c : Char} (h : IsCoded c) : rereadChar c = escaped c :=
  if_pos h

theorem exists_digitChar_of_mem_toDigits (n : Nat) {c : Char} (h : c ∈ Nat.toDigits 16 n) :
    ∃ d < 16, c = Nat.digitChar d := by
  induction n using Nat.strongRecOn with
  | ind n ih =>
    by_cases hn : n < 16
    · rw [Nat.toDigits_of_lt_base hn, List.mem_singleton] at h
      exact ⟨n, hn, h⟩
    · rw [Nat.toDigits_of_base_le (by decide) (Nat.not_lt.1 hn), List.mem_append,
        List.mem_singleton] at h
      obtain h | h := h
      · exact ih (n / 16) (by omega) h
      · exact ⟨n % 16, by omega, h⟩

theorem digitChar_plain : ∀ d < 16, Nat.digitChar d ≠ '"' ∧ Nat.digitChar d ≠ '\\' := by
  decide

theorem quotes_codePoint (c : Char) {w v : List Char} (h : Quotes w v) :
    Quotes (codePoint c ++ w) (codePoint c ++ v) := by
  have hplain (u : List Char) (hu : ∀ d ∈ u, d ≠ '"' ∧ d ≠ '\\') : Quotes (u ++ w) (u ++ v) := by
    induction u with
    | nil => exact h
    | cons d u ih =>
      obtain ⟨⟨hq, hb⟩, hu⟩ := List.forall_mem_cons.1 hu
      exact .plain hq hb (ih hu)
  refine .other (by decide) (hplain ('{' :: (Nat.toDigits 16 c.toNat ++ ['}'])) fun d hd => ?_)
  rw [List.mem_cons, List.mem_append, List.mem_singleton] at hd
  obtain rfl | hd | rfl := hd
  · decide
  · obtain ⟨n, hn, rfl⟩ := exists_digitChar_of_mem_toDigits _ hd
    exact digitChar_plain n hn
  · decide

/-- What is written for a character between quotes means what comes back. -/
theorem quotes_escaped (c : Char) {w v : List Char} (h : Quotes w v) :
    Quotes (escaped c ++ w) (rereadChar c ++ v) := by
  fun_cases escaped c with
  | case1 =>
    rw [rereadChar_of_isCoded (by decide)]
    exact .other (by decide) h
  | case2 =>
    rw [rereadChar_of_not_isCoded (by decide)]
    exact .tab h
  | case3 =>
    rw [rereadChar_of_isCoded (by decide)]
    exact .other (by decide) h
  | case4 =>
    rw [rereadChar_of_not_isCoded (by decide)]
    exact .newline h
  | case5 =>
    rw [rereadChar_of_not_isCoded (by decide)]
    exact .quote h
  | case6 =>
    rw [rereadChar_of_not_isCoded (by decide)]
    exact .backslash h
  | case7 _ _ _ _ _ hq hb hshown =>
    have hself : escaped c = [c] := by
      rw [escaped, if_pos hshown] <;> assumption
    have hcoded : ¬ IsCoded c := by
      rw [IsCoded, hself]
      simp [codePoint]
    rw [rereadChar_of_not_isCoded hcoded]
    exact .plain hq hb h
  | case8 _ _ _ _ _ _ _ hshown =>
    have hcode : escaped c = codePoint c := by
      rw [escaped, if_neg hshown] <;> assumption
    rw [rereadChar_of_isCoded (.inr (.inr hcode)), hcode]
    exact quotes_codePoint c h

theorem quotes_reread (text : String) :
    Quotes (text.toList.flatMap escaped) (text.toList.flatMap rereadChar) := by
  induction text.toList with
  | nil => exact .nil
  | cons c cs ih =>
    rw [List.flatMap_cons, List.flatMap_cons]
    exact quotes_escaped c ih

theorem one_lt_length_of_isCoded {c : Char} (h : IsCoded c) : 1 < (escaped c).length := by
  rcases h with h | h | h <;> rw [h] <;> simp [codePoint]

theorem one_le_length_rereadChar (c : Char) : 1 ≤ (rereadChar c).length := by
  by_cases h : IsCoded c
  · rw [rereadChar_of_isCoded h]
    exact Nat.le_of_lt (one_lt_length_of_isCoded h)
  · rw [rereadChar_of_not_isCoded h]
    rfl

theorem length_le_length_reread (cs : List Char) :
    cs.length ≤ (cs.flatMap rereadChar).length := by
  induction cs with
  | nil => rfl
  | cons c cs ih =>
    have hc := one_le_length_rereadChar c
    rw [List.flatMap_cons, List.length_append, List.length_cons]
    omega

theorem reread_eq_iff (text : String) :
    reread text = text ↔ ∀ c ∈ text.toList, ¬ IsCoded c := by
  have hlist (cs : List Char) : cs.flatMap rereadChar = cs ↔ ∀ c ∈ cs, ¬ IsCoded c := by
    induction cs with
    | nil => simp
    | cons c cs ih =>
      rw [List.flatMap_cons, List.forall_mem_cons]
      by_cases hc : IsCoded c
      · -- the text has become longer
        refine iff_of_false (fun heq => ?_) fun h => h.1 hc
        have hlength := congrArg List.length heq
        have hfirst := one_lt_length_of_isCoded hc
        have hrest := length_le_length_reread cs
        rw [rereadChar_of_isCoded hc, List.length_append, List.length_cons] at hlength
        omega
      · rw [rereadChar_of_not_isCoded hc, List.singleton_append, List.cons.injEq, ih]
        simp [hc]
  rw [← hlist, reread, ← String.toList_inj, String.toList_ofList]

end Text

/-! ### The text of a value as a program -/

def Value.line (v : Value) : String :=
  String.ofList (v.display ++ [';'])

theorem lexed_line (v : Value) : lexed v.line.toList = lexed (v.display ++ [';']) := by
  rw [Value.line, String.toList_ofList]

theorem lexed_end : lexed [';'] = [.semicolon] := by
  rw [lexed_semicolon, lexed_nil]

theorem read_line_of_spells {v : Value} {t : Token} {e : Expr} (hv : Spells v.display t)
    (ht : Atom t e) : read v.line = .ok ⟨[.expression e]⟩ := by
  have hknown : ∀ text, t ≠ .unknown text := by
    cases ht <;> simp
  have hchain : Chain .comparison [t] e := .operand ((Unary.atom ht).operand _)
  apply read_of_program
  rw [lexed_line, lexed_spelled hv hknown (apart_semicolon []), lexed_end]
  exact .cons (.clause (.expression hchain)) .nil

theorem display_of_nonneg {n : Int64} (h : Unsigned n) :
    (Value.int n).display = Numeral.ofNat n.toInt.natAbs := by
  obtain ⟨k, hk⟩ := Int.eq_ofNat_of_zero_le h
  rw [Value.display, hk]
  rfl

theorem display_of_neg {m n : Int64} (hmn : m.toInt = -n.toInt) (h : n.toInt < 0) :
    (Value.int n).display = '-' :: Numeral.ofNat m.toInt.natAbs := by
  rw [hmn, Int.natAbs_neg, Value.display]
  cases hn : n.toInt with
  | ofNat k =>
    rw [hn] at h
    exact absurd h (Int.not_lt.2 (Int.natCast_nonneg k))
  | negSucc k => rfl

theorem read_line_int {n : Int64} (hmin : n ≠ Int64.minValue) :
    read (Value.int n).line = .ok ⟨[.expression (plainInt n)]⟩ := by
  obtain ⟨rfl, _⟩ | ⟨m, hm, hmn, _, hneg, hplain⟩ | ⟨hn, hplain⟩ := plainInt_cases n
  · exact absurd rfl hmin
  · have hminus (rest : List Char) : lexed ('-' :: rest) = .minus :: lexed rest :=
      lexed_of_first rfl
    have hchain : Chain .comparison [.minus, .int m] (plainInt n) := by
      rw [hplain]
      exact .operand ((Unary.minus (.atom (.int m))).operand _)
    apply read_of_program
    rw [lexed_line, display_of_neg hmn hneg, List.cons_append, hminus,
      lexed_spelled (spells_int hm) (by simp) (apart_semicolon []), lexed_end]
    exact .cons (.clause (.expression hchain)) .nil
  · rw [hplain]
    apply read_line_of_spells _ (.int n)
    rw [display_of_nonneg hn]
    exact spells_int hn

theorem read_line_least : read (Value.int Int64.minValue).line =
    .error (.unknownText "9223372036854775808" 1) := by
  cbv

theorem read_line_string (text : String) :
    read (Value.string text).line = .ok ⟨[.expression (.string (Text.reread text))]⟩ := by
  refine read_line_of_spells ?_ (.string _)
  have hfirst := first_closedString (Text.quotes_reread text) []
  rw [List.append_nil] at hfirst
  exact spells_of_first hfirst

/-! ### Running the text of a value -/

/-- The value is shown as an expression for itself: it is not the least integer
and holds no character that is shown by an escape which is not resolved. -/
def Value.ReadsBack (v : Value) : Prop :=
  v ≠ .int Int64.minValue ∧ ∀ text, v = .string text → ∀ c ∈ text.toList, ¬ Text.IsCoded c

section
variable {line text : String} {e : Expr} {v : Value} {env : Environment}
  {outcome : Outcome Failure (Value × Environment)} {before trace : Trace}

theorem runs_line_iff (h : read line = .ok ⟨[.expression e]⟩) (fuel : Nat)
    (he : expr fuel e env = pure (v, env)) :
    Runs line env before outcome trace ↔ outcome = .done (v, env) ∧ trace = [] := by
  have hs : Yields (statement · (.expression e) env) before (.done (v, env)) before :=
    ⟨nofun, fuel + 1, congrFun he before⟩
  rw [runs_of_read_singleton h]
  constructor
  · rintro ⟨o, rfl, ho⟩
    obtain ⟨rfl, htrace⟩ := ho.unique (steady_statement _ env) hs
    exact ⟨rfl, List.append_left_eq_self.1 htrace⟩
  · rintro ⟨rfl, rfl⟩
    exact ⟨.done (v, env), rfl, hs⟩

theorem runs_least_iff : Runs (Value.int Int64.minValue).line env before outcome trace ↔
    outcome = .failed (.unknownText "9223372036854775808" 1) ∧ trace = [] :=
  runs_of_read_error read_line_least

theorem runs_string_iff : Runs (Value.string text).line env before outcome trace ↔
    outcome = .done (.string (Text.reread text), env) ∧ trace = [] :=
  runs_line_iff (read_line_string text) 1 rfl

theorem runs_done_of_no_string (hmin : v ≠ .int Int64.minValue) (hv : ∀ text, v ≠ .string text) :
    Runs v.line env before outcome trace ↔ outcome = .done (v, env) ∧ trace = [] := by
  cases v with
  | int n => exact runs_line_iff (read_line_int fun h => hmin (h ▸ rfl)) 3 (expr_plainInt 0 n env)
  | bool b =>
    have hspells : Spells (Value.bool b).display (.bool b) := by
      cases b <;> exact spells_of_first rfl
    exact runs_line_iff (read_line_of_spells hspells (.bool b)) 1 rfl
  | string text => exact absurd rfl (hv text)
  | null =>
    have hspells : Spells Value.null.display .nullWord := spells_of_first rfl
    exact runs_line_iff (read_line_of_spells hspells .null) 1 rfl

end

/-- Shown values read back. The line that shows a value runs to that very value
and leaves the environment, exactly if the value is not the least integer and
holds no character that is shown by an escape which is not resolved. The digits
of the least integer are an unknown word. A string with other escapes runs as
well, to the string in which each such character has become the text of its
escape. -/
theorem shown_values_read_back (env : Environment) (before : Trace) :
    (∀ v trace, Runs v.line env before (.done (v, env)) trace ↔ v.ReadsBack ∧ trace = []) ∧
    (∀ outcome trace, Runs (Value.int Int64.minValue).line env before outcome trace ↔
      outcome = .failed (.unknownText "9223372036854775808" 1) ∧ trace = []) ∧
    ∀ text outcome trace, Runs (Value.string text).line env before outcome trace ↔
      outcome = .done (.string (Text.reread text), env) ∧ trace = [] := by
  refine ⟨fun v trace => ?_, fun _ _ => runs_least_iff, fun _ _ _ => runs_string_iff⟩
  by_cases hmin : v = .int Int64.minValue
  · subst hmin
    rw [runs_least_iff]
    simp [Value.ReadsBack]
  by_cases hstring : ∃ text, v = .string text
  · obtain ⟨text, rfl⟩ := hstring
    rw [runs_string_iff, Value.ReadsBack]
    simp only [ne_eq, hmin, not_false_eq_true, true_and, Value.string.injEq, forall_eq',
      Outcome.done.injEq, Prod.mk.injEq, and_true]
    rw [eq_comm, Text.reread_eq_iff]
  · have hv : ∀ text, v ≠ .string text := fun text h => hstring ⟨text, h⟩
    rw [runs_done_of_no_string hmin hv]
    simp [Value.ReadsBack, hmin, hv]

example : Text.reread "\x07 and \t" = "\\u\x7b7\x7d and \t" := by
  cbv

end Script
