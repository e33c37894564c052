import Mathlib
import Script.Token.Pieces

/-!
# The rules of words

By which rules a text is divided, said without a scanner. Each rule allows
some words. At each place the rule decides that allows the longest word there,
and a kept word comes before a name. What the rule makes of its word may take
more of the text: a comment goes on to its end.

Where no rule allows a word, a string that is never closed is taken as far as
it goes, and any other character alone. Both are unknown.
-/

set_option autoImplicit false

namespace Script.Lexicon

def blanks : List Char :=
  [' ', '\t', '\x0c', '\r']

def Digit (c : Char) : Prop :=
  '0' ≤ c ∧ c ≤ '9'

def Letter (c : Char) : Prop :=
  'A' ≤ c ∧ c ≤ 'Z' ∨ 'a' ≤ c ∧ c ≤ 'z' ∨ c = '_'

def denoted : List Char → Nat
  | [] => 0
  | c :: w => (c.toNat - '0'.toNat) * 10 ^ w.length + denoted w

def keptWords : List (List Char × Token) :=
  [(['t', 'r', 'u', 'e'], .bool true), (['f', 'a', 'l', 's', 'e'], .bool false),
    (['n', 'u', 'l', 'l'], .nullWord), (['i', 'f'], .ifWord), (['e', 'l', 's', 'e'], .elseWord),
    (['w', 'h', 'i', 'l', 'e'], .whileWord), (['d', 'e', 'f'], .defWord),
    (['b', 'r', 'e', 'a', 'k'], .breakWord)]

def marks : List (List Char × Token) :=
  [(['+'], .plus), (['-'], .minus), (['*'], .star), (['/'], .slash), (['='], .assign),
    (['=', '='], .equal), (['!', '='], .notEqual), (['<'], .less), (['<', '='], .lessEqual),
    (['>'], .greater), (['>', '='], .greaterEqual), (['!'], .bang), (['('], .leftParen),
    ([')'], .rightParen), (['{'], .leftBrace), (['}'], .rightBrace), ([','], .comma),
    ([';'], .semicolon)]

/-- What is written between the quotes of a string, and what it means. A
backslash takes the next character with it, which is no newline. Four escapes
are resolved and all others kept as they are. -/
inductive Quotes : List Char → List Char → Prop where
  | nil : Quotes [] []
  | plain {c : Char} {w v : List Char} : c ≠ '"' → c ≠ '\\' → Quotes w v →
      Quotes (c :: w) (c :: v)
  | newline {w v : List Char} : Quotes w v → Quotes ('\\' :: 'n' :: w) ('\n' :: v)
  | tab {w v : List Char} : Quotes w v → Quotes ('\\' :: 't' :: w) ('\t' :: v)
  | quote {w v : List Char} : Quotes w v → Quotes ('\\' :: '"' :: w) ('"' :: v)
  | backslash {w v : List Char} : Quotes w v → Quotes ('\\' :: '\\' :: w) ('\\' :: v)
  | other {c : Char} {w v : List Char} : c ∉ ['\n', 'n', 't', '"', '\\'] → Quotes w v →
      Quotes ('\\' :: c :: w) ('\\' :: c :: v)

inductive Rule where
  | blanks
  | newline
  | lineComment
  | blockComment
  | number
  | name
  | string
  | kept (t : Token)
  | mark (t : Token)

/-- The words that a rule allows. Of a comment it is only the opening. -/
inductive Allows : Rule → List Char → Prop where
  | blanks {w : List Char} : w ≠ [] → (∀ c ∈ w, c ∈ blanks) → Allows .blanks w
  | newline : Allows .newline ['\n']
  | lineComment : Allows .lineComment ['/', '/']
  | blockComment : Allows .blockComment ['/', '*']
  | number {w : List Char} : w ≠ [] → (∀ c ∈ w, Digit c) → Allows .number w
  | name {c : Char} {w : List Char} : Letter c → (∀ d ∈ w, Letter d ∨ Digit d) →
      Allows .name (c :: w)
  | string {w v : List Char} : Quotes w v → Allows .string ('"' :: (w ++ ['"']))
  | kept {w : List Char} {t : Token} : (w, t) ∈ keptWords → Allows (.kept t) w
  | mark {w : List Char} {t : Token} : (w, t) ∈ marks → Allows (.mark t) w

/-- The rule that decides at the head of a text, with its word. No rule allows
a longer word there, and if the word is kept, the rule is the one that keeps
it. -/
structure Decides (r : Rule) (w text : List Char) : Prop where
  allows : Allows r w
  begins : w <+: text
  longest : ∀ r' w', Allows r' w' → w' <+: text → w'.length ≤ w.length
  kept : ∀ t, Allows (.kept t) w → r = .kept t

/-- What a rule makes of its word and of the text after it: a piece, and the
text that the piece leaves. -/
inductive Makes : Rule → List Char → List Char → Piece → List Char → Prop where
  | blanks {w after : List Char} : Makes .blanks w after (.gap w) after
  | newline {w after : List Char} : Makes .newline w after (.gap w) after
  | lineComment {w line rest : List Char} : '\n' ∉ line → (∀ c ∈ rest.head?, c = '\n') →
      Makes .lineComment w (line ++ rest) (.gap (w ++ line)) rest
  | blockComment {w body rest : List Char} : ¬ ['*', '/'] <:+: body ++ ['*'] →
      Makes .blockComment w (body ++ ['*', '/'] ++ rest) (.gap (w ++ (body ++ ['*', '/']))) rest
  | openComment {w after : List Char} : ¬ ['*', '/'] <:+: after →
      Makes .blockComment w after (.gap (w ++ after)) []
  | integer {w after : List Char} {n : Int64} : n.toInt = denoted w →
      Makes .number w after (.lexeme (.int n) w) after
  | tooLarge {w after : List Char} : 9223372036854775807 < denoted w →
      Makes .number w after (.lexeme (.unknown (String.ofList w)) w) after
  | name {w after : List Char} :
      Makes .name w after (.lexeme (.ident (String.ofList w)) w) after
  | string {w v after : List Char} : Quotes w v →
      Makes .string ('"' :: (w ++ ['"'])) after
        (.lexeme (.string (String.ofList v)) ('"' :: (w ++ ['"']))) after
  | kept {t : Token} {w after : List Char} : Makes (.kept t) w after (.lexeme t w) after
  | mark {t : Token} {w after : List Char} : Makes (.mark t) w after (.lexeme t w) after

def Ruleless (text : List Char) : Prop :=
  ∀ r w, Allows r w → ¬ w <+: text

def Blocked (text : List Char) : Prop :=
  text = [] ∨ text = ['\\'] ∨ ∃ rest, text = '\\' :: '\n' :: rest

inductive First : List Char → Piece → List Char → Prop where
  | ruled {r : Rule} {w after rest : List Char} {p : Piece} : Decides r w (w ++ after) →
      Makes r w after p rest → First (w ++ after) p rest
  | openString {w v rest : List Char} : Ruleless ('"' :: (w ++ rest)) → Quotes w v →
      Blocked rest →
        First ('"' :: (w ++ rest)) (.lexeme (.unknown (String.ofList ('"' :: w))) ('"' :: w)) rest
  | stray {c : Char} {rest : List Char} : Ruleless (c :: rest) → c ≠ '"' →
      First (c :: rest) (.lexeme (.unknown (String.singleton c)) [c]) rest

/-- The pieces into which the rules divide a text. -/
inductive Divides : List Char → List Piece → Prop where
  | nil : Divides [] []
  | cons {text rest : List Char} {p : Piece} {ps : List Piece} : First text p rest →
      Divides rest ps → Divides text (p :: ps)

/-! ### Characters -/

theorem isBlank_iff (c : Char) : Piece.isBlank c = true ↔ c ∈ blanks := by
  simp [Piece.isBlank, blanks, or_assoc]

theorem isDigit_iff (c : Char) : c.isDigit = true ↔ Digit c := by
  rw [Char.isDigit, Bool.and_eq_true, decide_eq_true_iff, decide_eq_true_iff]
  rfl

theorem isNameStart_iff (c : Char) : Piece.isNameStart c = true ↔ Letter c := by
  simp only [Piece.isNameStart, Char.isAlpha, Char.isUpper, Char.isLower, Bool.or_eq_true,
    Bool.and_eq_true, decide_eq_true_iff, beq_iff_eq]
  exact or_assoc

theorem isNameChar_iff (c : Char) : Piece.isNameChar c = true ↔ Letter c ∨ Digit c := by
  rw [← isNameStart_iff, ← isDigit_iff]
  simp only [Piece.isNameChar, Piece.isNameStart, Char.isAlphanum, Bool.or_eq_true]
  exact or_right_comm

theorem value_eq_denoted (w : List Char) : Numeral.value w = denoted w := by
  have hfrom (start : Nat) : Nat.ofDigitChars 10 w start = start * 10 ^ w.length + denoted w := by
    induction w generalizing start with
    | nil => simp [denoted]
    | cons c w ih =>
      rw [Nat.ofDigitChars_cons, ih, denoted, List.length_cons]
      ring
  rw [Numeral.value, hfrom 0, Nat.zero_mul, Nat.zero_add]

theorem allows_name_iff {w : List Char} : Allows .name w ↔ ∃ c cs, w = c :: cs ∧
    Piece.isNameStart c = true ∧ ∀ d ∈ cs, Piece.isNameChar d = true := by
  simp only [isNameStart_iff, isNameChar_iff]
  constructor
  · rintro (_ | _ | _ | _ | _ | ⟨hc, hcs⟩)
    exact ⟨_, _, rfl, hc, hcs⟩
  · rintro ⟨c, cs, rfl, hc, hcs⟩
    exact .name hc hcs

/-! ### The tables -/

theorem name_of_mem_keptWords : ∀ p ∈ keptWords, Allows .name p.1 := by
  simp only [keptWords, List.forall_mem_cons]
  refine ⟨?_, ?_, ?_, ?_, ?_, ?_, ?_, ?_, nofun⟩ <;>
    exact allows_name_iff.2 ⟨_, _, rfl, rfl, List.all_eq_true.1 rfl⟩

theorem ofWord?_of_mem_keptWords :
    ∀ p ∈ keptWords, Token.ofWord? (String.ofList p.1) = some p.2 := by
  simp only [keptWords, List.forall_mem_cons]
  exact ⟨rfl, rfl, rfl, rfl, rfl, rfl, rfl, rfl, nofun⟩

theorem mem_keptWords_of_ofWord? {x : String} {t : Token} (h : Token.ofWord? x = some t) :
    (x.toList, t) ∈ keptWords := by
  unfold Token.ofWord? at h
  split at h <;> cases h <;> simp [keptWords]

def Bare (c : Char) : Prop :=
  Piece.isBlank c = false ∧ c.isDigit = false ∧ Piece.isNameStart c = false ∧ c ≠ '\n' ∧ c ≠ '"'

instance (c : Char) : Decidable (Bare c) :=
  inferInstanceAs (Decidable (_ ∧ _))

theorem mem_marks_cases : ∀ p ∈ marks,
    (∃ c, p.1 = [c] ∧ Bare c ∧ Piece.single c = p.2) ∨
      ∃ c, p.1 = [c, '='] ∧ ∀ after, Piece.first c ('=' :: after) = (.lexeme p.2 p.1, after) := by
  simp only [marks, List.forall_mem_cons]
  and_intros
  any_goals first
    | exact .inl ⟨_, rfl, by decide, rfl⟩
    | exact .inr ⟨_, rfl, fun _ => rfl⟩
  nofun

end Script.Lexicon
