import Mathlib
import Script.Proofs.Spelling
import Script.Tree.Printing

/-!
# Spellings of names, numbers and strings

A name is a word that is not kept for the language. A number that is not
negative is spelled by its digits, and a string by its characters between
quotes, with the escapes that the printer puts in. Each of them reads as the
one token it was written for, and no text gives a token that could not have
been spelled so.
-/

set_option autoImplicit false

namespace Script

def keywords : List String :=
  ["true", "false", "null", "if", "else", "while", "def", "break"]

/-- A letter or underscore, then letters, digits and underscores, and no
keyword. -/
def IsName (x : String) : Prop :=
  (∃ c cs, x.toList = c :: cs ∧ Piece.isNameStart c = true ∧
    ∀ d ∈ cs, Piece.isNameChar d = true) ∧ x ∉ keywords

theorem Token.ofWord?_eq_none_iff {x : String} : Token.ofWord? x = none ↔ x ∉ keywords := by
  unfold Token.ofWord? keywords
  split <;> simp_all

namespace Piece

theorem isNameChar_of_isNameStart {c : Char} (h : isNameStart c = true) :
    isNameChar c = true := by
  simp only [isNameStart, Bool.or_eq_true] at h
  simp only [isNameChar, Char.isAlphanum, Bool.or_eq_true]
  exact h.imp_left .inl

theorem not_isBlank_of_isNameChar {c : Char} (h : isNameChar c = true) :
    isBlank c = false := by
  refine Bool.eq_false_iff.2 fun hb => ?_
  simp only [isBlank, Bool.or_eq_true, beq_iff_eq] at hb
  obtain ((rfl | rfl) | rfl) | rfl := hb <;> revert h <;> decide

theorem not_isDigit_of_isNameStart {c : Char} (h : isNameStart c = true) :
    c.isDigit = false := by
  refine Bool.eq_false_iff.2 fun hd => ?_
  simp only [isNameStart, Char.isAlpha, Char.isUpper, Char.isLower, Bool.or_eq_true,
    Bool.and_eq_true, decide_eq_true_eq, beq_iff_eq] at h
  simp only [Char.isDigit, Bool.and_eq_true, decide_eq_true_eq] at hd
  obtain (h | h) | rfl := h
  · have := UInt32.le_trans h.1 hd.2
    revert this
    decide
  · have := UInt32.le_trans h.1 hd.2
    revert this
    decide
  · revert hd
    decide

/-! ### Runs of characters

A run goes on as long as its characters are of one class. -/

section
variable {c : Char} {cs after : List Char}

theorem takeWhile_run {p : Char → Bool} (hcs : ∀ c ∈ cs, p c = true)
    (hs : ∀ d ∈ after.head?, p d = false) :
    (cs ++ after).takeWhile p = cs ∧ (cs ++ after).dropWhile p = after := by
  obtain ⟨ht, hd⟩ := takeWhile_append_of_stop hs []
  rw [List.nil_append] at ht hd
  rw [List.takeWhile_append_of_pos hcs, List.dropWhile_append_of_pos hcs, ht, hd]
  simp

theorem first_blanks (hw : ∀ d ∈ c :: cs, isBlank d = true)
    (hs : ∀ d ∈ after.head?, isBlank d = false) :
    first c (cs ++ after) = (.gap (c :: cs), after) := by
  obtain ⟨hc, hcs⟩ := List.forall_mem_cons.1 hw
  obtain ⟨ht, hd⟩ := takeWhile_run hcs hs
  rw [first, if_pos hc, ht, hd]

theorem first_digits (hw : ∀ d ∈ c :: cs, d.isDigit = true)
    (hs : ∀ d ∈ after.head?, d.isDigit = false) :
    first c (cs ++ after) = (.lexeme (number (c :: cs)) (c :: cs), after) := by
  obtain ⟨hc, hcs⟩ := List.forall_mem_cons.1 hw
  obtain ⟨ht, hd⟩ := takeWhile_run hcs hs
  have hb := not_isBlank_of_isNameChar (isNameChar_of_isDigit hc)
  simp only [first, hb, hc, ht, hd, if_true, if_false, Bool.false_eq_true]

theorem first_letters (hc : isNameStart c = true) (hcs : ∀ d ∈ cs, isNameChar d = true)
    (hs : ∀ d ∈ after.head?, isNameChar d = false) :
    first c (cs ++ after) = (.lexeme (word (c :: cs)) (c :: cs), after) := by
  obtain ⟨ht, hd⟩ := takeWhile_run hcs hs
  have hb := not_isBlank_of_isNameChar (isNameChar_of_isNameStart hc)
  simp only [first, hb, not_isDigit_of_isNameStart hc, hc, ht, hd, if_true, if_false,
    Bool.false_eq_true]

end

theorem spells_word {c : Char} {cs : List Char} (hc : isNameStart c = true)
    (hcs : ∀ d ∈ cs, isNameChar d = true) : Spells (c :: cs) (word (c :: cs)) := by
  have hfirst : first c (cs ++ []) = _ := first_letters hc hcs nofun
  rw [List.append_nil] at hfirst
  exact spells_of_first hfirst

theorem spells_name {x : String} (h : IsName x) : Spells x.toList (.ident x) := by
  obtain ⟨⟨c, cs, hx, hc, hcs⟩, hk⟩ := h
  have hword : word (c :: cs) = .ident x := by
    rw [word, ← hx, String.ofList_toList, Token.ofWord?_eq_none_iff.2 hk]
    rfl
  rw [hx, ← hword]
  exact spells_word hc hcs

theorem spells_digits {w : List Char} {n : Int64} (hne : w ≠ [])
    (hw : ∀ d ∈ w, d.isDigit = true) (hn : n.toInt = Numeral.value w) : Spells w (.int n) := by
  obtain ⟨c, cs, rfl⟩ := List.exists_cons_of_ne_nil hne
  have hnumber : number (c :: cs) = .int n := by rw [number, word?_eq_some_iff.2 hn]
  have hfirst : first c (cs ++ []) = _ := first_digits hw nofun
  rw [List.append_nil, hnumber] at hfirst
  exact spells_of_first hfirst

theorem spells_int {n : Int64} (h : 0 ≤ n.toInt) :
    Spells (Numeral.ofNat n.toInt.natAbs) (.int n) := by
  have hne : Numeral.ofNat n.toInt.natAbs ≠ [] := Nat.toDigits_ne_nil
  apply spells_digits hne fun _ => Numeral.isDigit_of_mem_ofNat
  rw [Numeral.value_ofNat]
  exact (Int.natAbs_of_nonneg h).symm

theorem literalChar_cases (c : Char) :
    (∃ d, literalChar c = ['\\', d] ∧ d ≠ '\n' ∧
      ∀ rest, unescape ('\\' :: d :: rest) = c :: unescape rest) ∨
    (literalChar c = [c] ∧ c ≠ '"' ∧ c ≠ '\\') := by
  fun_cases literalChar c with
  | case1 => exact .inl ⟨'n', rfl, by decide, fun _ => by simp [unescape]⟩
  | case2 => exact .inl ⟨'t', rfl, by decide, fun _ => by simp [unescape]⟩
  | case3 => exact .inl ⟨'"', rfl, by decide, fun _ => by simp [unescape]⟩
  | case4 => exact .inl ⟨'\\', rfl, by decide, fun _ => by simp [unescape]⟩
  | case5 _ _ _ hq hb => exact .inr ⟨rfl, hq, hb⟩

theorem quotation_literal (cs rest : List Char) :
    quotation (cs.flatMap literalChar ++ '"' :: rest) =
      ⟨cs.flatMap literalChar, true, rest⟩ := by
  induction cs with
  | nil => rfl
  | cons c cs ih =>
    rw [List.flatMap_cons, List.append_assoc]
    obtain ⟨d, hc, hd, _⟩ | ⟨hc, hq, hb⟩ := literalChar_cases c
    · rw [hc, List.cons_append, List.cons_append, List.nil_append, quotation_escaped hd, ih]
      rfl
    · rw [hc, List.cons_append, List.nil_append, quotation_plain hq hb, ih]
      rfl

theorem unescape_plain {c : Char} (hb : c ≠ '\\') (rest : List Char) :
    unescape (c :: rest) = c :: unescape rest := by
  rw [unescape]
  all_goals simp [hb]

theorem unescape_literal (cs : List Char) : unescape (cs.flatMap literalChar) = cs := by
  induction cs with
  | nil => rfl
  | cons c cs ih =>
    rw [List.flatMap_cons]
    obtain ⟨d, hc, _, hd⟩ | ⟨hc, _, hb⟩ := literalChar_cases c
    · rw [hc, List.cons_append, List.cons_append, List.nil_append, hd, ih]
    · rw [hc, List.cons_append, List.nil_append, unescape_plain hb, ih]

theorem spells_literal (text : String) : Spells (literal text) (.string text) := by
  have hq := quotation_literal text.toList []
  apply spells_of_first
  rw [first, if_neg (by decide), if_neg (by decide), if_neg (by decide)]
  simp only [ofMark, hq, ofQuotation, unescape_literal, String.ofList_toList, if_true]

end Piece

/-- What the tokens of a text satisfy: numbers carry no sign, and the names
are names. -/
def Token.Lexical : Token → Prop
  | .int n => 0 ≤ n.toInt
  | .ident x => IsName x
  | _ => True

namespace Piece

theorem lexical_number (run : List Char) : (number run).Lexical := by
  unfold number
  split
  next n hn =>
    rw [Token.Lexical, word?_eq_some_iff.1 hn]
    exact Int.natCast_nonneg _
  next => trivial

theorem lexical_word {c : Char} {cs : List Char} (hc : isNameStart c = true)
    (hcs : ∀ d ∈ cs, isNameChar d = true) : (word (c :: cs)).Lexical := by
  unfold word
  cases hw : Token.ofWord? (String.ofList (c :: cs)) with
  | none => exact ⟨⟨c, cs, String.toList_ofList, hc, hcs⟩, Token.ofWord?_eq_none_iff.1 hw⟩
  | some t =>
    unfold Token.ofWord? at hw
    split at hw <;> cases hw <;> trivial

theorem lexical_single (c : Char) : (single c).Lexical := by
  unfold single
  split <;> trivial

theorem lexical_first {c : Char} {rest : List Char} {t : Token}
    (h : (first c rest).1.token? = some t) : t.Lexical := by
  unfold first at h
  split at h
  · cases h
  split at h
  · cases h
    exact lexical_number _
  split at h
  next hc =>
    cases h
    refine lexical_word hc fun d hd => ?_
    have hall := List.all_takeWhile (p := isNameChar) (l := rest)
    exact List.all_eq_true.1 hall d hd
  · revert h
    fun_cases ofMark c rest with
    | case2 =>
      unfold ofQuotation
      split <;> rintro ⟨⟩ <;> trivial
    | case9 =>
      rintro ⟨⟩
      exact lexical_single c
    | _ => rintro ⟨⟩ <;> trivial

theorem lexical_of_mem_lexed {text : List Char} {t : Token} (h : t ∈ lexed text) :
    t.Lexical := by
  match text with
  | [] => simp [lexed] at h
  | c :: rest =>
    rw [lexed_cons, List.mem_append] at h
    obtain h | h := h
    · exact lexical_first (Option.mem_toList.1 h)
    · exact lexical_of_mem_lexed h
termination_by text.length
decreasing_by exact length_first_lt c rest

end Piece

end Script
