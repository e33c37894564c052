import Script.Proofs.Joining
import Script.Proofs.Lexicon.Division

/-!
# Layout

A token may be spelled in several ways: a number with leading zeros, a string
with escapes or without. Between tokens there may be blanks, newlines and
comments that end, as long as the first character parts the tokens. However
tokens are spelled and laid out, the text has these tokens again, each on the
line on which it has been put.

The step is one token with the layout before it. A layout is passed over
whatever follows it, and a spelled token is read as it is before a layout
that parts it from the next.
-/

set_option autoImplicit false

namespace Script

def Token.Writable : Token → Prop
  | .unknown _ => False
  | .lineComment => False
  | .blockComment => False
  | .newline => False
  | t => t.Lexical

namespace Lexicon
open Piece

/-- The ways in which a token is spelled. -/
inductive Spelling : Token → List Char → Prop where
  | int {n : Int64} {w : List Char} : w ≠ [] → (∀ c ∈ w, Digit c) →
      n.toInt = denoted w → Spelling (.int n) w
  | string {w v : List Char} : Quotes w v →
      Spelling (.string (String.ofList v)) ('"' :: (w ++ ['"']))
  | ident {x : String} : IsName x → Spelling (.ident x) x.toList
  | kept {w : List Char} {t : Token} : (w, t) ∈ keptWords → Spelling t w
  | mark {w : List Char} {t : Token} : (w, t) ∈ marks → Spelling t w

/-- Blanks, newlines and comments with their ends. A comment up to the end of
its line has the newline after it. -/
inductive Layout : List Char → Prop where
  | nil : Layout []
  | blank {c : Char} {rest : List Char} : c ∈ blanks → Layout rest → Layout (c :: rest)
  | newline {rest : List Char} : Layout rest → Layout ('\n' :: rest)
  | lineComment {line rest : List Char} : '\n' ∉ line → Layout rest →
      Layout ('/' :: '/' :: (line ++ '\n' :: rest))
  | blockComment {body rest : List Char} : ¬ ['*', '/'] <:+: body ++ ['*'] → Layout rest →
      Layout ('/' :: '*' :: (body ++ ['*', '/'] ++ rest))

/-- A layout that may stand between any two tokens. -/
structure Separator (w : List Char) : Prop where
  layout : Layout w
  starts : ∃ c rest, w = c :: rest ∧ (c ∈ blanks ∨ c = '\n')

structure Written where
  gap : List Char
  token : Token
  spelling : List Char

namespace Written

def text (i : Written) : List Char :=
  i.gap ++ i.spelling

def textAll (items : List Written) : List Char :=
  items.flatMap text

end Written

/-- Tokens are laid out so: any layout before the first, a separator before
every other, and a separator or nothing after the last. -/
structure LaidOut (items : List Written) (after : List Char) : Prop where
  spelled : ∀ i ∈ items, Spelling i.token i.spelling
  lead : ∀ i ∈ items.head?, Layout i.gap
  between : ∀ i ∈ items.tail, Separator i.gap
  trail : after = [] ∨ Separator after

variable {w after : List Char} {t : Token}

/-! ### Spelled tokens -/

theorem quotes_literal (cs : List Char) : Quotes (cs.flatMap literalChar) cs := by
  induction cs with
  | nil => exact .nil
  | cons c cs ih =>
    rw [List.flatMap_cons]
    fun_cases literalChar c with
    | case1 => exact .newline ih
    | case2 => exact .tab ih
    | case3 => exact .quote ih
    | case4 => exact .backslash ih
    | case5 _ _ _ hq hb => exact .plain hq hb ih

theorem writable_of_mem_tables : ∀ p ∈ keptWords ++ marks, p.2.Writable := by
  simp [keptWords, marks, Token.Writable, Token.Lexical]

theorem exists_spelling_of_table (h : (keptWords ++ marks).any (·.2 == t) = true) :
    ∃ w, Spelling t w := by
  obtain ⟨⟨w, t'⟩, hmem, ht⟩ := List.any_eq_true.1 h
  obtain rfl : t' = t := beq_iff_eq.1 ht
  obtain hmem | hmem := List.mem_append.1 hmem
  · exact ⟨w, .kept hmem⟩
  · exact ⟨w, .mark hmem⟩

theorem exists_spelling_iff (t : Token) : (∃ w, Spelling t w) ↔ t.Writable := by
  constructor
  · rintro ⟨w, h⟩
    cases h with
    | int _ _ hn =>
      have hsign : (0 : Int) ≤ denoted w := Int.natCast_nonneg _
      rwa [← hn] at hsign
    | string => trivial
    | ident hx => exact hx
    | kept hmem => exact writable_of_mem_tables _ (List.mem_append_left _ hmem)
    | mark hmem => exact writable_of_mem_tables _ (List.mem_append_right _ hmem)
  · intro h
    cases t with
    | int n =>
      have hvalue : n.toInt = denoted (Numeral.ofNat n.toInt.natAbs) := by
        rw [← value_eq_denoted, Numeral.value_ofNat]
        exact (Int.natAbs_of_nonneg h).symm
      have hdigits (c : Char) (hc : c ∈ Numeral.ofNat n.toInt.natAbs) : Digit c :=
        (isDigit_iff c).1 (Numeral.isDigit_of_mem_ofNat hc)
      exact ⟨_, .int Nat.toDigits_ne_nil hdigits hvalue⟩
    | string text =>
      have hquotes := Spelling.string (quotes_literal text.toList)
      rw [String.ofList_toList] at hquotes
      exact ⟨_, hquotes⟩
    | ident x => exact ⟨_, .ident h⟩
    | bool b => cases b <;> exact exists_spelling_of_table rfl
    | unknown text => cases h
    | lineComment => cases h
    | blockComment => cases h
    | newline => cases h
    | _ => exact exists_spelling_of_table rfl

theorem Spelling.spells (h : Spelling t w) : Spells w t := by
  cases h with
  | int hne hw hn =>
    rw [← value_eq_denoted] at hn
    exact spells_digits hne (fun c hc => (isDigit_iff c).2 (hw c hc)) hn
  | @string w v hw =>
    have hfirst := first_closedString hw []
    rw [List.append_nil] at hfirst
    exact spells_of_first hfirst
  | ident hx => exact spells_name hx
  | kept hmem =>
    rw [← word_of_kept hmem]
    obtain ⟨c, cs, rfl, hc, hcs⟩ := allows_name_iff.1 (name_of_mem_keptWords _ hmem)
    exact spells_word hc hcs
  | mark hmem =>
    obtain ⟨c, rfl, hc, rfl⟩ | ⟨c, rfl, hc⟩ := mem_marks_cases _ hmem
    · exact spells_of_first (hc.first_alone nofun)
    · exact spells_of_first (hc [])

theorem Spelling.ne_unknown (h : Spelling t w) (word : String) : t ≠ .unknown word := by
  rintro rfl
  exact (exists_spelling_iff _).1 ⟨w, h⟩

/-- A spelled token is read on the line that has been reached, and what comes
after it is read on the line on which the token ends. -/
theorem Spelling.located_all (h : Spelling t w) (ha : Apart after) (line : Nat) :
    located line (all (w ++ after)) =
      ⟨t, line⟩ :: located (line + w.count '\n') (all after) := by
  have hlines : (lexeme t w).lines = w.count '\n' := by
    cases t with
    | unknown word => exact absurd rfl (h.ne_unknown word)
    | _ => rfl
  rw [all_spelled h.spells h.ne_unknown ha, located, hlines]

/-! ### Layouts -/

theorem Layout.located_all (h : Layout w) (line : Nat) (after : List Char) :
    located line (all (w ++ after)) = located (line + w.count '\n') (all after) := by
  induction h generalizing line with
  | nil => rfl
  | @blank c rest hc _ ih =>
    have hcount : (c :: rest).count '\n' = rest.count '\n' :=
      List.count_cons_of_ne (by rintro rfl; simp [blanks] at hc)
    rw [List.cons_append, located_blank ((isBlank_iff c).2 hc), ih, hcount]
  | @newline rest _ ih =>
    have hcount : ('\n' :: rest).count '\n' = rest.count '\n' + 1 := List.count_cons_self
    rw [List.cons_append, located_newline, ih, hcount]
    congr 1
    omega
  | @lineComment body rest hbody _ ih =>
    -- the comment ends before its newline, which is a piece of its own
    have htext : '/' :: '/' :: (body ++ '\n' :: rest) ++ after =
        '/' :: '/' :: (body ++ '\n' :: (rest ++ after)) := by simp
    have hlines : (gap ('/' :: '/' :: body)).lines = 0 :=
      List.count_eq_zero.2 (by simpa [Piece.text] using hbody)
    have hcount : ('/' :: '/' :: (body ++ '\n' :: rest)).count '\n' = 1 + rest.count '\n' := by
      simp [List.count_eq_zero.2 hbody, Nat.add_comm]
    rw [htext, all_cons, first_lineComment hbody (by simp), located, hlines, located_newline, ih,
      hcount]
    congr 1
    omega
  | @blockComment body rest hbody _ ih =>
    have htext : '/' :: '*' :: (body ++ ['*', '/'] ++ rest) ++ after =
        '/' :: '*' :: (body ++ ['*', '/'] ++ (rest ++ after)) := by simp
    have hlines : (gap ('/' :: '*' :: (body ++ ['*', '/']))).lines + rest.count '\n' =
        ('/' :: '*' :: (body ++ ['*', '/'] ++ rest)).count '\n' := by
      simp [lines, Piece.text]
    rw [htext, all_cons, first_blockComment (commentTail_closed body _ hbody), located, ih,
      Nat.add_assoc, hlines]

theorem Separator.apart (h : Separator w) (after : List Char) : Apart (w ++ after) := by
  obtain ⟨c, rest, rfl, hc⟩ := h.starts
  apply Parts.apart
  obtain hc | rfl := hc
  · simp only [blanks, List.mem_cons, List.not_mem_nil, or_false] at hc
    obtain rfl | rfl | rfl | rfl := hc <;> decide
  · decide

/-! ### Written tokens -/

def Written.located (line : Nat) : List Written → List Located
  | [] => []
  | i :: items =>
    ⟨i.token, line + i.gap.count '\n'⟩ :: Written.located (line + i.text.count '\n') items

variable {items : List Written}

namespace LaidOut

theorem tail {i : Written} (h : LaidOut (i :: items) after) : LaidOut items after where
  spelled j hj := h.spelled j (List.mem_cons_of_mem i hj)
  lead j hj := (h.between j (List.mem_of_mem_head? hj)).layout
  between j hj := h.between j (List.mem_of_mem_tail hj)
  trail := h.trail

theorem apart {i : Written} (h : LaidOut (i :: items) after) :
    Apart (Written.textAll items ++ after) := by
  cases items with
  | nil =>
    obtain rfl | hafter := h.trail
    · nofun
    · have hapart := hafter.apart []
      rwa [List.append_nil] at hapart
  | cons j items =>
    have hj : Separator j.gap := h.between j List.mem_cons_self
    have htext : Written.textAll (j :: items) ++ after =
        j.gap ++ (j.spelling ++ Written.textAll items ++ after) := by
      simp [Written.textAll, Written.text]
    rw [htext]
    exact hj.apart _

theorem located_all (h : LaidOut items after) (line : Nat) :
    located line (all (Written.textAll items ++ after)) = Written.located line items := by
  induction items generalizing line with
  | nil =>
    have hafter : Layout after := by
      obtain rfl | hafter := h.trail
      · exact .nil
      · exact hafter.layout
    have hlast := hafter.located_all line []
    rw [List.append_nil, all_nil] at hlast
    exact hlast
  | cons i items ih =>
    have htext : Written.textAll (i :: items) ++ after =
        i.gap ++ (i.spelling ++ (Written.textAll items ++ after)) := by
      simp [Written.textAll, Written.text]
    have hcount : i.text.count '\n' = i.gap.count '\n' + i.spelling.count '\n' :=
      List.count_append
    rw [htext, (h.lead i rfl).located_all,
      (h.spelled i List.mem_cons_self).located_all h.apart, ih h.tail, Written.located, hcount,
      Nat.add_assoc]

end LaidOut

namespace Written

theorem map_token_located (line : Nat) (items : List Written) :
    (Written.located line items).map Located.token = items.map Written.token := by
  induction items generalizing line with
  | nil => rfl
  | cons i items ih => rw [located, List.map_cons, List.map_cons, ih]

theorem located_append_cons (line : Nat) (above below : List Written) (i : Written) :
    (Written.located line (above ++ i :: below))[above.length]? =
      some ⟨i.token, line + (textAll above ++ i.gap).count '\n'⟩ := by
  induction above generalizing line with
  | nil => rfl
  | cons j above ih =>
    rw [List.cons_append, located, List.length_cons, List.getElem?_cons_succ, ih]
    have hcount : (textAll (j :: above) ++ i.gap).count '\n' =
        j.text.count '\n' + (textAll above ++ i.gap).count '\n' := by
      simp [textAll]
    rw [hcount, Nat.add_assoc]

end Written

/-- Layout is insignificant. Every token that a text can have and that is not
unknown can be spelled. However such tokens are spelled, and whatever layouts
stand before and between them, the text has these tokens in their order, each
on the line where its spelling starts. -/
theorem layout_is_insignificant :
    (∀ t, (∃ w, Spelling t w) ↔ t.Writable) ∧
    ∀ items after, LaidOut items after →
      (tokenize (String.ofList (Written.textAll items ++ after))).map Located.token =
        items.map Written.token ∧
      ∀ above i below, items = above ++ i :: below →
        (tokenize (String.ofList (Written.textAll items ++ after)))[above.length]? =
          some ⟨i.token, 1 + (Written.textAll above ++ i.gap).count '\n'⟩ := by
  refine ⟨exists_spelling_iff, fun items after h => ?_⟩
  have htokens : tokenize (String.ofList (Written.textAll items ++ after)) =
      Written.located 1 items := by
    rw [tokenize, String.toList_ofList, h.located_all]
  rw [htokens]
  refine ⟨Written.map_token_located 1 items, ?_⟩
  rintro above i below rfl
  exact Written.located_append_cons 1 above below i

def Written.crowded : List Written :=
  [⟨['/', '*', '"', '*', '*', '/'], .int 7, ['0', '0', '7']⟩,
    ⟨[' ', '/', '/', '/', '*', '\n'], .string "a\n//", ['"', 'a', '\n', '/', '/', '"']⟩,
    ⟨['\t', '/', '*', '\n', '*', '/'], .less, ['<']⟩,
    ⟨[' '], .equal, ['=', '=']⟩]

theorem layout_is_insignificant_of_crowded :
    LaidOut Written.crowded ['\n'] ∧
      (tokenize (String.ofList (Written.textAll Written.crowded ++ ['\n'])))[3]? =
        some ⟨.equal, 4⟩ := by
  have h : LaidOut Written.crowded ['\n'] := by
    refine ⟨?_, ?_, ?_, .inr ⟨.newline .nil, '\n', [], rfl, .inr rfl⟩⟩
    · simp only [Written.crowded, List.forall_mem_cons]
      refine ⟨.int (by decide) (by simp [Digit]) rfl, ?_, .mark (by decide),
        .mark (by decide), nofun⟩
      exact .string (.plain (by decide) (by decide) (.plain (by decide) (by decide)
        (.plain (by decide) (by decide) (.plain (by decide) (by decide) .nil))))
    · rintro _ ⟨⟩
      exact @Layout.blockComment ['"', '*'] [] (by decide) .nil
    · simp only [Written.crowded, List.tail_cons, List.forall_mem_cons]
      have hspace : ' ' ∈ blanks := by decide
      have htab : '\t' ∈ blanks := by decide
      refine ⟨⟨.blank hspace ?_, _, _, rfl, .inl hspace⟩, ⟨.blank htab ?_, _, _, rfl, .inl htab⟩,
        ⟨.blank hspace .nil, _, _, rfl, .inl hspace⟩, nofun⟩
      · exact @Layout.lineComment ['/', '*'] [] (by decide) .nil
      · exact @Layout.blockComment ['\n'] [] (by decide) .nil
  obtain ⟨_, hlines⟩ := layout_is_insignificant.2 _ _ h
  have hcount : (Written.textAll (Written.crowded.take 3) ++ [' ']).count '\n' = 3 := by decide
  have hline := hlines (Written.crowded.take 3) ⟨[' '], .equal, ['=', '=']⟩ [] rfl
  dsimp only at hline
  rw [hcount] at hline
  exact ⟨h, hline⟩

end Lexicon

end Script
