import Script.Proofs.Joining
import Script.Proofs.Lexicon.Division
import Script.Text.Lines

/-!
# Trimming

A line is trimmed of more characters than the rules of words pass over. Before
the first token and between tokens the others are unknown. After the last token
they are unknown as well, unless a comment is open, and then they belong to the
comment. So a line that has no unknown token keeps its tokens when it is
trimmed.
-/

set_option autoImplicit false

namespace Script.Lexicon

open Piece Text

variable {r : Rule} {c d : Char} {w ws text after rest more : List Char} {t : Token}

def White (ws : List Char) : Prop :=
  ∀ c ∈ ws, isWhite c = true

def EndsInInk (w : List Char) : Prop :=
  ∃ u c, w = u ++ [c] ∧ isWhite c = false

def Known (text : List Char) : Prop :=
  ∀ word, Token.unknown word ∉ lexed text

theorem known_of_firstUnknown? (h : firstUnknown? (tokenize (String.ofList text)) = none) :
    Known text := by
  intro word hmem
  rw [← String.toList_ofList (l := text), ← map_token_tokenize] at hmem
  obtain ⟨t, ht, hword⟩ := List.mem_map.1 hmem
  exact firstUnknown?_eq_none_iff.1 h t ht word hword

theorem Known.tail (h : Known (c :: rest)) : Known (first c rest).2 := by
  intro word hmem
  rw [Known, lexed_cons] at h
  exact h word (List.mem_append_right _ hmem)

theorem Known.ne_unknown (h : Known (c :: rest)) (hfirst : (first c rest).1 = .lexeme t w)
    (word : String) : t ≠ .unknown word := by
  rintro rfl
  rw [Known, lexed_cons, hfirst] at h
  exact h word (List.mem_append_left _ List.mem_cons_self)

/-! ### White space and words -/

theorem not_isWhite_of_isNameChar (h : isNameChar c = true) : isWhite c = false := by
  have hcode : 48 ≤ c.toNat ∧ c.toNat ≤ 122 := by
    simp only [isNameChar, Char.isAlphanum, Char.isAlpha, Char.isUpper, Char.isLower,
      Char.isDigit, Bool.or_eq_true, Bool.and_eq_true, decide_eq_true_eq, beq_iff_eq,
      UInt32.le_iff_toNat_le] at h
    rcases h with ((⟨hlow, hhigh⟩ | ⟨hlow, hhigh⟩) | ⟨hlow, hhigh⟩) | rfl
    · exact ⟨Nat.le_trans (by decide) hlow, Nat.le_trans hhigh (by decide)⟩
    · exact ⟨Nat.le_trans (by decide) hlow, Nat.le_trans hhigh (by decide)⟩
    · exact ⟨Nat.le_trans (by decide) hlow, Nat.le_trans hhigh (by decide)⟩
    · decide
  simp [isWhite]
  omega

theorem endsInInk_concat (u : List Char) (hc : isWhite c = false) : EndsInInk (u ++ [c]) :=
  ⟨u, c, rfl, hc⟩

theorem endsInInk_of_forall (hne : w ≠ []) (hw : ∀ c ∈ w, isNameChar c = true) : EndsInInk w := by
  obtain ⟨u, c, rfl⟩ := (List.eq_nil_or_concat w).resolve_left hne
  rw [List.concat_eq_append] at hw ⊢
  exact endsInInk_concat u (not_isWhite_of_isNameChar (hw c (by simp)))

theorem Allows.endsInInk_of_name (h : Allows .name w) : EndsInInk w := by
  obtain ⟨c, cs, rfl, hc, hcs⟩ := allows_name_iff.1 h
  exact endsInInk_of_forall nofun (List.forall_mem_cons.2 ⟨isNameChar_of_isNameStart hc, hcs⟩)

theorem endsInInk_of_mem_marks : ∀ p ∈ marks, EndsInInk p.1 := by
  simp only [marks, List.forall_mem_cons]
  and_intros
  any_goals first
    | exact endsInInk_concat [] rfl
    | exact endsInInk_concat [_] rfl
  exact List.forall_mem_nil _

theorem EndsInInk.exists_rest (hw : EndsInInk w) (hws : White ws)
    (h : text ++ ws = w ++ after) : ∃ rest, text = w ++ rest ∧ after = rest ++ ws := by
  obtain ⟨inner, rfl, rfl⟩ | ⟨rest, rfl, rfl⟩ := List.append_eq_append_iff.1 h
  · obtain ⟨u, c, hu, hc⟩ := hw
    obtain rfl | ⟨inner', d, rfl⟩ := List.eq_nil_or_concat inner
    · exact ⟨[], by simp, by simp⟩
    · -- the last character of the word would be white space
      rw [List.concat_eq_append] at hu hws
      rw [← List.append_assoc] at hu
      obtain ⟨_, hcd⟩ := List.append_inj' hu rfl
      cases hcd
      rw [hws c (by simp)] at hc
      cases hc
  · exact ⟨rest, rfl, rfl⟩

theorem exists_rest_of_ink (hd : isWhite d = false) (hws : White ws)
    (h : text ++ ws = d :: after) : ∃ rest, text = d :: rest ∧ after = rest ++ ws :=
  (endsInInk_concat [] hd).exists_rest hws h

/-! ### White space before the first token -/

theorem first_white (hc : isWhite c = true) (hb : isBlank c = false) (hn : c ≠ '\n')
    (cs : List Char) : first c cs = (.lexeme (.unknown (String.singleton c)) [c], cs) := by
  have ink {d : Char} (hd : isWhite d = false) : c ≠ d := by
    rintro rfl
    rw [hc] at hd
    cases hd
  have hname : isNameChar c = false := by
    refine Bool.eq_false_iff.2 fun h => ?_
    rw [not_isWhite_of_isNameChar h] at hc
    cases hc
  have hbare : Bare c := by
    refine ⟨hb, ?_, ?_, hn, ink rfl⟩
    · exact Bool.eq_false_iff.2 fun h => by simp [isNameChar_of_isDigit h] at hname
    · exact Bool.eq_false_iff.2 fun h => by simp [isNameChar_of_isNameStart h] at hname
  have hsingle : single c = .unknown (String.singleton c) := by
    refine (single_cases c).resolve_right fun hmem => ?_
    obtain ⟨u, d, hu, hd⟩ := endsInInk_of_mem_marks _ hmem
    have hcd : c = d := by simpa using congrArg List.getLast? hu
    exact ink hd hcd
  rw [← hsingle]
  rw [hbare.first_eq, ofMark]
  · exact hn
  · exact ink rfl
  all_goals exact fun _ hd => absurd hd (ink rfl)

theorem located_white_append (hws : White ws) (hn : '\n' ∉ ws) (h : Known (ws ++ text))
    (line : Nat) : located line (all (ws ++ text)) = located line (all text) ∧ Known text := by
  induction ws with
  | nil => exact ⟨rfl, h⟩
  | cons c ws ih =>
    obtain ⟨hc, hws⟩ := List.forall_mem_cons.1 hws
    rw [List.mem_cons, not_or] at hn
    cases hb : isBlank c with
    | true =>
      rw [Known, List.cons_append, lexed_blank hb] at h
      rw [List.cons_append, located_blank hb]
      exact ih hws hn.2 h
    | false =>
      have hfirst := first_white hc hb (Ne.symm hn.1) (ws ++ text)
      exact absurd rfl (h.ne_unknown (congrArg Prod.fst hfirst) _)

/-! ### White space after the last token -/

theorem Decides.exists_rest (h : Decides r w (w ++ after)) (hw : EndsInInk w) (hws : White ws)
    (htext : text ++ ws = w ++ after) :
    ∃ rest, text = w ++ rest ∧ after = rest ++ ws ∧ Decides r w (w ++ rest) := by
  obtain ⟨rest, rfl, rfl⟩ := hw.exists_rest hws htext
  refine ⟨rest, rfl, rfl, h.allows, List.prefix_append w rest, fun r' w' hr hp => ?_, h.kept⟩
  exact h.longest r' w' hr (hp.trans ⟨ws, List.append_assoc w rest ws⟩)

theorem Makes.of_lexeme {σ : List Char} (h : Makes r w after (.lexeme t σ) rest) :
    σ = w ∧ rest = after ∧ ∀ other, Makes r w other (.lexeme t w) other := by
  cases h with
  | integer hn => exact ⟨rfl, rfl, fun _ => .integer hn⟩
  | tooLarge hlarge => exact ⟨rfl, rfl, fun _ => .tooLarge hlarge⟩
  | name => exact ⟨rfl, rfl, fun _ => .name⟩
  | string hv => exact ⟨rfl, rfl, fun _ => .string hv⟩
  | kept => exact ⟨rfl, rfl, fun _ => .kept⟩
  | mark => exact ⟨rfl, rfl, fun _ => .mark⟩

theorem Makes.endsInInk (h : Makes r w after (.lexeme t w) rest) (hw : Allows r w) :
    EndsInInk w := by
  cases hw with
  | number hne hw =>
    exact endsInInk_of_forall hne fun c hc => (isNameChar_iff c).2 (.inr (hw c hc))
  | name hc hw => exact (Allows.name hc hw).endsInInk_of_name
  | @string v _ _ => exact endsInInk_concat ('"' :: v) rfl
  | kept hmem => exact (name_of_mem_keptWords _ hmem).endsInInk_of_name
  | mark hmem => exact endsInInk_of_mem_marks _ hmem
  | _ => cases h

/-- A known token is the first of a text if it is so with white space after it. -/
theorem First.of_append_white (h : First (text ++ ws) (.lexeme t w) after) (hws : White ws)
    (ht : ∀ word, t ≠ .unknown word) :
    ∃ rest, after = rest ++ ws ∧ First text (.lexeme t w) rest := by
  generalize htext : text ++ ws = full at h
  cases h with
  | ruled hd hm =>
    obtain ⟨rfl, rfl, hmakes⟩ := hm.of_lexeme
    obtain ⟨rest, rfl, rfl, hd'⟩ := hd.exists_rest (hm.endsInInk hd.allows) hws htext
    exact ⟨rest, rfl, .ruled hd' (hmakes rest)⟩
  | openString => exact absurd rfl (ht _)
  | stray => exact absurd rfl (ht _)

theorem located_lineComment (hn : '\n' ∉ rest) (line : Nat) :
    located line (all ('/' :: '/' :: rest)) = [] := by
  have hfirst : first '/' ('/' :: (rest ++ [])) = _ := first_lineComment hn (by simp)
  rw [List.append_nil] at hfirst
  rw [all_cons, hfirst, all_nil]
  rfl

theorem located_openComment (h : ¬ ['*', '/'] <:+: rest) (line : Nat) :
    located line (all ('/' :: '*' :: rest)) = [] := by
  rw [all_cons, first_blockComment (commentTail_open rest h), all_nil]
  rfl

theorem First.gap_cases (h : First text (.gap w) rest) :
    (∃ c cs, text = c :: cs ∧ isBlank c = true) ∨ (∃ cs, text = '\n' :: cs) ∨
      (∃ cs, text = '/' :: '/' :: cs) ∨
      (∃ body after, text = '/' :: '*' :: (body ++ ['*', '/'] ++ after) ∧
        ¬ ['*', '/'] <:+: body ++ ['*']) ∨
      ∃ cs, text = '/' :: '*' :: cs ∧ ¬ ['*', '/'] <:+: cs := by
  cases h with
  | ruled hd hm =>
    cases hm with
    | blanks =>
      cases hd.allows with
      | blanks hne hw =>
        obtain ⟨c, cs, rfl⟩ := List.exists_cons_of_ne_nil hne
        exact .inl ⟨c, _, rfl, (isBlank_iff c).2 (hw c List.mem_cons_self)⟩
    | newline =>
      cases hd.allows
      exact .inr (.inl ⟨_, rfl⟩)
    | lineComment =>
      cases hd.allows
      exact .inr (.inr (.inl ⟨_, rfl⟩))
    | blockComment hbody =>
      cases hd.allows
      exact .inr (.inr (.inr (.inl ⟨_, _, rfl, hbody⟩)))
    | openComment hnot =>
      cases hd.allows
      exact .inr (.inr (.inr (.inr ⟨_, rfl, hnot⟩)))

theorem exists_rest_of_comment {body cs : List Char} (hbody : ¬ ['*', '/'] <:+: body ++ ['*'])
    (hws : White ws) (hcs : cs ++ ws = '*' :: (body ++ ['*', '/'] ++ more)) :
    ∃ p rest, first '/' (cs ++ ws) = (p, rest ++ ws) ∧ first '/' cs = (p, rest) := by
  have hend : EndsInInk ('*' :: (body ++ ['*', '/'])) := ⟨'*' :: (body ++ ['*']), '/', by simp, rfl⟩
  obtain ⟨rest, rfl, rfl⟩ := hend.exists_rest hws hcs
  refine ⟨_, rest, ?_, first_blockComment (commentTail_closed body rest hbody)⟩
  rw [hcs]
  exact first_blockComment (commentTail_closed body (rest ++ ws) hbody)

/-- White space at the end of a text without unknown tokens adds no token. -/
theorem located_append_white (text : List Char) (hws : White ws) (hn : '\n' ∉ text ++ ws)
    (h : Known (text ++ ws)) (line : Nat) :
    located line (all (text ++ ws)) = located line (all text) := by
  match text with
  | [] =>
    have hnil : located line (all (ws ++ [])) = located line (all []) ∧ Known [] :=
      located_white_append hws hn (by simpa using h) line
    rw [List.append_nil] at hnil
    exact hnil.1
  | c :: cs =>
    rw [List.cons_append] at hn h ⊢
    have hfirst : First (c :: cs ++ ws) _ _ := first_first c (cs ++ ws)
    have same (p : Piece) (rest : List Char) (hlong : first c (cs ++ ws) = (p, rest ++ ws))
        (hshort : first c cs = (p, rest)) :
        located line (all (c :: (cs ++ ws))) = located line (all (c :: cs)) := by
      have hlength : rest.length < cs.length + 1 := by
        have hlength := length_first_lt c cs
        rwa [hshort] at hlength
      have htail := h.tail
      rw [← first_append, hlong, List.mem_append, not_or] at hn
      rw [hlong] at htail
      rw [all_cons, all_cons, hlong, hshort]
      cases p with
      | gap w => exact located_append_white rest hws hn.2 htail _
      | lexeme t w => exact congrArg (_ :: ·) (located_append_white rest hws hn.2 htail _)
    cases hp : (first c (cs ++ ws)).1 with
    | lexeme t w =>
      rw [hp] at hfirst
      obtain ⟨rest, hrest, hshort⟩ := hfirst.of_append_white hws (h.ne_unknown hp)
      obtain ⟨_, _, ⟨⟩, hshort⟩ := hshort.scans
      exact same _ rest (Prod.ext hp hrest) hshort
    | gap w =>
      rw [hp] at hfirst
      rcases hfirst.gap_cases with ⟨_, _, ⟨⟩, hb⟩ | ⟨_, ⟨⟩⟩ | ⟨more, hmore⟩ |
        ⟨body, more, hmore, hbody⟩ | ⟨more, hmore, hopen⟩
      · rw [Known, lexed_blank hb] at h
        rw [located_blank hb, located_blank hb]
        exact located_append_white cs hws (fun hmem => hn (List.mem_cons_of_mem _ hmem)) h line
      · exact absurd List.mem_cons_self hn
      -- a comment that is open at the end takes the white space with it
      · obtain ⟨rfl, hcs⟩ := List.cons.inj hmore
        obtain ⟨cs, rfl, rfl⟩ := exists_rest_of_ink rfl hws hcs
        simp only [List.cons_append, List.mem_cons, List.mem_append, not_or] at hn
        have hboth : '\n' ∉ cs ++ ws := fun hmem =>
          (List.mem_append.1 hmem).elim hn.2.2.1 hn.2.2.2
        exact (located_lineComment hboth line).trans (located_lineComment hn.2.2.1 line).symm
      · obtain ⟨rfl, hcs⟩ := List.cons.inj hmore
        obtain ⟨p, rest, hlong, hshort⟩ := exists_rest_of_comment hbody hws hcs
        exact same p rest hlong hshort
      · obtain ⟨rfl, hcs⟩ := List.cons.inj hmore
        obtain ⟨cs, rfl, rfl⟩ := exists_rest_of_ink rfl hws hcs
        have hshort : ¬ ['*', '/'] <:+: cs := fun hend =>
          hopen (hend.trans (List.infix_append' [] cs ws))
        exact (located_openComment hopen line).trans (located_openComment hshort line).symm
termination_by text.length

/-! ### Lines -/

theorem exists_of_trim (line : List Char) :
    ∃ lead trail, line = lead ++ (trim line ++ trail) ∧ White lead ∧ White trail := by
  have hwhite (text : List Char) : White (text.takeWhile isWhite) :=
    List.all_eq_true.1 List.all_takeWhile
  refine ⟨line.takeWhile isWhite, ((line.dropWhile isWhite).reverse.takeWhile isWhite).reverse,
    ?_, hwhite _, fun c hc => hwhite _ c (List.mem_reverse.1 hc)⟩
  rw [trim, ← List.reverse_append, List.takeWhile_append_dropWhile, List.reverse_reverse,
    List.takeWhile_append_dropWhile]

variable {line : List Char}

/-- A line without unknown tokens has the same tokens when it is trimmed. -/
theorem tokenize_trim (hn : '\n' ∉ line)
    (h : firstUnknown? (tokenize (String.ofList line)) = none) :
    tokenize (String.ofList (trim line)) = tokenize (String.ofList line) := by
  obtain ⟨lead, trail, hline, hlead, htrail⟩ := exists_of_trim line
  have hknown := known_of_firstUnknown? h
  rw [hline] at hn hknown
  rw [List.mem_append, not_or] at hn
  obtain ⟨hleft, hknown⟩ := located_white_append hlead hn.1 hknown 1
  have hright := located_append_white (trim line) htrail hn.2 hknown 1
  rw [tokenize, tokenize, String.toList_ofList, String.toList_ofList, ← hright, ← hleft, ← hline]

theorem trim_ne_colon (hn : '\n' ∉ line)
    (h : firstUnknown? (tokenize (String.ofList line)) = none) (rest : List Char) :
    trim line ≠ ':' :: rest := by
  intro htrim
  have hknown := h
  rw [← tokenize_trim hn h, htrim] at hknown
  exact (known_of_firstUnknown? hknown).ne_unknown (t := .unknown ":") (w := [':']) rfl _ rfl

end Script.Lexicon
