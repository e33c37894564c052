import Script.Proofs.Lexicon
import Script.Proofs.Spelling.Literals

/-!
# The division of a text

Whatever the rules of words call the first piece of a text, the scanner finds
there. And of a text that is not empty the rules call some piece the first.
So every text has one division, and the scanner finds it.
-/

set_option autoImplicit false

namespace Script.Lexicon

open Piece

variable {r : Rule} {c : Char} {w v cs after rest : List Char}

/-! ### After the word of the rule that decides -/

theorem Decides.ends {d : Char} (h : Decides r w (w ++ d :: after)) (r' : Rule) :
    ¬ Allows r' (w ++ [d]) := by
  intro hr
  have hlength := h.longest r' (w ++ [d]) hr ⟨after, by simp⟩
  simp only [List.length_append, List.length_singleton] at hlength
  omega

theorem Decides.stops {p : Char → Bool} {r' : Rule} (h : Decides r w (w ++ after))
    (hp : ∀ d, p d = true → Allows r' (w ++ [d])) : ∀ d ∈ after.head?, p d = false := by
  cases after with
  | nil => simp
  | cons d after =>
    rintro _ ⟨⟩
    exact Bool.eq_false_iff.2 fun hd => h.ends r' (hp d hd)

theorem Allows.blanks_concat {d : Char} (h : Allows .blanks w) (hd : isBlank d = true) :
    Allows .blanks (w ++ [d]) := by
  cases h with
  | blanks hne hw =>
    rw [isBlank_iff] at hd
    exact .blanks (by simp) (List.forall_mem_append.2 ⟨hw, by simpa using hd⟩)

theorem Allows.number_concat {d : Char} (h : Allows .number w) (hd : d.isDigit = true) :
    Allows .number (w ++ [d]) := by
  cases h with
  | number hne hw =>
    rw [isDigit_iff] at hd
    exact .number (by simp) (List.forall_mem_append.2 ⟨hw, by simpa using hd⟩)

theorem Allows.name_concat {d : Char} (h : Allows .name w) (hd : isNameChar d = true) :
    Allows .name (w ++ [d]) := by
  cases h with
  | name hc hw =>
    rw [isNameChar_iff] at hd
    exact .name hc (List.forall_mem_append.2 ⟨hw, by simpa using hd⟩)

/-! ### Numbers and names -/

theorem number_of_toInt {n : Int64} (h : n.toInt = denoted w) : Piece.number w = .int n := by
  rw [Piece.number, value_eq_denoted, word?_eq_some_iff.2 h]

theorem number_of_large (h : 9223372036854775807 < denoted w) :
    Piece.number w = .unknown (String.ofList w) := by
  have hmax : Int64.maxValue.toInt = 9223372036854775807 := by decide
  rw [Piece.number, value_eq_denoted, word?_eq_none_iff.2 (by omega)]

theorem word_of_kept {t : Token} (h : (w, t) ∈ keptWords) : word w = t := by
  rw [word, ofWord?_of_mem_keptWords _ h, Option.getD_some]

theorem word_of_not_kept (h : ∀ t, (w, t) ∉ keptWords) : word w = .ident (String.ofList w) := by
  cases hw : Token.ofWord? (String.ofList w) with
  | none => rw [word, hw, Option.getD_none]
  | some t =>
    have hmem := mem_keptWords_of_ofWord? hw
    rw [String.toList_ofList] at hmem
    exact absurd hmem (h t)

/-! ### Marks -/

theorem Bare.first_eq (h : Bare c) (rest : List Char) : first c rest = ofMark c rest := by
  obtain ⟨hb, hd, hn, _⟩ := h
  simp only [first, hb, hd, hn, if_false, Bool.false_eq_true]

theorem Bare.first_alone (hc : Bare c)
    (h : ∀ d more, rest = d :: more → ∀ r, ¬ Allows r [c, d]) :
    first c rest = (.lexeme (single c) [c], rest) := by
  have apart {b d : Char} {r : Rule} (hr : Allows r [b, d]) :
      ∀ more, c = b → rest = d :: more → False := by
    rintro more rfl hrest
    exact h d more hrest r hr
  have mark {b d : Char} (t : Token) (ht : ([b, d], t) ∈ marks) :
      ∀ more, c = b → rest = d :: more → False :=
    apart (.mark ht)
  have ⟨_, _, _, hn, hq⟩ := hc
  rw [hc.first_eq, ofMark]
  · exact hn
  · exact hq
  · exact apart .lineComment
  · exact apart .blockComment
  · exact mark .equal (by simp [marks])
  · exact mark .notEqual (by simp [marks])
  · exact mark .lessEqual (by simp [marks])
  · exact mark .greaterEqual (by simp [marks])

theorem single_cases (c : Char) :
    single c = .unknown (String.singleton c) ∨ ([c], single c) ∈ marks := by
  unfold single
  split <;> simp [marks]

/-! ### Comments -/

theorem exists_line (text : List Char) :
    ∃ line rest, text = line ++ rest ∧ '\n' ∉ line ∧ ∀ c ∈ rest.head?, c = '\n' := by
  refine ⟨text.takeWhile (· != '\n'), text.dropWhile (· != '\n'), by simp, ?_, ?_⟩
  · intro h
    have hall := List.all_takeWhile (p := (· != '\n')) (l := text)
    simpa using List.all_eq_true.1 hall _ h
  · intro c hc
    have hnot := List.head?_dropWhile_not (· != '\n') text
    rw [Option.mem_def.1 hc] at hnot
    simpa using hnot

theorem first_lineComment {line : List Char} (hline : '\n' ∉ line)
    (hrest : ∀ c ∈ rest.head?, c = '\n') :
    first '/' ('/' :: (line ++ rest)) = (.gap ('/' :: '/' :: line), rest) := by
  have hcs : ∀ c ∈ line, (c != '\n') = true := fun c hc => by
    simpa using ne_of_mem_of_not_mem hc hline
  have hs : ∀ c ∈ rest.head?, (c != '\n') = false := fun c hc => by simp [hrest c hc]
  obtain ⟨ht, hd⟩ := takeWhile_run hcs hs
  rw [Bare.first_eq (by decide), ofMark, ht, hd]

theorem commentTail_cons (h : ¬ ['*', '/'] <+: c :: cs) :
    commentTail (c :: cs) = (c :: (commentTail cs).1, (commentTail cs).2) := by
  rw [commentTail]
  rintro more rfl rfl
  exact h ⟨more, rfl⟩

theorem commentTail_open (text : List Char) (h : ¬ ['*', '/'] <:+: text) :
    commentTail text = (text, []) := by
  induction text with
  | nil => rfl
  | cons c cs ih =>
    rw [List.infix_cons_iff, not_or] at h
    rw [commentTail_cons h.1, ih h.2]

theorem ends_before_iff (c : Char) (body rest : List Char) :
    ['*', '/'] <+: c :: (body ++ ['*', '/'] ++ rest) ↔ ['*', '/'] <+: c :: (body ++ ['*']) := by
  cases body <;> simp [List.cons_prefix_cons]

theorem commentTail_closed (body rest : List Char) (h : ¬ ['*', '/'] <:+: body ++ ['*']) :
    commentTail (body ++ ['*', '/'] ++ rest) = (body ++ ['*', '/'], rest) := by
  induction body with
  | nil => rfl
  | cons c cs ih =>
    rw [List.cons_append, List.infix_cons_iff, not_or] at h
    have hc := mt (ends_before_iff c cs rest).1 h.1
    rw [List.cons_append, List.cons_append, commentTail_cons hc, ih h.2]

theorem exists_comment_end (text : List Char) (h : ['*', '/'] <:+: text) :
    ∃ body rest, text = body ++ ['*', '/'] ++ rest ∧ ¬ ['*', '/'] <:+: body ++ ['*'] := by
  induction text with
  | nil => simp at h
  | cons c cs ih =>
    by_cases hc : ['*', '/'] <+: c :: cs
    · obtain ⟨rest, hrest⟩ := hc
      exact ⟨[], rest, hrest.symm, by decide⟩
    · obtain ⟨body, rest, rfl, hbody⟩ := ih ((List.infix_cons_iff.1 h).resolve_left hc)
      refine ⟨c :: body, rest, rfl, ?_⟩
      rw [List.cons_append, List.infix_cons_iff, not_or]
      exact ⟨mt (ends_before_iff c body rest).2 hc, hbody⟩

theorem first_blockComment {tail : List Char} (h : commentTail cs = (tail, rest)) :
    first '/' ('*' :: cs) = (.gap ('/' :: '*' :: tail), rest) := by
  rw [Bare.first_eq (by decide), ofMark, h]

/-! ### Strings -/

theorem Quotes.unescape_eq (h : Quotes w v) : unescape w = v := by
  induction h with
  | nil => rfl
  | plain _ hb _ ih => rw [unescape_plain hb, ih]
  | newline _ ih => rw [unescape, ih]
  | tab _ ih => rw [unescape, ih]
  | quote _ ih => rw [unescape, ih]
  | backslash _ ih => rw [unescape, ih]
  | other hc _ ih =>
    simp only [List.mem_cons, List.not_mem_nil, or_false, not_or] at hc
    rw [unescape, ih] <;> simp [hc]

theorem Quotes.quotation_eq (h : Quotes w v) (text : List Char) :
    quotation (w ++ text) =
      ⟨w ++ (quotation text).body, (quotation text).closed, (quotation text).after⟩ := by
  induction h with
  | nil => rfl
  | plain hq hb _ ih => rw [List.cons_append, quotation_plain hq hb, ih]; rfl
  | other hc _ ih =>
    rw [List.cons_append, List.cons_append, quotation_escaped (by rintro rfl; simp at hc), ih]
    rfl
  | _ =>
    rename_i ih
    rw [List.cons_append, List.cons_append, quotation_escaped (by decide), ih]
    rfl

theorem Quotes.escaped (h : Quotes w v) (hc : c ≠ '\n') : ∃ u, Quotes ('\\' :: c :: w) u := by
  by_cases hmem : c ∈ ['n', 't', '"', '\\']
  · simp only [List.mem_cons, List.not_mem_nil, or_false] at hmem
    obtain rfl | rfl | rfl | rfl := hmem
    · exact ⟨_, h.newline⟩
    · exact ⟨_, h.tab⟩
    · exact ⟨_, h.quote⟩
    · exact ⟨_, h.backslash⟩
  · exact ⟨_, h.other (by simpa [hc] using hmem)⟩

theorem Blocked.quotation_eq (h : Blocked rest) : quotation rest = ⟨[], false, rest⟩ := by
  obtain rfl | rfl | ⟨more, rfl⟩ := h <;> rfl

theorem exists_quotes (text : List Char) :
    ∃ w v rest, text = w ++ rest ∧ Quotes w v ∧ (Blocked rest ∨ ∃ more, rest = '"' :: more) := by
  match text with
  | [] => exact ⟨[], [], [], rfl, .nil, .inl (.inl rfl)⟩
  | c :: text =>
    by_cases hq : c = '"'
    · exact ⟨[], [], c :: text, rfl, .nil, .inr ⟨text, by rw [hq]⟩⟩
    by_cases hb : c = '\\'
    · subst hb
      cases text with
      | nil => exact ⟨[], [], _, rfl, .nil, .inl (.inr (.inl rfl))⟩
      | cons d text =>
        by_cases hn : d = '\n'
        · exact ⟨[], [], _, rfl, .nil, .inl (.inr (.inr ⟨text, by rw [hn]⟩))⟩
        · obtain ⟨w, v, rest, rfl, hw, hrest⟩ := exists_quotes text
          obtain ⟨u, hu⟩ := hw.escaped hn
          exact ⟨'\\' :: d :: w, u, rest, rfl, hu, hrest⟩
    · obtain ⟨w, v, rest, rfl, hw, hrest⟩ := exists_quotes text
      exact ⟨c :: w, c :: v, rest, rfl, .plain hq hb hw, hrest⟩

theorem first_quote (rest : List Char) :
    first '"' rest = (ofQuotation (quotation rest), (quotation rest).after) := rfl

theorem first_closedString (hw : Quotes w v) (after : List Char) :
    first '"' (w ++ ['"'] ++ after) =
      (.lexeme (.string (String.ofList v)) ('"' :: (w ++ ['"'])), after) := by
  rw [first_quote, List.append_assoc, hw.quotation_eq, ofQuotation]
  simp [quotation, hw.unescape_eq]

theorem first_openString (hw : Quotes w v) (h : Blocked rest) :
    first '"' (w ++ rest) =
      (.lexeme (.unknown (String.ofList ('"' :: w))) ('"' :: w), rest) := by
  rw [first_quote, hw.quotation_eq, h.quotation_eq, ofQuotation]
  simp

/-! ### The scanner follows the rules -/

/-- The scanner finds the piece at the head of the text and leaves the rest. -/
def Scans (text : List Char) (p : Piece) (rest : List Char) : Prop :=
  ∃ c cs, text = c :: cs ∧ first c cs = (p, rest)

theorem Decides.scans_blanks (h : Decides .blanks w (w ++ after)) :
    Scans (w ++ after) (.gap w) after := by
  have hs := h.stops fun _ => h.allows.blanks_concat
  cases h.allows with
  | blanks hne hw =>
    obtain ⟨c, cs, rfl⟩ := List.exists_cons_of_ne_nil hne
    exact ⟨c, cs ++ after, rfl, first_blanks (fun d hd => (isBlank_iff d).2 (hw d hd)) hs⟩

theorem Decides.scans_number (h : Decides .number w (w ++ after)) :
    Scans (w ++ after) (.lexeme (Piece.number w) w) after := by
  have hs := h.stops fun _ => h.allows.number_concat
  cases h.allows with
  | number hne hw =>
    obtain ⟨c, cs, rfl⟩ := List.exists_cons_of_ne_nil hne
    exact ⟨c, cs ++ after, rfl, first_digits (fun d hd => (isDigit_iff d).2 (hw d hd)) hs⟩

theorem Decides.scans_word (h : Decides r w (w ++ after)) (hname : Allows .name w) :
    Scans (w ++ after) (.lexeme (word w) w) after := by
  have hs := h.stops fun _ => hname.name_concat
  obtain ⟨c, cs, rfl, hc, hcs⟩ := allows_name_iff.1 hname
  exact ⟨c, cs ++ after, rfl, first_letters hc hcs hs⟩

theorem Decides.scans_mark {t : Token} (h : Decides (.mark t) w (w ++ after)) :
    Scans (w ++ after) (.lexeme t w) after := by
  cases h.allows with
  | mark hmem =>
    obtain ⟨c, rfl, hc, rfl⟩ | ⟨c, rfl, hc⟩ := mem_marks_cases _ hmem
    · refine ⟨c, after, rfl, hc.first_alone ?_⟩
      rintro d more rfl
      exact h.ends
    · exact ⟨c, '=' :: after, rfl, hc after⟩

theorem scans_of_decides {p : Piece} (h : Decides r w (w ++ after)) (hm : Makes r w after p rest) :
    Scans (w ++ after) p rest := by
  cases hm with
  | blanks => exact h.scans_blanks
  | newline =>
    cases h.allows
    exact ⟨_, _, rfl, rfl⟩
  | lineComment hline hrest =>
    cases h.allows
    exact ⟨_, _, rfl, first_lineComment hline hrest⟩
  | blockComment hbody =>
    cases h.allows
    exact ⟨_, _, rfl, first_blockComment (commentTail_closed _ _ hbody)⟩
  | openComment hnot =>
    cases h.allows
    exact ⟨_, _, rfl, first_blockComment (commentTail_open _ hnot)⟩
  | integer hn =>
    rw [← number_of_toInt hn]
    exact h.scans_number
  | tooLarge hlarge =>
    rw [← number_of_large hlarge]
    exact h.scans_number
  | name =>
    rw [← word_of_not_kept fun t ht => by cases h.kept t (.kept ht)]
    exact h.scans_word h.allows
  | string hw => exact ⟨_, _, rfl, first_closedString hw after⟩
  | kept =>
    cases h.allows with
    | kept hmem =>
      rw [← word_of_kept hmem]
      exact h.scans_word (name_of_mem_keptWords _ hmem)
  | mark => exact h.scans_mark

theorem Ruleless.bare (h : Ruleless (c :: rest)) (hq : c ≠ '"') : Bare c := by
  have alone (r : Rule) : ¬ Allows r [c] := fun hr => h r [c] hr ⟨rest, rfl⟩
  refine ⟨?_, ?_, ?_, ?_, hq⟩
  · rw [Bool.eq_false_iff, ne_eq, isBlank_iff]
    exact fun hb => alone _ (.blanks (by simp) (by simpa using hb))
  · rw [Bool.eq_false_iff, ne_eq, isDigit_iff]
    exact fun hd => alone _ (.number (by simp) (by simpa using hd))
  · exact Bool.eq_false_iff.2 fun hn => alone _ (allows_name_iff.2 ⟨c, [], rfl, hn, nofun⟩)
  · rintro rfl
    exact alone _ .newline

theorem Ruleless.first_eq (h : Ruleless (c :: rest)) (hq : c ≠ '"') :
    first c rest = (.lexeme (.unknown (String.singleton c)) [c], rest) := by
  have hsingle : single c = .unknown (String.singleton c) :=
    (single_cases c).resolve_right fun ht => h _ [c] (.mark ht) ⟨rest, rfl⟩
  rw [← hsingle]
  apply (h.bare hq).first_alone
  rintro d more rfl r hr
  exact h r [c, d] hr ⟨more, rfl⟩

/-- The first piece by the rules is the first that the scanner finds. -/
theorem First.scans {text : List Char} {p : Piece} (h : First text p rest) : Scans text p rest := by
  cases h with
  | ruled hd hm => exact scans_of_decides hd hm
  | openString _ hw hb => exact ⟨_, _, rfl, first_openString hw hb⟩
  | stray h hq => exact ⟨_, _, rfl, h.first_eq hq⟩

/-! ### There is always a first piece -/

theorem eq_of_mem_keptWords {t t' : Token} (h : (w, t) ∈ keptWords) (h' : (w, t') ∈ keptWords) :
    t = t' := by
  rw [← word_of_kept h, word_of_kept h']

theorem exists_longest {r : Rule} {w text : List Char} (hr : Allows r w) (hw : w <+: text) :
    ∃ r' w', Allows r' w' ∧ w' <+: text ∧
      ∀ r₁ w₁, Allows r₁ w₁ → w₁ <+: text → w₁.length ≤ w'.length := by
  by_cases hlonger : ∃ r' w', Allows r' w' ∧ w' <+: text ∧ w.length < w'.length
  · obtain ⟨r', w', hr', hw', hlength⟩ := hlonger
    exact exists_longest hr' hw'
  · refine ⟨r, w, hr, hw, fun r₁ w₁ h₁ hp => ?_⟩
    exact Nat.le_of_not_lt fun hlt => hlonger ⟨r₁, w₁, h₁, hp, hlt⟩
termination_by text.length - w.length
decreasing_by
  have := hw'.length_le
  omega

theorem exists_decides {text : List Char} (hr : Allows r w) (hw : w <+: text) :
    ∃ r' w', Decides r' w' text := by
  obtain ⟨r', w', hr', hw', hlongest⟩ := exists_longest hr hw
  by_cases hkept : ∃ t, Allows (.kept t) w'
  · obtain ⟨t, ht⟩ := hkept
    refine ⟨.kept t, w', ht, hw', hlongest, fun t' ht' => ?_⟩
    cases ht with
    | kept hmem =>
      cases ht' with
      | kept hmem' => rw [eq_of_mem_keptWords hmem hmem']
  · exact ⟨r', w', hr', hw', hlongest, fun t ht => absurd ⟨t, ht⟩ hkept⟩

theorem exists_number (w after : List Char) : ∃ p, Makes .number w after p after := by
  cases hn : word? (denoted w) with
  | some n => exact ⟨_, .integer (word?_eq_some_iff.1 hn)⟩
  | none =>
    have hmax : Int64.maxValue.toInt = 9223372036854775807 := by decide
    have hmin : Int64.minValue.toInt = -9223372036854775808 := by decide
    have hout := word?_eq_none_iff.1 hn
    exact ⟨_, .tooLarge (by omega)⟩

theorem exists_makes (h : Allows r w) (after : List Char) : ∃ p rest, Makes r w after p rest := by
  cases h with
  | blanks => exact ⟨_, _, .blanks⟩
  | newline => exact ⟨_, _, .newline⟩
  | lineComment =>
    obtain ⟨line, rest, rfl, hline, hrest⟩ := exists_line after
    exact ⟨_, _, .lineComment hline hrest⟩
  | blockComment =>
    by_cases hend : ['*', '/'] <:+: after
    · obtain ⟨body, rest, rfl, hbody⟩ := exists_comment_end after hend
      exact ⟨_, _, .blockComment hbody⟩
    · exact ⟨_, _, .openComment hend⟩
  | number =>
    obtain ⟨p, hp⟩ := exists_number w after
    exact ⟨p, after, hp⟩
  | name => exact ⟨_, _, .name⟩
  | string hw => exact ⟨_, _, .string hw⟩
  | kept => exact ⟨_, _, .kept⟩
  | mark => exact ⟨_, _, .mark⟩

theorem exists_first (c : Char) (cs : List Char) : ∃ p rest, First (c :: cs) p rest := by
  by_cases hruled : ∃ r w, Allows r w ∧ w <+: c :: cs
  · obtain ⟨r, w, hr, hw⟩ := hruled
    obtain ⟨r, w, hd⟩ := exists_decides hr hw
    obtain ⟨after, hafter⟩ := hd.begins
    rw [← hafter] at hd ⊢
    obtain ⟨p, rest, hm⟩ := exists_makes hd.allows after
    exact ⟨p, rest, .ruled hd hm⟩
  have h : Ruleless (c :: cs) := fun r w hr hw => hruled ⟨r, w, hr, hw⟩
  by_cases hq : c = '"'
  · subst hq
    obtain ⟨w, v, rest, rfl, hw, hb | ⟨more, rfl⟩⟩ := exists_quotes cs
    · exact ⟨_, rest, .openString h hw hb⟩
    · exact absurd ⟨more, by simp⟩ (h .string ('"' :: (w ++ ['"'])) (.string hw))
  · exact ⟨_, cs, .stray h hq⟩

/-- What the scanner finds first is the first piece by the rules. -/
theorem first_first (c : Char) (cs : List Char) :
    First (c :: cs) (Piece.first c cs).1 (Piece.first c cs).2 := by
  obtain ⟨p, rest, h⟩ := exists_first c cs
  obtain ⟨d, ds, htext, hfirst⟩ := h.scans
  obtain ⟨rfl, rfl⟩ := List.cons.inj htext
  rwa [hfirst]

/-! ### The division -/

theorem divides_all (text : List Char) : Divides text (all text) := by
  match text with
  | [] =>
    rw [all_nil]
    exact .nil
  | c :: cs =>
    rw [all_cons]
    exact .cons (first_first c cs) (divides_all _)
termination_by text.length
decreasing_by exact length_first_lt c cs

theorem Divides.eq_all {text : List Char} {pieces : List Piece} (h : Divides text pieces) :
    pieces = all text := by
  induction h with
  | nil => rw [all_nil]
  | cons hfirst _ ih =>
    obtain ⟨c, cs, rfl, hscan⟩ := hfirst.scans
    rw [all_cons, hscan, ih]

theorem text_ne_nil_of_mem_all {text : List Char} {p : Piece} (h : p ∈ all text) : p.text ≠ [] := by
  match text with
  | [] => simp at h
  | c :: cs =>
    rw [all_cons] at h
    obtain rfl | h := List.mem_cons.1 h
    · exact first_text_ne_nil c cs
    · exact text_ne_nil_of_mem_all h
termination_by text.length
decreasing_by exact length_first_lt c cs

/-- A program text has one division by the rules of words. No piece of it is
empty, the pieces one after the other are the text, and those that are not
passed over spell the tokens of the text in their order. -/
theorem tokenize_divides (source : String) :
    ∃ pieces, Divides source.toList pieces ∧
      (∀ other, Divides source.toList other → other = pieces) ∧
      (∀ p ∈ pieces, p.text ≠ []) ∧ pieces.flatMap Piece.text = source.toList ∧
      pieces.filterMap Piece.token? = (tokenize source).map Located.token := by
  refine ⟨all source.toList, divides_all _, fun other h => h.eq_all, ?_, ?_, ?_⟩
  · exact fun p hp => text_ne_nil_of_mem_all hp
  · exact flatMap_text_all _
  · exact (map_token_tokenize source).symm

example : (tokenize "x1\t= 007+y_/**/;").map Located.token =
    [.ident "x1", .assign, .int 7, .plus, .ident "y_", .semicolon] := by
  cbv

end Script.Lexicon
