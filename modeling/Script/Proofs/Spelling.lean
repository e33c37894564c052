import Script.Token.Pieces

/-!
# Pieces next to each other

A text is divided in the same way when another text is put after it, as long
as its last piece cannot go on into that text. So a spelled token stays the
same piece before anything that does not extend it, and a whole text stays as
it is before a newline, unless a comment or a string in it is left open.
-/

set_option autoImplicit false

namespace Script.Piece

def token? : Piece → Option Token
  | .gap _ => none
  | .lexeme t _ => some t

def lexed (text : List Char) : List Token :=
  (all text).filterMap token?

@[simp] theorem lexed_nil : lexed [] = [] := by
  rw [lexed, all_nil]
  rfl

theorem map_token_located (line : Nat) (pieces : List Piece) :
    (located line pieces).map Located.token = pieces.filterMap token? := by
  induction pieces generalizing line with
  | nil => rfl
  | cons p ps ih =>
    cases p with
    | gap text => exact ih _
    | lexeme t text => simp [located, token?, ih]

theorem map_token_tokenize (source : String) :
    (tokenize source).map Located.token = lexed source.toList :=
  map_token_located 1 _

def Parts (c : Char) : Prop :=
  isNameChar c = false ∧ c ≠ '=' ∧ c ≠ '/' ∧ c ≠ '*'

instance (c : Char) : Decidable (Parts c) :=
  inferInstanceAs (Decidable (_ ∧ _))

/-- What may stand after any token and leave it as it is. -/
def Apart (after : List Char) : Prop :=
  ∀ d ∈ after.head?, Parts d

theorem Parts.apart {c : Char} (h : Parts c) (rest : List Char) : Apart (c :: rest) := by
  rintro d ⟨⟩
  exact h

theorem takeWhile_append_of_stop {p : Char → Bool} {after : List Char}
    (h : ∀ d ∈ after.head?, p d = false) (cs : List Char) :
    (cs ++ after).takeWhile p = cs.takeWhile p ∧
      (cs ++ after).dropWhile p = cs.dropWhile p ++ after := by
  induction cs with
  | nil =>
    cases after with
    | nil => exact ⟨rfl, rfl⟩
    | cons d after => simp [List.takeWhile, List.dropWhile, h d rfl]
  | cons c cs ih => by_cases hc : p c = true <;> simp [List.takeWhile, List.dropWhile, hc, ih]

theorem isNameChar_of_isDigit {c : Char} (h : c.isDigit = true) : isNameChar c = true := by
  simp [isNameChar, Char.isAlphanum, h]

theorem quotation_plain {c : Char} (hq : c ≠ '"') (hb : c ≠ '\\') (rest : List Char) :
    quotation (c :: rest) =
      ⟨c :: (quotation rest).body, (quotation rest).closed, (quotation rest).after⟩ := by
  rw [quotation]
  · exact hq
  · exact fun h => absurd h hb
  · exact fun _ h => absurd h hb
  · exact fun _ _ h => absurd h hb

theorem quotation_escaped {c : Char} (hn : c ≠ '\n') (rest : List Char) :
    quotation ('\\' :: c :: rest) =
      ⟨'\\' :: c :: (quotation rest).body, (quotation rest).closed, (quotation rest).after⟩ := by
  rw [quotation]
  exact hn

theorem quotation_append_of_closed (cs after : List Char) (h : (quotation cs).closed = true) :
    quotation (cs ++ after) =
      ⟨(quotation cs).body, true, (quotation cs).after ++ after⟩ := by
  fun_induction quotation cs with
  | case1 => cases h
  | case2 rest => simp [quotation]
  | case3 => cases h
  | case4 => cases h
  | case5 c rest hn q ih =>
    have ih := ih h
    simp [quotation_escaped hn, ih, q]
  | case6 c rest hq hb hn hc q ih =>
    have ih := ih h
    have hback : c ≠ '\\' := by
      rintro rfl
      cases rest with
      | nil => exact hb rfl rfl
      | cons d rest => exact hc d rest rfl rfl
    simp [quotation_plain hq hback, ih, q]

theorem commentTail_append_of_closed (cs after : List Char)
    (h : ['*', '/'] <:+ (commentTail cs).1) :
    commentTail (cs ++ after) = ((commentTail cs).1, (commentTail cs).2 ++ after) := by
  fun_induction commentTail cs with
  | case1 => simp at h
  | case2 rest => simp [commentTail]
  | case3 c rest hc tail rest' ht ih =>
    have htext : tail ++ rest' = rest := by simpa [ht] using commentTail_append rest
    obtain h | h := List.suffix_cons_iff.1 h
    · obtain ⟨rfl, rfl⟩ : c = '*' ∧ tail = ['/'] := by simpa [eq_comm] using h
      exact absurd htext.symm (hc rest' rfl)
    · have ih := ih (by simpa [ht] using h)
      have hne : rest ≠ [] := by
        rintro rfl
        simp only [commentTail, Prod.mk.injEq] at ht
        simp [← ht.1] at h
      obtain ⟨d, ds, rfl⟩ := List.exists_cons_of_ne_nil hne
      rw [List.cons_append, commentTail, ih, ht]
      rintro ds' rfl hd
      simp at hd
      exact hc ds rfl (by rw [hd.1])

theorem eq_cons_of_append {cs after rest : List Char} {d : Char} (ha : Apart after)
    (hd : d = '=' ∨ d = '/' ∨ d = '*') (h : cs ++ after = d :: rest) : ∃ ds, cs = d :: ds := by
  cases cs with
  | nil =>
    rw [List.nil_append] at h
    have hd' := ha d (by rw [h]; rfl)
    obtain rfl | rfl | rfl := hd <;> exact absurd hd' (by decide)
  | cons c cs =>
    obtain ⟨rfl, _⟩ := List.cons.inj h
    exact ⟨cs, rfl⟩

theorem ofMark_append_of_apart {c : Char} {cs after : List Char} (ha : Apart after)
    (hl : ∀ text σ, (ofMark c cs).1 ≠ .lexeme (.unknown text) σ)
    (hg : ∀ text, (ofMark c cs).1 = .gap text →
      after.head? = some '\n' ∧ ∀ t, text = '/' :: '*' :: t → ['*', '/'] <:+ t) :
    ofMark c (cs ++ after) = ((ofMark c cs).1, (ofMark c cs).2 ++ after) := by
  fun_cases ofMark c cs with
  | case2 =>
    have hc : (quotation cs).closed = true := by
      cases hc : (quotation cs).closed with
      | true => rfl
      | false => exact absurd (by rw [ofMark, ofQuotation, hc]; rfl) (hl _ _)
    simp [ofMark, quotation_append_of_closed cs after hc, ofQuotation, hc]
  | case3 rest =>
    have hn := (hg _ rfl).1
    have hs : ∀ d ∈ after.head?, (d != '\n') = false := by simp [hn]
    obtain ⟨ht, hd⟩ := takeWhile_append_of_stop hs rest
    simp [ofMark, ht, hd]
  | case4 rest =>
    have hc := (hg _ rfl).2 _ rfl
    simp [ofMark, commentTail_append_of_closed rest after hc]
  | case9 _ _ hn hq h₁ h₂ h₃ h₄ h₅ h₆ =>
    have not_cons {b d : Char} (hd : d = '=' ∨ d = '/' ∨ d = '*')
        (h : ∀ rest, c = b → cs = d :: rest → False) :
        ∀ rest, c = b → cs ++ after = d :: rest → False := by
      intro rest hc happend
      obtain ⟨ds, hds⟩ := eq_cons_of_append ha hd happend
      exact h ds hc hds
    rw [ofMark]
    · exact hn
    · exact hq
    · exact not_cons (by simp) h₁
    · exact not_cons (by simp) h₂
    · exact not_cons (by simp) h₃
    · exact not_cons (by simp) h₄
    · exact not_cons (by simp) h₅
    · exact not_cons (by simp) h₆
  | _ => rfl

/-- The first piece stays what it is before a text that does not extend it. A
gap may be extended by anything but a newline, and strings and comments have
to be closed. -/
theorem first_append_of_apart {c : Char} {cs after : List Char} (ha : Apart after)
    (hl : ∀ text σ, (first c cs).1 ≠ .lexeme (.unknown text) σ)
    (hg : ∀ text, (first c cs).1 = .gap text →
      after.head? = some '\n' ∧ ∀ t, text = '/' :: '*' :: t → ['*', '/'] <:+ t) :
    first c (cs ++ after) = ((first c cs).1, (first c cs).2 ++ after) := by
  by_cases hb : isBlank c = true
  · simp only [first, hb, if_true] at hg ⊢
    have hn := (hg _ rfl).1
    have hs : ∀ d ∈ after.head?, isBlank d = false := by
      rw [hn]
      rintro _ ⟨⟩
      rfl
    obtain ⟨ht, hd⟩ := takeWhile_append_of_stop hs cs
    rw [ht, hd]
  by_cases hd : c.isDigit = true
  · have hs : ∀ d ∈ after.head?, d.isDigit = false := by
      intro d h
      refine Bool.eq_false_iff.2 fun hdigit => ?_
      have hd := (ha d h).1
      rw [isNameChar_of_isDigit hdigit] at hd
      cases hd
    obtain ⟨ht, hd'⟩ := takeWhile_append_of_stop hs cs
    simp only [first, hb, hd, ht, hd', if_true, if_false, Bool.false_eq_true]
  by_cases hn : isNameStart c = true
  · obtain ⟨ht, hd'⟩ := takeWhile_append_of_stop (p := isNameChar) (fun d h => (ha d h).1) cs
    simp only [first, hb, hd, hn, ht, hd', if_true, if_false, Bool.false_eq_true]
  · simp only [first, hb, hd, hn, if_false, Bool.false_eq_true] at hl hg ⊢
    exact ofMark_append_of_apart ha hl hg

/-- A text in which nothing is left open and the text after a newline are
divided one after the other. -/
theorem all_append_newline {a : List Char} (hl : ∀ text σ, .lexeme (.unknown text) σ ∉ all a)
    (hc : ∀ t, .gap ('/' :: '*' :: t) ∈ all a → ['*', '/'] <:+ t) (b : List Char) :
    all (a ++ '\n' :: b) = all a ++ .gap ['\n'] :: all b := by
  match a with
  | [] =>
    rw [List.nil_append, all_cons, all_nil]
    rfl
  | c :: rest =>
    rw [all_cons] at hl hc ⊢
    have hfirst : first c (rest ++ '\n' :: b) =
        ((first c rest).1, (first c rest).2 ++ '\n' :: b) := by
      apply first_append_of_apart
      · exact Parts.apart (by decide) b
      · exact fun text σ h => hl text σ (by simp [h])
      · exact fun text h => ⟨rfl, fun t ht => hc t (by simp [h, ht])⟩
    have hrest := all_append_newline (fun text σ h => hl text σ (List.mem_cons_of_mem _ h))
      (fun t h => hc t (List.mem_cons_of_mem _ h)) b
    rw [List.cons_append, all_cons, hfirst, hrest, List.cons_append]
termination_by a.length
decreasing_by exact length_first_lt c rest

/-- A text that is one piece, namely that of a token. -/
def Spells (σ : List Char) (t : Token) : Prop :=
  all σ = [.lexeme t σ]

theorem spells_of_first {c : Char} {cs : List Char} {t : Token}
    (h : first c cs = (.lexeme t (c :: cs), [])) : Spells (c :: cs) t := by
  rw [Spells, all_cons, h, all_nil]

theorem eq_nil_of_all {text : List Char} (h : all text = []) : text = [] := by
  have htext := flatMap_text_all text
  rw [h] at htext
  exact htext.symm

theorem all_spelled {σ after : List Char} {t : Token} (h : Spells σ t)
    (hu : ∀ text, t ≠ .unknown text) (ha : Apart after) :
    all (σ ++ after) = .lexeme t σ :: all after := by
  cases σ with
  | nil => simp [Spells] at h
  | cons c cs =>
    rw [Spells, all_cons] at h
    obtain ⟨hp, hr⟩ := List.cons.inj h
    have hfirst : first c (cs ++ after) = ((first c cs).1, (first c cs).2 ++ after) := by
      apply first_append_of_apart ha
      · rw [hp]
        rintro text σ ⟨⟩
        exact hu text rfl
      · rw [hp]
        nofun
    rw [List.cons_append, all_cons, hfirst, hp, eq_nil_of_all hr, List.nil_append]

theorem lexed_cons (c : Char) (rest : List Char) :
    lexed (c :: rest) = (first c rest).1.token?.toList ++ lexed (first c rest).2 := by
  rw [lexed, all_cons, List.filterMap_cons]
  cases (first c rest).1.token? <;> rfl

theorem lexed_spelled {σ after : List Char} {t : Token} (h : Spells σ t)
    (hu : ∀ text, t ≠ .unknown text) (ha : Apart after) :
    lexed (σ ++ after) = t :: lexed after := by
  rw [lexed, all_spelled h hu ha]
  rfl

theorem lexed_of_first {c : Char} {t : Token} {rest σ after : List Char}
    (h : first c rest = (.lexeme t σ, after)) : lexed (c :: rest) = t :: lexed after := by
  rw [lexed_cons, h]
  rfl

theorem located_blank {c : Char} (h : isBlank c = true) (line : Nat) (rest : List Char) :
    located line (all (c :: rest)) = located line (all rest) := by
  have skip (d : Char) (hd : isBlank d = true) (ds : List Char) :
      located line (all (d :: ds)) = located line (all (ds.dropWhile isBlank)) := by
    have hblanks : ∀ b ∈ d :: ds.takeWhile isBlank, isBlank b = true :=
      List.forall_mem_cons.2 ⟨hd, List.all_eq_true.1 List.all_takeWhile⟩
    have hlines : (gap (d :: ds.takeWhile isBlank)).lines = 0 :=
      List.count_eq_zero.2 fun hmem => absurd (hblanks _ hmem) (by decide)
    rw [all_cons, first, if_pos hd, located, hlines, Nat.add_zero]
  rw [skip c h]
  cases rest with
  | nil => rfl
  | cons d ds =>
    by_cases hd : isBlank d = true
    · rw [List.dropWhile_cons_of_pos hd, skip d hd]
    · rw [List.dropWhile_cons_of_neg hd]

theorem located_newline (line : Nat) (rest : List Char) :
    located line (all ('\n' :: rest)) = located (line + 1) (all rest) := by
  rw [all_cons]
  rfl

theorem lexed_blank {c : Char} (h : isBlank c = true) (rest : List Char) :
    lexed (c :: rest) = lexed rest := by
  rw [lexed, ← map_token_located 1, located_blank h, map_token_located, lexed]

theorem lexed_newline (rest : List Char) : lexed ('\n' :: rest) = lexed rest := by
  rw [lexed, ← map_token_located 1, located_newline, map_token_located, lexed]

end Script.Piece
