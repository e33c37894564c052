import Script.Proofs.Grammar.Acceptance
import Script.Proofs.Words

/-!
# Printing and reading back

The text that a well-formed program is printed as divides into the words of
the program, whatever is printed after them. The words are a word of the
grammar for the program, so it is read back as it was. No other program is,
because whatever is read from a text is well formed.
-/

set_option autoImplicit false

namespace Script
open Piece Grammar

/-! ### What parts one token from the next -/

theorem apart_space (after : List Char) : Apart (' ' :: after) :=
  Parts.apart (by decide) after

theorem apart_leftParen (after : List Char) : Apart ('(' :: after) :=
  Parts.apart (by decide) after

theorem apart_rightParen (after : List Char) : Apart (')' :: after) :=
  Parts.apart (by decide) after

theorem apart_comma (after : List Char) : Apart (',' :: after) :=
  Parts.apart (by decide) after

theorem apart_semicolon (after : List Char) : Apart (';' :: after) :=
  Parts.apart (by decide) after

/-! ### Fixed parts of the text -/

theorem lexed_leftParen (after : List Char) :
    lexed ('(' :: after) = .leftParen :: lexed after :=
  lexed_of_first rfl

theorem lexed_rightParen (after : List Char) :
    lexed (')' :: after) = .rightParen :: lexed after :=
  lexed_of_first rfl

theorem lexed_leftBrace (after : List Char) :
    lexed ('{' :: after) = .leftBrace :: lexed after :=
  lexed_of_first rfl

theorem lexed_rightBrace (after : List Char) :
    lexed ('}' :: after) = .rightBrace :: lexed after :=
  lexed_of_first rfl

theorem lexed_semicolon (after : List Char) :
    lexed (';' :: after) = .semicolon :: lexed after :=
  lexed_of_first rfl

theorem lexed_comma (after : List Char) :
    lexed (',' :: ' ' :: after) = .comma :: lexed after := by
  have hcomma : lexed (',' :: ' ' :: after) = .comma :: lexed (' ' :: after) := lexed_of_first rfl
  rw [hcomma, lexed_blank rfl]

theorem spells_operator (op : Operator) : Spells op.spelling.toList op.token := by
  cases op <;> exact spells_of_first rfl

theorem lexed_operator (op : Operator) (after : List Char) :
    lexed (' ' :: (op.spelling.toList ++ ' ' :: after)) = op.token :: lexed after := by
  have hop : ∀ text, op.token ≠ .unknown text := by cases op <;> nofun
  rw [lexed_blank rfl, lexed_spelled (spells_operator op) hop (apart_space after),
    lexed_blank rfl]

theorem lexed_ifHead (after : List Char) :
    lexed ("if (".toList ++ after) = .ifWord :: .leftParen :: lexed after := by
  have hif : lexed ("if (".toList ++ after) = .ifWord :: lexed (' ' :: '(' :: after) :=
    lexed_of_first rfl
  rw [hif, lexed_blank rfl, lexed_leftParen]

theorem lexed_whileHead (after : List Char) :
    lexed ("while (".toList ++ after) = .whileWord :: .leftParen :: lexed after := by
  have hwhile : lexed ("while (".toList ++ after) = .whileWord :: lexed (' ' :: '(' :: after) :=
    lexed_of_first rfl
  rw [hwhile, lexed_blank rfl, lexed_leftParen]

theorem lexed_defHead (after : List Char) :
    lexed ("def ".toList ++ after) = .defWord :: lexed after := by
  have hdef : lexed ("def ".toList ++ after) = .defWord :: lexed (' ' :: after) :=
    lexed_of_first rfl
  rw [hdef, lexed_blank rfl]

theorem lexed_assignSign (after : List Char) :
    lexed (" = ".toList ++ after) = .assign :: lexed after := by
  have hspace : lexed (" = ".toList ++ after) = lexed ('=' :: ' ' :: after) := lexed_blank rfl _
  have hsign : lexed ('=' :: ' ' :: after) = .assign :: lexed (' ' :: after) := lexed_of_first rfl
  rw [hspace, hsign, lexed_blank rfl]

theorem lexed_intoBlock (after : List Char) :
    lexed (intoBlock ++ after) = .rightParen :: .leftBrace :: lexed after := by
  have hsplit : intoBlock ++ after = ')' :: ' ' :: '{' :: after := rfl
  rw [hsplit, lexed_rightParen, lexed_blank rfl, lexed_leftBrace]

theorem lexed_blockEnd (after : List Char) :
    lexed (blockEnd ++ after) = .rightBrace :: lexed after := by
  have hsplit : blockEnd ++ after = ' ' :: '}' :: after := rfl
  rw [hsplit, lexed_blank rfl, lexed_rightBrace]

theorem lexed_intoElse (after : List Char) :
    lexed (intoElse ++ after) = .rightBrace :: .elseWord :: .leftBrace :: lexed after := by
  have hsplit : intoElse ++ after = blockEnd ++ ' ' :: ("else".toList ++ ' ' :: '{' :: after) :=
    rfl
  have helse : lexed ("else".toList ++ ' ' :: '{' :: after) =
      .elseWord :: lexed (' ' :: '{' :: after) := lexed_of_first rfl
  rw [hsplit, lexed_blockEnd, lexed_blank rfl, helse, lexed_blank rfl, lexed_leftBrace]

theorem lexed_name {x : String} (h : IsName x) {after : List Char} (ha : Apart after) :
    lexed (x.toList ++ after) = .ident x :: lexed after :=
  lexed_spelled (spells_name h) nofun ha

/-! ### Trees -/

theorem writeInt_of_unsigned {n : Int64} (h : Unsigned n) :
    writeInt n = Numeral.ofNat n.toInt.natAbs := by
  have hmin : n ≠ Int64.minValue := by
    rintro rfl
    revert h
    unfold Unsigned
    decide
  have hneg : ¬ n.toInt < 0 := Int.not_lt.2 h
  rw [writeInt, if_neg hmin, if_neg hneg]

mutual

theorem lexed_write : ∀ (e : Expr) {after : List Char}, e.Proper Unsigned → Apart after →
    lexed (e.write after) = e.words ++ lexed after
  | .int n, after, h, ha => by
    rw [Expr.write_int, writeInt_of_unsigned h]
    exact lexed_spelled (spells_int h) nofun ha
  | .bool true, after, _, ha => lexed_spelled (spells_of_first rfl) nofun ha
  | .bool false, after, _, ha => lexed_spelled (spells_of_first rfl) nofun ha
  | .string text, after, _, ha => lexed_spelled (spells_literal text) nofun ha
  | .null, after, _, ha => lexed_spelled (spells_of_first rfl) nofun ha
  | .variable x, after, h, ha => lexed_name h ha
  | .binary op left right, after, h, _ => by
    rw [Expr.write_binary, lexed_leftParen, lexed_write left h.1 (apart_space _),
      lexed_operator, lexed_write right h.2 (apart_rightParen _), lexed_rightParen]
    simp [Expr.words, inParens]
  | .call f es, after, h, _ => by
    rw [Expr.write_call, lexed_name h.1 (apart_leftParen _), lexed_leftParen,
      lexed_writeAll es h.2 after]
    simp [Expr.words, inParens]

theorem lexed_writeAll : ∀ (es : List Expr), Expr.AllProper Unsigned es → ∀ after : List Char,
    lexed (Expr.writeAll es (')' :: after)) = Expr.wordsAll es ++ .rightParen :: lexed after
  | [], _, after => lexed_rightParen after
  | [e], h, after => by
    rw [Expr.writeAll, lexed_write e h.1 (apart_rightParen _), lexed_rightParen, Expr.wordsAll]
  | e :: e' :: es, h, after => by
    have hwrite : Expr.writeAll (e :: e' :: es) (')' :: after) =
      e.write (',' :: ' ' :: Expr.writeAll (e' :: es) (')' :: after)) := rfl
    have hwords : Expr.wordsAll (e :: e' :: es) =
      e.words ++ .comma :: Expr.wordsAll (e' :: es) := rfl
    rw [hwrite, lexed_write e h.1 (apart_comma _), lexed_comma,
      lexed_writeAll (e' :: es) h.2 after, hwords, List.append_assoc, List.cons_append]

end

theorem lexed_writeNames {xs : List String} (h : ∀ x ∈ xs, IsName x) (after : List Char) :
    lexed (writeNames xs (intoBlock ++ after)) =
      parameterWords xs ++ .rightParen :: .leftBrace :: lexed after := by
  induction xs with
  | nil => exact lexed_intoBlock after
  | cons x xs ih =>
    obtain ⟨hx, hxs⟩ := List.forall_mem_cons.1 h
    cases xs with
    | nil =>
      have hlast : lexed (x.toList ++ (intoBlock ++ after)) =
        .ident x :: lexed (intoBlock ++ after) := lexed_name hx (apart_rightParen _)
      rw [writeNames, hlast, lexed_intoBlock]
      rfl
    | cons y ys =>
      have hwrite : writeNames (x :: y :: ys) (intoBlock ++ after) =
        x.toList ++ ',' :: ' ' :: writeNames (y :: ys) (intoBlock ++ after) := rfl
      rw [hwrite, lexed_name hx (apart_comma _), lexed_comma, ih hxs]
      rfl

theorem lexed_condition {c : Expr} (h : c.Proper Unsigned) (after : List Char) :
    lexed (c.write (intoBlock ++ after)) =
      c.words ++ .rightParen :: .leftBrace :: lexed after := by
  have ha : Apart (intoBlock ++ after) := apart_rightParen _
  rw [lexed_write c h ha, lexed_intoBlock]

mutual

theorem lexed_writeStatement : ∀ (s : Statement) {after : List Char}, s.Proper Unsigned →
    lexed (s.write after) = s.words ++ lexed after
  | .expression e, after, h => by
    rw [Statement.write_expression, lexed_write e h (apart_semicolon _), lexed_semicolon]
    simp [Statement.words]
  | .assign x e, after, h => by
    have hname : lexed (x.toList ++ (" = ".toList ++ e.write (';' :: after))) =
      .ident x :: lexed (" = ".toList ++ e.write (';' :: after)) :=
        lexed_name h.1 (apart_space _)
    rw [Statement.write_assign, hname, lexed_assignSign, lexed_write e h.2 (apart_semicolon _),
      lexed_semicolon]
    simp [Statement.words]
  | .branch c body none, after, h => by
    rw [Statement.write_branch, lexed_ifHead, lexed_condition h.1,
      lexed_writeStatements body h.2,
      lexed_blockEnd]
    simp [Statement.words, inParens, inBraces]
  | .branch c body (some other), after, h => by
    rw [Statement.write_branch_otherwise, lexed_ifHead, lexed_condition h.1,
      lexed_writeStatements body h.2.1, lexed_intoElse, lexed_writeStatements other h.2.2,
      lexed_blockEnd]
    simp [Statement.words, inParens, inBraces]
  | .loop c body, after, h => by
    rw [Statement.write_loop, lexed_whileHead, lexed_condition h.1,
      lexed_writeStatements body h.2,
      lexed_blockEnd]
    simp [Statement.words, inParens, inBraces]

theorem lexed_writeStatements :
    ∀ (ss : List Statement) {after : List Char}, Statement.AllProper Unsigned ss →
      lexed (Statement.writeAll ss after) = Statement.wordsAll ss ++ lexed after
  | [], after, _ => rfl
  | s :: ss, after, h => by
    rw [Statement.writeAll, lexed_blank rfl, lexed_writeStatement s h.1,
      lexed_writeStatements ss h.2]
    simp [Statement.wordsAll]

end

theorem lexed_writeAtTop {s : Statement} (h : s.ProperAtTop Unsigned) (after : List Char) :
    lexed (s.write after) = s.words ++ lexed after := by
  cases s with
  | define f params body =>
    obtain ⟨hf, hparams, hbody⟩ := h
    rw [Statement.write_define, lexed_defHead, lexed_name hf (apart_leftParen _), lexed_leftParen,
      lexed_writeNames hparams, lexed_writeStatements body hbody, lexed_blockEnd]
    simp [Statement.words, inBraces]
  | _ => exact lexed_writeStatement _ h

theorem lexed_writeLines {ss : List Statement} (h : ∀ s ∈ ss, s.ProperAtTop Unsigned) :
    lexed (writeLines ss []) = Statement.wordsAll ss := by
  induction ss with
  | nil => exact lexed_nil
  | cons s ss ih =>
    obtain ⟨hs, hss⟩ := List.forall_mem_cons.1 h
    cases ss with
    | nil =>
      rw [writeLines, lexed_writeAtTop hs, lexed_nil]
      rfl
    | cons s' ss =>
      have hwrite : writeLines (s :: s' :: ss) [] = s.write ('\n' :: writeLines (s' :: ss) []) :=
        rfl
      rw [hwrite, lexed_writeAtTop hs, lexed_newline, ih hss]
      rfl

theorem kinds_tokenize_print {s : Source} (h : s.WellFormed) :
    kinds (tokenize s.print) = Statement.wordsAll s.statements := by
  rw [kinds, map_token_tokenize, Source.print, String.toList_ofList]
  exact lexed_writeLines h

theorem parse_print {s : Source} (h : s.WellFormed) : parse (tokenize s.print) = .ok s := by
  have hwords : Program (kinds (tokenize s.print)) s.statements := by
    rw [kinds_tokenize_print h]
    exact program_words h
  exact parse_of_program hwords

theorem wellFormed_of_parse {text : String} {s : Source} (h : parse (tokenize text) = .ok s) :
    s.WellFormed := by
  have hlexical : Lexical (kinds (tokenize text)) := by
    intro t ht
    rw [kinds, map_token_tokenize] at ht
    exact lexical_of_mem_lexed ht
  exact program_proper (program_of_parse h) hlexical

/-- A program is read back from its print as it was exactly if it is well
formed. Every program that is read from a text is, so it survives printing. -/
theorem parse_print_eq_iff_wellFormed :
    (∀ s : Source, parse (tokenize s.print) = .ok s ↔ s.WellFormed) ∧
    ∀ (text : String) (s : Source), parse (tokenize text) = .ok s →
      s.WellFormed ∧ parse (tokenize s.print) = .ok s := by
  constructor
  · intro s
    exact ⟨wellFormed_of_parse, parse_print⟩
  · intro text s h
    have hs := wellFormed_of_parse h
    exact ⟨hs, parse_print hs⟩

end Script
