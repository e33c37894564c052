import Script.Token
import Script.Word

/-!
# Pieces of a text

Reading divides a text into consecutive pieces, each the longest that some
rule allows at its place: blanks, newlines and comments are passed over, and
every other piece spells a token. Nothing is lost, so the pieces written one
after the other are the text again.

A run of digits too large for an integer, a string that is never closed and
a character that starts no word each become an unknown token.
-/

set_option autoImplicit false

namespace Script

/-- A stretch of text, passed over or spelling a token. -/
inductive Piece where
  | gap (text : List Char)
  | lexeme (token : Token) (text : List Char)

namespace Piece

def text : Piece → List Char
  | .gap text => text
  | .lexeme _ text => text

def isBlank (c : Char) : Bool :=
  c == ' ' || c == '\t' || c == '\x0c' || c == '\r'

def isNameStart (c : Char) : Bool :=
  c.isAlpha || c == '_'

def isNameChar (c : Char) : Bool :=
  c.isAlphanum || c == '_'

def number (run : List Char) : Token :=
  match word? (Numeral.value run) with
  | some n => .int n
  | none => .unknown (String.ofList run)

def word (run : List Char) : Token :=
  (Token.ofWord? (String.ofList run)).getD (.ident (String.ofList run))

def single : Char → Token
  | '+' => .plus
  | '-' => .minus
  | '*' => .star
  | '/' => .slash
  | '=' => .assign
  | '<' => .less
  | '>' => .greater
  | '!' => .bang
  | '(' => .leftParen
  | ')' => .rightParen
  | '{' => .leftBrace
  | '}' => .rightBrace
  | ',' => .comma
  | ';' => .semicolon
  | c => .unknown (String.singleton c)

/-- The rest of a block comment with its end, and the text after it. A
comment without an end takes all of the text. -/
def commentTail : List Char → List Char × List Char
  | [] => ([], [])
  | '*' :: '/' :: rest => (['*', '/'], rest)
  | c :: rest =>
    let (tail, after) := commentTail rest
    (c :: tail, after)

/-- What follows an opening quote: the text between the quotes, whether a
closing quote was found, and the text after it. -/
structure Quotation where
  body : List Char
  closed : Bool
  after : List Char

/-- Reads up to the closing quote. A backslash takes the next character with
it; it may not stand before a newline or at the end of the text. -/
def quotation : List Char → Quotation
  | [] => ⟨[], false, []⟩
  | '"' :: rest => ⟨[], true, rest⟩
  | ['\\'] => ⟨[], false, ['\\']⟩
  | '\\' :: '\n' :: rest => ⟨[], false, '\\' :: '\n' :: rest⟩
  | '\\' :: c :: rest =>
    let q := quotation rest
    ⟨'\\' :: c :: q.body, q.closed, q.after⟩
  | c :: rest =>
    let q := quotation rest
    ⟨c :: q.body, q.closed, q.after⟩

/-- Resolves the four escapes of a string. A backslash before any other
character stands for itself. -/
def unescape : List Char → List Char
  | '\\' :: 'n' :: rest => '\n' :: unescape rest
  | '\\' :: 't' :: rest => '\t' :: unescape rest
  | '\\' :: '"' :: rest => '"' :: unescape rest
  | '\\' :: '\\' :: rest => '\\' :: unescape rest
  | '\\' :: c :: rest => '\\' :: c :: unescape rest
  | c :: rest => c :: unescape rest
  | [] => []

def ofQuotation (q : Quotation) : Piece :=
  if q.closed then
    .lexeme (.string (String.ofList (unescape q.body))) ('"' :: (q.body ++ ['"']))
  else
    .lexeme (.unknown (String.ofList ('"' :: q.body))) ('"' :: q.body)

def ofMark : Char → List Char → Piece × List Char
  | '\n', rest => (.gap ['\n'], rest)
  | '"', rest => (ofQuotation (quotation rest), (quotation rest).after)
  | '/', '/' :: rest =>
    (.gap ('/' :: '/' :: rest.takeWhile (· != '\n')), rest.dropWhile (· != '\n'))
  | '/', '*' :: rest => (.gap ('/' :: '*' :: (commentTail rest).1), (commentTail rest).2)
  | '=', '=' :: rest => (.lexeme .equal ['=', '='], rest)
  | '!', '=' :: rest => (.lexeme .notEqual ['!', '='], rest)
  | '<', '=' :: rest => (.lexeme .lessEqual ['<', '='], rest)
  | '>', '=' :: rest => (.lexeme .greaterEqual ['>', '='], rest)
  | c, rest => (.lexeme (single c) [c], rest)

def first (c : Char) (rest : List Char) : Piece × List Char :=
  if isBlank c then
    (.gap (c :: rest.takeWhile isBlank), rest.dropWhile isBlank)
  else if c.isDigit then
    (.lexeme (number (c :: rest.takeWhile Char.isDigit)) (c :: rest.takeWhile Char.isDigit),
      rest.dropWhile Char.isDigit)
  else if isNameStart c then
    (.lexeme (word (c :: rest.takeWhile isNameChar)) (c :: rest.takeWhile isNameChar),
      rest.dropWhile isNameChar)
  else
    ofMark c rest

theorem commentTail_append (text : List Char) :
    (commentTail text).1 ++ (commentTail text).2 = text := by
  fun_induction commentTail text with
  | case1 => rfl
  | case2 => rfl
  | case3 c rest _ tail after h ih => simpa [h] using ih

theorem quotation_append (text : List Char) :
    (quotation text).body ++ (if (quotation text).closed then ['"'] else []) ++
      (quotation text).after = text := by
  fun_induction quotation text with
  | case5 c rest q _ ih => simpa using ih
  | case6 =>
    rename_i ih
    simpa using ih
  | _ => rfl

theorem ofMark_append (c : Char) (rest : List Char) :
    (ofMark c rest).1.text ++ (ofMark c rest).2 = c :: rest := by
  fun_cases ofMark c rest with
  | case2 rest =>
    have h := quotation_append rest
    by_cases hc : (quotation rest).closed <;> simp_all [ofQuotation, text]
  | case4 rest => simp [text, commentTail_append]
  | _ => simp [text, List.takeWhile_append_dropWhile]

theorem ofMark_text_ne_nil (c : Char) (rest : List Char) : (ofMark c rest).1.text ≠ [] := by
  fun_cases ofMark c rest with
  | case2 rest => by_cases hc : (quotation rest).closed <;> simp [ofQuotation, text, hc]
  | _ => simp [text]

theorem first_append (c : Char) (rest : List Char) :
    (first c rest).1.text ++ (first c rest).2 = c :: rest := by
  unfold first
  split
  · simp [text, List.takeWhile_append_dropWhile]
  split
  · simp [text, List.takeWhile_append_dropWhile]
  split
  · simp [text, List.takeWhile_append_dropWhile]
  · exact ofMark_append c rest

theorem first_text_ne_nil (c : Char) (rest : List Char) : (first c rest).1.text ≠ [] := by
  unfold first
  split
  · simp [text]
  split
  · simp [text]
  split
  · simp [text]
  · exact ofMark_text_ne_nil c rest

theorem length_first_lt (c : Char) (rest : List Char) :
    (first c rest).2.length < (c :: rest).length := by
  have h := congrArg List.length (first_append c rest)
  have := List.length_pos_iff.2 (first_text_ne_nil c rest)
  rw [List.length_append] at h
  omega

def allOnto (found : List Piece) : List Char → List Piece
  | [] => found.reverse
  | c :: rest => allOnto ((first c rest).1 :: found) (first c rest).2
termination_by text => text.length
decreasing_by exact length_first_lt c rest

def all (text : List Char) : List Piece :=
  allOnto [] text

theorem allOnto_append (found more : List Piece) (text : List Char) :
    allOnto (more ++ found) text = found.reverse ++ allOnto more text := by
  fun_induction allOnto more text with
  | case1 more => simp [allOnto]
  | case2 more c rest ih =>
    rw [allOnto]
    exact ih

@[simp] theorem all_nil : all [] = [] := by
  simp [all, allOnto]

theorem all_cons (c : Char) (rest : List Char) :
    all (c :: rest) = (first c rest).1 :: all (first c rest).2 := by
  rw [all, allOnto]
  exact allOnto_append [(first c rest).1] [] _

theorem flatMap_text_all (text : List Char) : (all text).flatMap Piece.text = text := by
  match text with
  | [] => simp
  | c :: rest =>
    rw [all_cons, List.flatMap_cons, flatMap_text_all (first c rest).2, first_append]
termination_by text.length
decreasing_by exact length_first_lt c rest

/-- How many lines a piece moves on. An unknown token moves on none, even if
its text spans lines. -/
def lines : Piece → Nat
  | .lexeme (.unknown _) _ => 0
  | piece => piece.text.count '\n'

def located (line : Nat) : List Piece → List Located
  | [] => []
  | .gap text :: rest => located (line + (gap text).lines) rest
  | .lexeme token text :: rest =>
    ⟨token, line⟩ :: located (line + (lexeme token text).lines) rest

end Piece

def tokenize (source : String) : List Located :=
  Piece.located 1 (Piece.all source.toList)

def firstUnknown? : List Located → Option (String × Nat)
  | [] => none
  | ⟨.unknown text, line⟩ :: _ => some (text, line)
  | _ :: rest => firstUnknown? rest

end Script
