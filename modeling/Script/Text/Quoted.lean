import Script.Text.Extending
import Script.Text.Unprintable

/-!
# Quoted text

Text shown between quotes. The quote, the backslash and four control
characters have short escapes; a character that would not show by itself is
written by its code point in hexadecimal; every other character stands for
itself.
-/

set_option autoImplicit false

namespace Script.Text

def codePoint (c : Char) : List Char :=
  '\\' :: 'u' :: '{' :: (Nat.toDigits 16 c.toNat ++ ['}'])

/-- Whether a character shows by itself, without the one before it. -/
def isShown (c : Char) : Bool :=
  !isUnprintable c && (!isExtending c || isSoundMark c)

def escaped (c : Char) : List Char :=
  match c with
  | '\x00' => ['\\', '0']
  | '\t' => ['\\', 't']
  | '\r' => ['\\', 'r']
  | '\n' => ['\\', 'n']
  | '"' => ['\\', '"']
  | '\\' => ['\\', '\\']
  | c => if isShown c then [c] else codePoint c

def quoted (text : String) : List Char :=
  '"' :: (text.toList.flatMap escaped ++ ['"'])

end Script.Text
