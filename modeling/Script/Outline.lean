/-!
# Outlines

The structure of a value laid bare: names with their parts in brackets. An
outline is written on one line, or with each part on a line of its own, four
spaces deeper than what it is part of.
-/

set_option autoImplicit false

namespace Script

inductive Outline where
  | leaf (text : List Char)
  | field (label : List Char) (part : Outline)
  /-- Parts in brackets. On one line, `gap` sets them off the brackets. -/
  | group (opening gap closing : List Char) (parts : List Outline)

namespace Outline

def tuple (name : String) (parts : List Outline) : Outline :=
  .group (name.toList ++ ['(']) [] [')'] parts

def record (name : String) (parts : List Outline) : Outline :=
  .group (name.toList ++ [' ', '{']) [' '] ['}'] parts

def list (parts : List Outline) : Outline :=
  .group ['['] [] [']'] parts

def atom (text : String) : Outline :=
  .leaf text.toList

def labelled (label : String) (part : Outline) : Outline :=
  .field label.toList part

mutual

def write : Outline → List Char → List Char
  | .leaf text, after => text ++ after
  | .field label part, after => label ++ ':' :: ' ' :: part.write after
  | .group opening _ closing [], after => opening ++ (closing ++ after)
  | .group opening gap closing (part :: parts), after =>
    opening ++ (gap ++ part.write (writeRest parts (gap ++ (closing ++ after))))

def writeRest : List Outline → List Char → List Char
  | [], after => after
  | part :: parts, after => ',' :: ' ' :: part.write (writeRest parts after)

end

def newline (depth : Nat) (after : List Char) : List Char :=
  '\n' :: (List.replicate (4 * depth) ' ' ++ after)

mutual

def writeTall (depth : Nat) : Outline → List Char → List Char
  | .leaf text, after => text ++ after
  | .field label part, after => label ++ ':' :: ' ' :: part.writeTall depth after
  | .group opening _ closing [], after => opening ++ (closing ++ after)
  | .group opening _ closing (part :: parts), after =>
    opening ++ newline (depth + 1)
      (part.writeTall (depth + 1) (writeTallRest depth parts (closing ++ after)))

def writeTallRest (depth : Nat) : List Outline → List Char → List Char
  | [], after => ',' :: newline depth after
  | part :: parts, after =>
    ',' :: newline (depth + 1) (part.writeTall (depth + 1) (writeTallRest depth parts after))

end

def text (o : Outline) : String :=
  String.ofList (o.write [])

def tallText (o : Outline) : String :=
  String.ofList (o.writeTall 0 [])

end Outline

end Script
