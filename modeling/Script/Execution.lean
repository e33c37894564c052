import Script.Evaluation
import Script.Token.Pieces
import Script.Tree.Parsing

/-!
# Running a program

A program text is divided into tokens, the tokens are read as a tree, and
the tree is evaluated. A text with an unknown token is not read, and a text
that does not read is not evaluated at all.
-/

set_option autoImplicit false

namespace Script

def checkTokens (tokens : List Located) : Except Failure Unit :=
  match firstUnknown? tokens with
  | some (text, line) => .error (.unknownText text line)
  | none => .ok ()

def readTokens (source : String) : Except Failure (List Located) :=
  let tokens := tokenize source
  match checkTokens tokens with
  | .ok () => .ok tokens
  | .error e => .error e

def read (source : String) : Except Failure Source :=
  match readTokens source with
  | .error e => .error e
  | .ok tokens =>
    match parse tokens with
    | .ok program => .ok program
    | .error found => .error (.unexpectedToken found)

/-- Runs the program that a text holds under an environment. -/
def run (fuel : Nat) (source : String) (env : Environment) :
    Trace → Outcome Failure (Value × Environment) × Trace := fun trace =>
  match read source with
  | .error e => (.failed e, trace)
  | .ok program =>
    match (Node.source program).evaluate fuel env trace with
    | (outcome, trace) => (outcome.mapError .evaluation, trace)

def Trace.output (trace : Trace) : String :=
  String.join (trace.reverse.map Event.output)

end Script
