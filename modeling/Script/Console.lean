import Script.CommandLine
import Script.Execution
import Script.Outline.Forms
import Script.Text.Lines
import Script.Tree.Printing

/-!
# The console

A script runs once and ends with an exit code. An interactive session takes
one line after the other: a line is a program of its own or, after a colon,
a command. A program that fails is reported and leaves the environment as it
was before the line.
-/

set_option autoImplicit false

namespace Script

structure Exit where
  code : Nat
  output : String
  errors : String

namespace Console

/-- More steps than any run takes before it is broken off by other means. -/
def ample : Nat :=
  0x4000000000000000

def version : String :=
  "sprig 0.1.0\n"

def usage : String :=
  "Usage: sprig [OPTIONS] [FILE]\n"

def tokenLine (t : Located) : List Char :=
  let number := Numeral.ofNat t.line
  List.replicate (4 - number.length) ' ' ++ number ++ ' ' :: ' ' :: t.token.outline.write ['\n']

/-- Takes a text as far as the mode says and writes what the mode shows. The
environment to go on with is another one only if the text was evaluated. -/
def process (fuel : Nat) (mode : Mode) (source : String) (showResult : Bool)
    (env : Environment) : Trace → Outcome Failure Environment × Trace := fun trace =>
  let tokens := tokenize source
  match checkTokens tokens with
  | .error e => (.failed e, trace)
  | .ok () =>
    if mode = .lex then
      (.done env, Event.printed (String.ofList (tokens.flatMap tokenLine)) :: trace)
    else
      match parse tokens with
      | .error found => (.failed (.unexpectedToken found), trace)
      | .ok program =>
        if mode = .parse then
          (.done env,
            Event.printed (program.outline.tallText ++ "\n" ++ program.print ++ "\n") :: trace)
        else
          match (Node.source program).evaluate fuel env trace with
          | (.failed e, trace) => (.failed (.evaluation e), trace)
          | (.exhausted, trace) => (.exhausted, trace)
          | (.done (value, env), trace) =>
            (.done env,
              if showResult then Event.printed (String.ofList (value.display ++ ['\n'])) :: trace
              else trace)

def runScript (fuel : Nat) (mode : Mode) (source : String) (showResult : Bool) : Exit :=
  match process fuel mode source showResult .prelude [] with
  | (.done _, trace) => ⟨0, trace.output, ""⟩
  | (.failed e, trace) => ⟨1, trace.output, e.message ++ "\n"⟩
  | (.exhausted, trace) => ⟨1, trace.output, ""⟩

/-! ### Interactive sessions -/

def banner : String :=
  version ++ "Type :help for help, :quit to exit.\n\n"

def help : String :=
  "Commands:\n" ++
  "  :help, :h   Show this help\n" ++
  "  :env        List variables and functions\n" ++
  "  :quit, :q   Exit the REPL\n" ++
  "\n" ++
  "Every line is a program, for example:\n" ++
  "  x = 40 + 2;\n" ++
  "  def fib(n) \x7b if (n < 2) \x7b n; \x7d else \x7b fib(n - 1) + fib(n - 2); \x7d \x7d\n" ++
  "  print(fib(10));\n"

inductive Command where
  | quit
  | help
  | environment
  | unknown (line : String)

def Command.ofLine (line : String) : Command :=
  match line with
  | ":quit" | ":q" => .quit
  | ":help" | ":h" => .help
  | ":env" => .environment
  | line => .unknown line

inductive Line where
  | blank
  | command (c : Command)
  | program (source : String)

def Line.ofText (text : List Char) : Line :=
  match Text.trim text with
  | [] => .blank
  | ':' :: rest => .command (.ofLine (String.ofList (':' :: rest)))
  | source => .program (String.ofList source)

def listing (env : Environment) : String :=
  String.join (env.vars.toList.map fun (name, value) =>
    "  " ++ name ++ " = " ++ String.ofList value.display ++ "\n") ++
  String.join (env.funcs.toList.map fun (name, function) =>
    "  " ++ name ++ "/" ++ String.ofList (Numeral.ofNat function.arity) ++
      (match function with
       | .defined _ _ => " (defined)\n"
       | .embedded _ _ => " (embedded)\n"))

def Command.reply (env : Environment) : Command → String
  | .quit => ""
  | .help => Console.help
  | .environment => listing env
  | .unknown line => "Unknown command: " ++ line ++ "\nType :help for help.\n"

/-- An interactive session: the environment in force and what has been
written. -/
structure Interaction where
  env : Environment
  trace : Trace
  /-- The messages of failures, the latest first. -/
  errors : List String

def Interaction.take (fuel : Nat) (mode : Mode) (s : Interaction) (line : Line) : Interaction :=
  match line with
  | .blank => s
  | .command c => { s with trace := Event.printed (c.reply s.env) :: s.trace }
  | .program source =>
    match process fuel mode source true s.env s.trace with
    | (.done env, trace) => { s with env := env, trace := trace }
    | (.failed e, trace) => { s with trace := trace, errors := (e.message ++ "\n") :: s.errors }
    | (.exhausted, trace) => { s with trace := trace }

def Line.quits : Line → Bool
  | .command .quit => true
  | _ => false

def Interaction.takeAll (fuel : Nat) (mode : Mode) (s : Interaction) : List Line → Interaction
  | [] => s
  | line :: rest => if line.quits then s else (s.take fuel mode line).takeAll fuel mode rest

/-- An interactive session over the lines that a reader makes of an input. -/
def interact (reader : String → List (List Char)) (fuel : Nat) (mode : Mode) (input : String) :
    Exit :=
  let lines := (reader input).map Line.ofText
  let s := Interaction.takeAll fuel mode ⟨.prelude, [.printed banner], []⟩ lines
  ⟨0, s.trace.output, String.join s.errors.reverse⟩

def typedLines (input : String) : List (List Char) :=
  (Text.lines input.toList).map Text.retyped

/-! ### The command -/

inductive FileError where
  | missing
  | notText

def FileError.message : FileError → String
  | .missing => "No such file or directory (os error 2)"
  | .notText => "stream did not contain valid UTF-8"

def fileText (content : Option ByteArray) : Except FileError String :=
  match content with
  | none => .error .missing
  | some bytes =>
    match String.fromUTF8? bytes with
    | some text => .ok text
    | none => .error .notText

def invoke (fuel : Nat) (content : String → Option ByteArray) (input : String) :
    Invocation → Exit
  | .version => ⟨0, version, ""⟩
  | .interactive mode => interact typedLines fuel mode input
  | .script (.text source) mode showResult => runScript fuel mode source showResult
  | .script (.file name) mode showResult =>
    match fileText (content name) with
    | .ok source => runScript fuel mode source showResult
    | .error e =>
      ⟨1, "", "Failed to read the input file '" ++ name ++ "': " ++ e.message ++ "\n"⟩

/-- The whole command. Arguments that are not in order end it at once. -/
def command (fuel : Nat) (arguments : List String) (content : String → Option ByteArray)
    (input : String) : Exit :=
  match CommandLine.parse? arguments with
  | some invocation => invoke fuel content input invocation
  | none => ⟨2, "", usage⟩

end Console

end Script
