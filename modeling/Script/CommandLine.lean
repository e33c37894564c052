/-!
# The command line

Arguments are read from left to right. A short option may be one of several
after one dash and takes its value from the rest of the argument or from the
next argument; a long option takes it after an equals sign or from the next
argument. A value that is an argument of its own must not look like an
option. After two dashes every argument is the name of a file.

The version is shown as soon as it is asked for, unless something before
that was wrong.
-/

set_option autoImplicit false

namespace Script

inductive Mode where
  | lex
  | parse
  | evaluate
  deriving DecidableEq

def Mode.ofName? : String → Option Mode
  | "lex" => some .lex
  | "parse" => some .parse
  | "evaluate" => some .evaluate
  | _ => none

inductive Origin where
  | text (source : String)
  | file (name : String)

/-- What the arguments ask for. -/
inductive Invocation where
  | version
  | script (origin : Origin) (mode : Mode) (showResult : Bool)
  | interactive (mode : Mode)

structure CommandLine where
  file : Option String
  text : Option String
  mode : Option Mode
  showResult : Bool

namespace CommandLine

def empty : CommandLine :=
  ⟨none, none, none, false⟩

def setFile? (c : CommandLine) (name : String) : Option CommandLine :=
  if c.file.isSome || name.isEmpty then none else some { c with file := some name }

def setText? (c : CommandLine) (source : String) : Option CommandLine :=
  if c.text.isSome then none else some { c with text := some source }

def setMode? (c : CommandLine) (name : String) : Option CommandLine :=
  if c.mode.isSome then none
  else (Mode.ofName? name).map fun mode => { c with mode := some mode }

def setShowResult? (c : CommandLine) : Option CommandLine :=
  if c.showResult then none else some { c with showResult := true }

def invocation? (c : CommandLine) : Option Invocation :=
  let mode := c.mode.getD .evaluate
  match c.text, c.file with
  | some _, some _ => none
  | some source, none => some (.script (.text source) mode c.showResult)
  | none, some name => some (.script (.file name) mode c.showResult)
  | none, none => some (.interactive mode)

def readFiles? (c : CommandLine) : List String → Option Invocation
  | [] => c.invocation?
  | name :: rest =>
    match c.setFile? name with
    | some c => c.readFiles? rest
    | none => none

inductive Valued where
  | eval
  | mode

def Valued.set? (option : Valued) (c : CommandLine) (value : String) : Option CommandLine :=
  match option with
  | .eval => c.setText? value
  | .mode => c.setMode? value

inductive Reading where
  | next (c : CommandLine)
  | valueOf (option : Valued) (c : CommandLine)
  | version
  | wrong

def take (option : Valued) (c : CommandLine) (value : String) : Reading :=
  match option.set? c value with
  | some c => .next c
  | none => .wrong

def short (c : CommandLine) : List Char → Reading
  | [] => .next c
  | 'p' :: rest =>
    match c.setShowResult? with
    | some c => c.short rest
    | none => .wrong
  | 'V' :: _ => .version
  | 'e' :: rest => shortValue .eval rest
  | 'm' :: rest => shortValue .mode rest
  | _ => .wrong
where
  shortValue (option : Valued) : List Char → Reading
    | [] => .valueOf option c
    | '=' :: value => take option c (String.ofList value)
    | value => take option c (String.ofList value)

def long (c : CommandLine) (name : List Char) (value : Option (List Char)) : Reading :=
  match String.ofList name, value with
  | "eval", none => .valueOf .eval c
  | "eval", some value => take .eval c (String.ofList value)
  | "mode", none => .valueOf .mode c
  | "mode", some value => take .mode c (String.ofList value)
  | "print-result", none =>
    match c.setShowResult? with
    | some c => .next c
    | none => .wrong
  | "version", none => .version
  | _, _ => .wrong

/-- Whether an argument looks like an option. A dash alone does not. -/
def isOption (argument : List Char) : Bool :=
  match argument with
  | '-' :: _ :: _ => true
  | _ => false

def argument (c : CommandLine) (argument : String) : Reading :=
  match argument.toList with
  | '-' :: '-' :: rest =>
    match rest.dropWhile (· != '=') with
    | _ :: value => c.long (rest.takeWhile (· != '=')) (some value)
    | [] => c.long rest none
  | '-' :: option :: options => c.short (option :: options)
  | _ =>
    match c.setFile? argument with
    | some c => .next c
    | none => .wrong

def read? (c : CommandLine) : List String → Option Invocation
  | [] => c.invocation?
  | first :: rest =>
    if first = "--" then
      c.readFiles? rest
    else
      match c.argument first with
      | .next c => c.read? rest
      | .version => some .version
      | .wrong => none
      | .valueOf option c =>
        match rest with
        | [] => none
        | value :: rest =>
          if isOption value.toList then none
          else
            match option.set? c value with
            | some c => c.read? rest
            | none => none

/-- What the arguments ask for, if they are in order. -/
def parse? (arguments : List String) : Option Invocation :=
  empty.read? arguments

end CommandLine

end Script
