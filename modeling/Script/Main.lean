import Script.Console

/-!
# The program

Reads the file or the input that the arguments ask for, runs the command and
writes what it gives.
-/

set_option autoImplicit false

namespace Script

def fileContent (name : String) : IO (Option ByteArray) := do
  try
    return some (← IO.FS.readBinFile name)
  catch _ =>
    return none

def standardInput : IO String := do
  let input ← IO.getStdin
  let mut text := ""
  repeat
    let line ← input.getLine
    if line.isEmpty then break
    text := text ++ line
  return text

end Script

def main (arguments : List String) : IO UInt32 := do
  let invocation := Script.CommandLine.parse? arguments
  let content ← match invocation with
    | some (.script (.file name) _ _) => Script.fileContent name
    | _ => pure none
  let input ← match invocation with
    | some (.interactive _) => Script.standardInput
    | _ => pure ""
  let exit := Script.Console.command Script.Console.ample arguments (fun _ => content) input
  (← IO.getStdout).putStr exit.output
  (← IO.getStderr).putStr exit.errors
  return exit.code.toUInt32
