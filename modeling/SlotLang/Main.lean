import SlotLang.Command.Basic

/-!
# The command line

The outer layer: arguments, files and the terminal.  The first argument names
the command, `spekc` for the compiler and `spek` for the runner.  Everything
that is decided is decided in `SlotLang.Command.Basic`; the runner goes through
the machine step by step, so that lines appear as they are written.
-/

namespace SlotLang
namespace CommandLine

/-- The reason of a failed file operation. -/
def fileErrorOf : IO.Error → FileError
  | .noFileOrDirectory _ _ _ => .notFound
  | .inappropriateType _ 20 _ => .notDirectory
  | .inappropriateType _ 21 _ => .isDirectory
  | .invalidArgument _ 36 _ => .nameTooLong
  | error => .other (toString error)

/-- The contents of a file. -/
def readContents (path : String) : IO (Except FileError (List UInt8)) := do
  try
    let contents ← IO.FS.readBinFile path
    return .ok contents.data.toList
  catch error =>
    return .error (fileErrorOf error)

/-- Writes a file, and returns the reason if that failed. -/
def writeContents (path : String) (bytes : List UInt8) : IO (Option FileError) := do
  try
    IO.FS.writeBinFile path ⟨bytes.toArray⟩
    return none
  catch error =>
    return some (fileErrorOf error)

/-- A diagnostic as lines of text. -/
def reportText (diagnostic : Diagnostic) : String :=
  let help := match diagnostic.help with
    | some help => "  help: " ++ help ++ "\n"
    | none => ""
  diagnostic.code ++ "\n  " ++ diagnostic.message ++ "\n" ++ help

/-- Writes the result of a command, and returns its exit code. -/
def conclude (result : CommandResult) : IO UInt32 := do
  IO.print result.output
  IO.eprint result.log
  match result.errors with
  | .text text => IO.eprint text
  | .report diagnostic => IO.eprint (reportText diagnostic)
  return result.exit.toUInt32

/-- The compiler. -/
def compileMain : List String → IO UInt32
  | [path] => do
      match compileFile path (← readContents path) with
      | .error result => conclude result
      | .ok (target, bytes) =>
          match ← writeContents target bytes with
          | some error => conclude (unwritable target error)
          | none => conclude (.success "")
  | _ => conclude compileUsage

/-- A run that failed. -/
def concludeFault (error : RuntimeError) : IO UInt32 :=
  conclude (.failure exitSoftware (.report error.diagnostic))

/-- Writes a line to the terminal, and returns the reason if that failed. -/
def writeTerminal (line : String) : IO (Option String) := do
  try
    let output ← IO.getStdout
    output.putStrLn line
    output.flush
    return none
  catch error =>
    return some (toString error)

/-- Reads a line from the terminal; none is the end of input. -/
def readTerminal : IO (Except String (Option String)) := do
  try
    let line ← (← IO.getStdin).getLine
    return .ok (if line.isEmpty then none else some (Console.stripLineEnd line))
  catch error =>
    return .error (toString error)

/-- The run of a module on the terminal. -/
partial def runTerminal (m : CodeModule) (state : MachineState) : IO UInt32 := do
  match m.step state with
  | .next state' => runTerminal m state'
  | .halt _ => return 0
  | .fault error => concludeFault error
  | .write line state' =>
      match ← writeTerminal line with
      | some reason => concludeFault (.hostFailure reason)
      | none => runTerminal m state'
  | .read state' =>
      match ← readTerminal with
      | .error reason => concludeFault (.hostFailure reason)
      | .ok none => concludeFault .endOfInput
      | .ok (some line) => runTerminal m (state'.push (.string line))

/-- The runner. -/
def runMain : List String → IO UInt32
  | [path] => do
      match loadModule (← readContents path) with
      | .error error => conclude (unloadable error)
      | .ok m => runTerminal m (.start m)
  | _ => conclude runUsage

end CommandLine
end SlotLang

/-- The first argument selects the command. -/
def main (arguments : List String) : IO UInt32 :=
  match arguments with
  | "spekc" :: rest => SlotLang.CommandLine.compileMain rest
  | "spek" :: rest => SlotLang.CommandLine.runMain rest
  | _ => do
      let _ ← SlotLang.CommandLine.conclude SlotLang.compileUsage
      SlotLang.CommandLine.conclude SlotLang.runUsage
