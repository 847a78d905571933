import SlotLang.CodeModule.Format
import SlotLang.Command.Console
import SlotLang.Compile
import SlotLang.Files.Directory

/-!
# Commands

Two commands work on the files of a system.  The compiler reads a program file
and writes the module next to where it is called, under the stem of the
program's name.  The runner reads a module file and runs it on the console.
Both stand on any system; what a command itself says on the error stream comes
after the log that the system keeps of it.

* `CommandResult` — exit code, output, log, and what is said about a failure.
* `compileCommand` — the compiler.
* `runCommand` — the runner.
-/

namespace SlotLang

/-- What a command itself writes to its error stream. -/
inductive ErrorOutput where
  /-- A plain text. -/
  | text (text : String)
  /-- A report on a diagnostic. -/
  | report (diagnostic : Diagnostic)
deriving DecidableEq, Repr

/-- How a command ends. -/
structure CommandResult where
  /-- The exit code. -/
  exit : UInt8
  /-- The text on the output stream. -/
  output : String
  /-- The log, which comes first on the error stream. -/
  log : String
  /-- What the command says on the error stream after the log. -/
  errors : ErrorOutput
deriving DecidableEq, Repr

namespace CommandResult

/-- Success, about which there is nothing to say. -/
def success (output : String) : CommandResult where
  exit := 0
  output := output
  log := ""
  errors := .text ""

/-- A failure without output. -/
def failure (exit : UInt8) (errors : ErrorOutput) : CommandResult where
  exit := exit
  output := ""
  log := ""
  errors := errors

/-- The result with the log of its command. -/
def withLog (log : String) (result : CommandResult) : CommandResult :=
  { result with log := log }

end CommandResult

/-- Exit code of a command that was called wrongly. -/
def exitUsage : UInt8 := 64

/-- Exit code of a program that does not compile. -/
def exitData : UInt8 := 65

/-- Exit code of a module that does not run to its end. -/
def exitSoftware : UInt8 := 70

/-- Exit code of a file that cannot be read or written. -/
def exitFile : UInt8 := 74

/-- The extension of module files. -/
def moduleExtension : String := "spekb"

/-! ## Module files -/

/-- Why a module cannot be loaded. -/
inductive LoadError where
  | file (error : FileError)
  | decode (error : DecodeError)
deriving DecidableEq, Repr

/-- The error as shown to the user. -/
def LoadError.diagnostic : LoadError → Diagnostic
  | file error => .plain "spek::decode::io" ("could not read module: " ++ error.text)
  | decode error => error.diagnostic

/-- The module in the contents of a file. -/
def loadModule (contents : Except FileError (List UInt8)) : Except LoadError CodeModule := do
  let bytes ← contents.mapError LoadError.file
  (CodeModule.decode bytes).mapError LoadError.decode

/-! ## The compiler -/

/-- How the compiler is called. -/
def compileUsage : CommandResult :=
  .failure exitUsage (.text "Usage: spekc <program.spek>\n")

/-- A program file that cannot be read. -/
def unreadable (path : String) (error : FileError) : CommandResult :=
  .failure exitFile (.text ("Error reading '" ++ path ++ "': " ++ error.text ++ "\n"))

/-- A module file that cannot be written. -/
def unwritable (path : String) (error : FileError) : CommandResult :=
  .failure exitFile (.text ("Error writing '" ++ path ++ "': " ++ error.text ++ "\n"))

/-- The text in the contents of a file. -/
def textOf (contents : Except FileError (List UInt8)) : Except FileError String := do
  match Text.ofUtf8? (← contents) with
  | some text => return text
  | none => throw .invalidText

/-- The module file that a program file leads to: its name and its bytes. -/
def compileFile (path : String) (contents : Except FileError (List UInt8)) :
    Except CommandResult (String × List UInt8) := do
  let source ← (textOf contents).mapError (unreadable path)
  let name := (FileName.stem? path).getD "out"
  let m ← (compile source name).mapError fun error =>
    .failure exitData (.report error.diagnostic)
  return (name ++ "." ++ moduleExtension, m.encode)

/-- The compiler, and the system as it leaves it behind. -/
def compileCommand {σ : Type} [OperatingSystem σ] (arguments : List String) (system : σ) :
    CommandResult × σ :=
  let log := OperatingSystem.log ("spekc" :: arguments) [] system
  match arguments with
  | [path] =>
      match compileFile path (OperatingSystem.read path system) with
      | .error result => (result.withLog log, system)
      | .ok (target, bytes) =>
          match OperatingSystem.write target bytes system with
          | (.error error, system') => ((unwritable target error).withLog log, system')
          | (.ok (), system') => ((CommandResult.success "").withLog log, system')
  | _ => (compileUsage.withLog log, system)

/-! ## The runner -/

/-- How the runner is called. -/
def runUsage : CommandResult :=
  .failure exitUsage (.text "Usage: spek <program.spekb>\n")

/-- A module that cannot be loaded. -/
def unloadable (error : LoadError) : CommandResult :=
  .failure exitSoftware (.report error.diagnostic)

/-- The result of a run on a console, unless the run had too few steps. -/
def runResult : Outcome Console → Option CommandResult
  | .finished _ console => some (.success console.output)
  | .failed error console =>
      some { CommandResult.failure exitSoftware (.report error.diagnostic) with
             output := console.output }
  | .outOfFuel _ _ => none

/-- The runner, for at most `fuel` steps of the machine. -/
def runCommand {σ : Type} [OperatingSystem σ] (fuel : Nat) (arguments : List String)
    (input : List UInt8) (system : σ) : Option CommandResult :=
  let log := OperatingSystem.log ("spek" :: arguments) input system
  match arguments with
  | [path] =>
      match loadModule (OperatingSystem.read path system) with
      | .error error => some ((unloadable error).withLog log)
      | .ok m => (runResult (m.run Console.host fuel ⟨input, ""⟩)).map (.withLog log)
  | _ => some (runUsage.withLog log)

end SlotLang
