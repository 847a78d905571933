import SlotLang.Assembly.Assembler
import SlotLang.Lowering.Basic
import SlotLang.Statement.Parser
import SlotLang.Token.Lexer

/-!
# Compilation

Program text becomes tokens, tokens a program, a program directives, and
directives a module.  The first step that fails decides the error.
-/

namespace SlotLang

/-- Why program text does not compile. -/
inductive CompileError where
  | lexical (error : LexError)
  | parse (error : ParseError)
  | lowering (error : LoweringError)
  | assembly (error : AssemblyError)
deriving DecidableEq, Repr

/-- The error as shown to the user. -/
def CompileError.diagnostic : CompileError → Diagnostic
  | lexical error => error.diagnostic
  | parse error => error.diagnostic
  | lowering error => error.diagnostic
  | assembly error => error.diagnostic

/-- The name of the procedure of a compiled program. -/
def entryPoint : String := "main"

/-- The module of what a program emits. -/
def Emission.toModule (emission : Emission) (name : String) : Except CompileError CodeModule :=
  match emission.result with
  | .error error => .error (.lowering error)
  | .ok _ => (assemble name entryPoint emission.directives).mapError .assembly

/-- The module of a program. -/
def Statement.compile (program : Statement) (name : String) : Except CompileError CodeModule :=
  program.lower.toModule name

/-- A program fails in lowering, or its directives are assembled. -/
theorem Statement.compile_stages (program : Statement) (name : String) :
    (∃ directives error, program.emission .empty = ⟨directives, .error error⟩ ∧
      program.compile name = .error (.lowering error)) ∨
    ∃ directives scope, program.emission .empty = .emit directives scope ∧
      program.compile name = (assemble name entryPoint directives).mapError .assembly := by
  unfold compile lower Emission.toModule
  cases hemission : program.emission .empty with
  | mk directives result =>
      cases result with
      | error error => exact .inl ⟨directives, error, rfl, rfl⟩
      | ok scope => exact .inr ⟨directives, scope, rfl, rfl⟩

/-- The program that a text spells. -/
def Statement.ofSource (source : String) : Except CompileError Statement := do
  let tokens ← (Token.scan source).mapError CompileError.lexical
  (Statement.ofTokens tokens).mapError CompileError.parse

/-- The module of a program text. -/
def compile (source name : String) : Except CompileError CodeModule := do
  let program ← Statement.ofSource source
  program.compile name

/-! ## Omitted marks

Compiling marks every label that it defines.  What becomes of directives in
which the marks of some labels are left out is asked apart from it. -/

/-- Whether the directive marks one of the given labels. -/
def Directive.marksOneOf (labels : List UInt32) : Directive → Bool
  | markLabel label => labels.contains label
  | _ => false

/-- The directives without the marks of the given labels. -/
def Directive.withoutMarks (labels : List UInt32) (directives : List Directive) :
    List Directive :=
  directives.filter fun directive => !directive.marksOneOf labels

/-- The module of what a program emits, without the marks of the given
labels. -/
def Emission.build (emission : Emission) (name : String) (unmarked : List UInt32) :
    Except CompileError CodeModule :=
  Emission.toModule
    { emission with directives := Directive.withoutMarks unmarked emission.directives } name

/-- If no mark is left out, it is the module itself. -/
theorem Emission.build_nil (emission : Emission) (name : String) :
    emission.build name [] = emission.toModule name := by
  have hall : Directive.withoutMarks [] emission.directives = emission.directives := by
    refine List.filter_eq_self.mpr fun directive _ => ?_
    cases directive <;> rfl
  rw [build, hall]

end SlotLang
