import SlotLang.Diagnostic
import SlotLang.Value

/-!
# Errors of lowering

The ways in which a program is not well typed.
-/

namespace SlotLang

/-- The uses of a binary expression that have no code. -/
inductive Construct where
  /-- The value of a binary expression. -/
  | binaryValue
  /-- The type of a binary expression. -/
  | binaryType
deriving DecidableEq, Repr

/-- A construct in the words of a message. -/
def Construct.text : Construct → String
  | binaryValue => "a binary expression"
  | binaryType => "the type of a binary expression"

/-- Why a program has no code. -/
inductive LoweringError where
  /-- A name that no declaration introduced. -/
  | undeclared (name : String) (span : Span)
  /-- A value stored in a slot of another type. -/
  | typeMismatch (name : String) (declared found : ValueType) (span : Span)
  /-- A value where another type is expected, and no conversion between them. -/
  | noCoercion (delivered expected : ValueType) (span : Span)
  /-- A construct that has no code. -/
  | unsupported (construct : Construct) (span : Span)
deriving DecidableEq, Repr

/-- The error as shown to the user. -/
def LoweringError.diagnostic : LoweringError → Diagnostic
  | undeclared name span =>
      { message := "undeclared variable '" ++ name ++ "'"
        code := "spek::codegen::undeclared_variable"
        help := some "declare it with `var` before using it"
        labels := [span.label "not declared"] }
  | typeMismatch name declared found span =>
      .located "spek::codegen::type_mismatch"
        ("'" ++ name ++ "' is of type " ++ declared.text
          ++ " but attempted to store value of type " ++ found.text)
        span ("this stores a " ++ found.text)
  | noCoercion delivered expected span =>
      .located "spek::codegen::unsupported_coercion"
        ("can't coerce a " ++ delivered.text ++ " to a " ++ expected.text)
        span ("expected " ++ expected.text)
  | unsupported construct span =>
      .located "spek::codegen::unsupported_construct"
        ("don't know how to generate " ++ construct.text)
        span "no code generation rule"

end SlotLang
