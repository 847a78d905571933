import SlotLang.Span

/-!
# Programs

A program is one statement; longer programs are nested sequences.  Every node
carries the span of the text it was read from.

Binary expressions are part of the tree but have no text form and no code:
the parser never builds one and lowering refuses them.
-/

namespace SlotLang

/-- The operators of binary expressions. -/
inductive BinaryOperator where
  | add
  | sub
  | mul
  | div
deriving DecidableEq, Repr

/-- Expressions, with the span of each. -/
inductive Expression where
  /-- A string literal. -/
  | string (text : String) (span : Span)
  /-- An integer literal. -/
  | integer (value : Int32) (span : Span)
  /-- The value of a variable. -/
  | name (text : String) (span : Span)
  /-- An operator applied to two operands. -/
  | binary (operator : BinaryOperator) (left right : Expression) (span : Span)
deriving DecidableEq, Repr

/-- Statements, with the span of each. -/
inductive Statement where
  /-- One statement after another. -/
  | sequence (first second : Statement) (span : Span)
  /-- A new variable and its first value. -/
  | declare (name : String) (value : Expression) (span : Span)
  /-- A new value for a variable. -/
  | assign (name : String) (value : Expression) (span : Span)
  /-- A line written. -/
  | print (value : Expression) (span : Span)
  /-- A line read as an integer into a variable. -/
  | readInt (name : String) (span : Span)
  /-- A loop whose index counts up from one bound to the other. -/
  | forLoop (index : String) (lower upper : Expression) (body : Statement) (span : Span)
deriving DecidableEq, Repr

/-- The span of an expression. -/
def Expression.span : Expression → Span
  | string _ span => span
  | integer _ span => span
  | name _ span => span
  | binary _ _ _ span => span

namespace Statement

/-- The span of a statement. -/
def span : Statement → Span
  | sequence _ _ span => span
  | declare _ _ span => span
  | assign _ _ span => span
  | print _ span => span
  | readInt _ span => span
  | forLoop _ _ _ _ span => span

/-- Two statements in order, under the span that covers both. -/
def andThen (first second : Statement) : Statement :=
  sequence first second (first.span.hull second.span)

end Statement

end SlotLang
