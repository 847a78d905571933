import SlotLang.Diagnostic
import SlotLang.Token.Basic

/-!
# Errors of program structure

A parse error names what was due at a place and what stood there instead.
-/

namespace SlotLang

/-- What the grammar asks for at a place. -/
inductive Expectation where
  | statement
  | expression
  | nameAfterVar
  | equalsAfterVar
  | nameAfterReadInt
  | nameAfterFor
  | equalsAfterFor
  | toAfterLower
  | doAfterUpper
  | endAfterBody
  /-- The equals sign of an assignment to the given name. -/
  | equalsAfterName (name : String)
deriving DecidableEq, Repr

/-- What is due, in the words of a message. -/
def Expectation.text : Expectation → String
  | statement => "statement"
  | expression => "string literal, int literal, or variable"
  | nameAfterVar => "variable name after 'var'"
  | equalsAfterVar => "'=' after 'var <ident>'"
  | nameAfterReadInt => "variable name after 'read_int'"
  | nameAfterFor => "identifier after 'for'"
  | equalsAfterFor => "'=' after 'for <ident>'"
  | toAfterLower => "'to' after the start of the 'for' range"
  | doAfterUpper => "'do' after the end of the 'for' range"
  | endAfterBody => "'end' to close the 'for' loop body"
  | equalsAfterName name => "'=' after '" ++ name ++ "'"

/-- Why a list of tokens is no program. -/
inductive ParseError where
  /-- Another token stood where something was due. -/
  | unexpected (expected : Expectation) (found : TokenKind) (span : Span)
  /-- The text ended where something was due. -/
  | unexpectedEnd (expected : Expectation) (span : Span)
  /-- The program was complete and another token followed. -/
  | trailing (found : TokenKind) (span : Span)
deriving DecidableEq, Repr

/-- The error as shown to the user. -/
def ParseError.diagnostic : ParseError → Diagnostic
  | unexpected expected found span =>
      .located "spek::parse::unexpected_token"
        ("expected " ++ expected.text ++ ", found '" ++ found.text ++ "'")
        span "here"
  | unexpectedEnd expected span =>
      .located "spek::parse::unexpected_eof"
        ("expected " ++ expected.text ++ ", found end of input")
        span "input ends here"
  | trailing found span =>
      .located "spek::parse::trailing_input"
        ("expected end of input, found '" ++ found.text ++ "'")
        span "unexpected token after the program"

end SlotLang
