import SlotLang.Diagnostic

/-!
# Lexical errors

The three ways in which program text fails to be a list of tokens.
-/

namespace SlotLang

/-- Why program text has no tokens. -/
inductive LexError where
  /-- A character that begins no token. -/
  | unrecognized (character : Char) (span : Span)
  /-- A string literal without a closing quote; the span is the opening one. -/
  | unterminated (span : Span)
  /-- A run of digits whose value exceeds 32 bits. -/
  | overflow (literal : String) (span : Span)
deriving DecidableEq, Repr

/-- The error as shown to the user. -/
def LexError.diagnostic : LexError → Diagnostic
  | unrecognized character span =>
      .located "spek::lex::unrecognized_character"
        ("unrecognized character '" ++ String.singleton character ++ "'")
        span "not a valid token"
  | unterminated span =>
      { message := "unterminated string literal"
        code := "spek::lex::unterminated_string"
        help := some "close the string with a matching '\"'"
        labels := [span.label "string starts here"] }
  | overflow literal span =>
      .located "spek::lex::integer_overflow"
        ("integer literal '" ++ literal ++ "' does not fit in 32 bits")
        span "too large"

end SlotLang
