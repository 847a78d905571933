import SlotLang.Span
import SlotLang.Text.Decimal

/-!
# Tokens

The lexical units of program text.  A word may be a keyword or a name: the
two are told apart by position and not by spelling, so there is one kind for
both.

* `TokenKind` — what a token is.
* `Token` — a kind and its place in the text.
* `TokenKind.text` — the token as written in messages.
-/

namespace SlotLang

/-- The kinds of token. -/
inductive TokenKind where
  /-- A run of letters and underscores. -/
  | word (text : String)
  /-- A string literal, without its quotes. -/
  | string (text : String)
  /-- An integer literal. -/
  | integer (value : Int32)
  | plus
  | minus
  | star
  | slash
  | semicolon
  | equals
  /-- The end of the program text. -/
  | eof
deriving DecidableEq, Repr

/-- A kind of token at its place in the text. -/
structure Token where
  /-- What the token is. -/
  kind : TokenKind
  /-- Where it stands. -/
  span : Span
deriving DecidableEq, Repr

namespace TokenKind

/-- The token as program text; the end of the text is named in words. -/
def text : TokenKind → String
  | word text => text
  | string text => "\"" ++ text ++ "\""
  | integer value => Text.Decimal.ofInt32 value
  | plus => "+"
  | minus => "-"
  | star => "*"
  | slash => "/"
  | semicolon => ";"
  | equals => "="
  | eof => "end of input"

/-- Whether the token is the word with exactly this spelling. -/
def spells (kind : TokenKind) (spelling : String) : Bool :=
  kind == word spelling

/-- The kind of token that a single operator character forms. -/
def ofOperator? : Char → Option TokenKind
  | '+' => some plus
  | '-' => some minus
  | '*' => some star
  | '/' => some slash
  | ';' => some semicolon
  | '=' => some equals
  | _ => none

end TokenKind

end SlotLang
