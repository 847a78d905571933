import SlotLang.Text.Printable

/-!
# Quoted text

A text is shown between double quotes, on one line and in printable
characters only.  Six characters have short escapes; every other character
that is not printable is written by its code point in lowercase hexadecimal.

* `escape` — how one character is shown.
* `quote` — how a text is shown.
-/

namespace SlotLang
namespace Text

/-- The escape `\u` with the code point between braces. -/
def escapeCodePoint (c : Char) : List Char :=
  ['\\', 'u', '\x7b'] ++ Nat.toDigits 16 c.toNat ++ ['\x7d']

/-- How a character is shown inside quotes. -/
def escape (c : Char) : List Char :=
  match c with
  | '\x00' => ['\\', '0']
  | '\t' => ['\\', 't']
  | '\r' => ['\\', 'r']
  | '\n' => ['\\', 'n']
  | '"' => ['\\', '"']
  | '\\' => ['\\', '\\']
  | c => if isPrintable c then [c] else escapeCodePoint c

/-- The text between double quotes, every character escaped as it needs. -/
def quote (text : List Char) : List Char :=
  '"' :: (text.flatMap escape ++ ['"'])

/-- The quoted form of a string. -/
def quoted (text : String) : String :=
  String.ofList (quote text.toList)

end Text
end SlotLang
