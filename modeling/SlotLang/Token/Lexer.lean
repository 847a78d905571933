import SlotLang.Text.Blank
import SlotLang.Text.Letter
import SlotLang.Text.Utf8
import SlotLang.Token.Basic
import SlotLang.Token.Error

/-!
# From program text to tokens

Program text is cut into lexemes from left to right.  A lexeme is a blank, a
maximal run of word characters, a quoted string, a maximal run of digits or an
operator character; blanks are dropped, and every other lexeme becomes a
token with the span of its bytes.  The list ends with one end-of-text token.

* `Lexeme` — a piece of text, what it is, and the text after it.
* `lexeme` — the lexeme at the front of a nonempty text.
* `lexeme_text_append_rest` — cutting a lexeme off loses nothing.
* `scanFrom`, `Token.scan` — the tokens of a text.
-/

namespace SlotLang

/-- A piece cut off the front of a text. -/
structure Lexeme where
  /-- What the piece is; a blank is no token. -/
  kind? : Option TokenKind
  /-- The characters of the piece. -/
  text : List Char
  /-- The text after the piece. -/
  rest : List Char

/-- The token of a lexeme that starts at the given byte offset. -/
def Lexeme.tokens (piece : Lexeme) (offset : Nat) : List Token :=
  match piece.kind? with
  | none => []
  | some kind => [⟨kind, ⟨offset, offset + Text.byteLength piece.text⟩⟩]

/-- The string literal whose opening quote was just read. -/
def stringLexeme (offset : Nat) (rest : List Char) : Except LexError Lexeme :=
  match rest.dropWhile (· != '"') with
  | [] => .error (.unterminated ⟨offset, offset + 1⟩)
  | quote :: after =>
      let body := rest.takeWhile (· != '"')
      .ok ⟨some (.string (String.ofList body)), '"' :: body ++ [quote], after⟩

/-- The integer literal at the front of a text that starts with a digit. -/
def integerLexeme (offset : Nat) (text : List Char) : Except LexError Lexeme :=
  let digits := text.takeWhile Char.isDigit
  match Text.Decimal.toInt32? (Text.Decimal.value digits) with
  | some value => .ok ⟨some (.integer value), digits, text.dropWhile Char.isDigit⟩
  | none =>
      .error (.overflow (String.ofList digits) ⟨offset, offset + Text.byteLength digits⟩)

/-- The lexeme at the front of the text `c :: rest`. -/
def lexeme (offset : Nat) (c : Char) (rest : List Char) : Except LexError Lexeme :=
  if Text.isBlank c then
    .ok ⟨none, [c], rest⟩
  else if Text.isWordCharacter c then
    let word := (c :: rest).takeWhile Text.isWordCharacter
    .ok ⟨some (.word (String.ofList word)), word, (c :: rest).dropWhile Text.isWordCharacter⟩
  else if c = '"' then
    stringLexeme offset rest
  else if c.isDigit then
    integerLexeme offset (c :: rest)
  else
    match TokenKind.ofOperator? c with
    | some kind => .ok ⟨some kind, [c], rest⟩
    | none => .error (.unrecognized c ⟨offset, offset + c.utf8Size⟩)

/-- A string literal and what follows it make up the text from its quote on. -/
theorem stringLexeme_text_append_rest {offset : Nat} {rest : List Char} {piece : Lexeme}
    (hpiece : stringLexeme offset rest = .ok piece) :
    piece.text ++ piece.rest = '"' :: rest := by
  unfold stringLexeme at hpiece
  split at hpiece
  · cases hpiece
  · next quote after hafter =>
      cases hpiece
      have hsplit := List.takeWhile_append_dropWhile (p := (· != '"')) (l := rest)
      rw [hafter] at hsplit
      simpa using hsplit

/-- An integer literal and what follows it make up the text. -/
theorem integerLexeme_text_append_rest {offset : Nat} {text : List Char} {piece : Lexeme}
    (hpiece : integerLexeme offset text = .ok piece) :
    piece.text ++ piece.rest = text := by
  unfold integerLexeme at hpiece
  simp only at hpiece
  split at hpiece
  · cases hpiece
    exact List.takeWhile_append_dropWhile
  · cases hpiece

/-- Cutting a lexeme off the front of a text loses nothing. -/
theorem lexeme_text_append_rest {offset : Nat} {c : Char} {rest : List Char}
    {piece : Lexeme} (hpiece : lexeme offset c rest = .ok piece) :
    piece.text ++ piece.rest = c :: rest := by
  unfold lexeme at hpiece
  split at hpiece
  · cases hpiece
    rfl
  · split at hpiece
    · cases hpiece
      exact List.takeWhile_append_dropWhile
    · split at hpiece
      · next hquote =>
          rw [hquote]
          exact stringLexeme_text_append_rest hpiece
      · split at hpiece
        · exact integerLexeme_text_append_rest hpiece
        · split at hpiece
          · cases hpiece
            rfl
          · cases hpiece

/-- The text of a lexeme is not empty. -/
theorem lexeme_text_ne_nil {offset : Nat} {c : Char} {rest : List Char}
    {piece : Lexeme} (hpiece : lexeme offset c rest = .ok piece) :
    piece.text ≠ [] := by
  unfold lexeme at hpiece
  split at hpiece
  · cases hpiece
    simp
  · split at hpiece
    · next hword =>
        cases hpiece
        simp [hword]
    · split at hpiece
      · unfold stringLexeme at hpiece
        split at hpiece
        · cases hpiece
        · cases hpiece
          simp
      · split at hpiece
        · next hdigit =>
            unfold integerLexeme at hpiece
            simp only at hpiece
            split at hpiece
            · cases hpiece
              simp [hdigit]
            · cases hpiece
        · split at hpiece
          · cases hpiece
            simp
          · cases hpiece

/-- What follows a lexeme is shorter than the text it was cut from. -/
theorem lexeme_rest_length_lt {offset : Nat} {c : Char} {rest : List Char}
    {piece : Lexeme} (hpiece : lexeme offset c rest = .ok piece) :
    piece.rest.length < (c :: rest).length := by
  have hlength := congrArg List.length (lexeme_text_append_rest hpiece)
  have hpos := List.length_pos_iff.mpr (lexeme_text_ne_nil hpiece)
  rw [List.length_append] at hlength
  omega

/-- The tokens of a text that starts at the given byte offset. -/
def scanFrom (offset : Nat) (text : List Char) : Except LexError (List Token) :=
  match text with
  | [] => .ok [⟨.eof, .empty offset⟩]
  | c :: rest =>
      match _hpiece : lexeme offset c rest with
      | .error error => .error error
      | .ok piece =>
          match scanFrom (offset + Text.byteLength piece.text) piece.rest with
          | .error error => .error error
          | .ok tokens => .ok (piece.tokens offset ++ tokens)
termination_by text.length
decreasing_by exact lexeme_rest_length_lt _hpiece

/-- The tokens of a program text. -/
def Token.scan (source : String) : Except LexError (List Token) :=
  scanFrom 0 source.toList

end SlotLang
