import SlotLang.Proofs.TiledText

/-!
# Lexical errors are exact

Where a text fails to be tokens, the lexer says so at the right place and for the right
reason, and it says so whenever there is a reason.  `LexError.AtFront` states the three
reasons by themselves, of a text that begins where the lexer stands; it does not say how the
text is scanned.

The text in front of the failure is a text of tokens.  Not every such text may stand there:
an integer would go on with the digits that are too many.  A text that ends with a blank may.

* `LexError.AtFront` — what is wrong at the beginning of a text.
* `lexeme_eq_error_iff` — the lexer finds no piece exactly where something is wrong.
* `scanFrom_eq_error_iff` — a text fails where its first good part ends.
* `Token.scan_error_exact` — the same of a source and the label of its error.
-/

namespace SlotLang

/-! ## Errors at the beginning of a text -/

/-- A character that begins a token or is skipped in front of one. -/
def BeginsLexeme (c : Char) : Prop :=
  Text.isBlank c = true ∨ Text.isLetter c = true ∨ c = '_' ∨ c = '"' ∨ c.isDigit = true ∨
    c ∈ ['+', '-', '*', '/', ';', '=']

namespace LexError

/-- The error of a text at its first characters, which stand at the given byte offset: a
character that begins nothing, a quote without another one, or a run of digits, with all the
digits that stand there, whose value is too large. -/
inductive AtFront (offset : Nat) : List Char → LexError → Prop
  | unrecognized {c : Char} {rest : List Char} (hbegins : ¬ BeginsLexeme c) :
      AtFront offset (c :: rest) (.unrecognized c ⟨offset, offset + c.utf8Size⟩)
  | unterminated {rest : List Char} (hquote : '"' ∉ rest) :
      AtFront offset ('"' :: rest) (.unterminated ⟨offset, offset + 1⟩)
  | overflow {digits rest : List Char} (hne : digits ≠ [])
      (hdigits : ∀ c ∈ digits, c.isDigit = true) (hrest : ∀ c ∈ rest.head?, c.isDigit = false)
      (hvalue : 2147483647 < Text.Decimal.value digits) :
      AtFront offset (digits ++ rest)
        (.overflow (String.ofList digits) ⟨offset, offset + Text.byteLength digits⟩)

/-- The characters that an error is about. -/
def mistake : LexError → List Char
  | unrecognized c _ => [c]
  | unterminated _ => ['"']
  | overflow literal _ => literal.toList

variable {offset : Nat} {c : Char} {text : List Char} {error : LexError}

theorem AtFront.mistake_prefix (hfront : error.AtFront offset text) : error.mistake <+: text := by
  cases hfront with
  | unrecognized => exact List.prefix_append [_] _
  | unterminated => exact List.prefix_append ['"'] _
  | overflow =>
      rw [mistake, String.toList_ofList]
      exact List.prefix_append _ _

theorem AtFront.mistake_ne_nil (hfront : error.AtFront offset text) : error.mistake ≠ [] := by
  cases hfront with
  | unrecognized => exact List.cons_ne_nil _ _
  | unterminated => exact List.cons_ne_nil _ _
  | overflow hne =>
      rw [mistake, String.toList_ofList]
      exact hne

/-- The label of an error is on the characters that the error is about. -/
theorem AtFront.labels_diagnostic (hfront : error.AtFront offset text) :
    ∃ label, error.diagnostic.labels = [label] ∧ label.offset = offset ∧
      label.length = Text.byteLength error.mistake := by
  cases hfront with
  | unrecognized => exact ⟨_, rfl, rfl, Nat.add_sub_cancel_left _ _⟩
  | unterminated => exact ⟨_, rfl, rfl, Nat.add_sub_cancel_left _ _⟩
  | overflow =>
      refine ⟨_, rfl, rfl, ?_⟩
      rw [mistake, String.toList_ofList]
      exact Nat.add_sub_cancel_left _ _

/-- What is wrong begins neither with a blank nor with a word. -/
theorem AtFront.head_eq_false (hfront : error.AtFront offset text) (hhead : c ∈ text.head?) :
    Text.isBlank c = false ∧ Text.isWordCharacter c = false := by
  have hsymbol : Text.asciiSymbols.contains c = true →
      Text.isBlank c = false ∧ Text.isWordCharacter c = false := fun hsymbol =>
    ⟨Text.isBlank_eq_false_of_asciiSymbols hsymbol,
      Text.isWordCharacter_eq_false_of_asciiSymbols hsymbol⟩
  cases hfront with
  | unrecognized hbegins =>
      cases hhead
      simp only [BeginsLexeme, not_or] at hbegins
      simp [Text.isWordCharacter, hbegins]
  | unterminated hquote =>
      cases hhead
      exact hsymbol (by decide)
  | @overflow digits _ hne hdigits hrest hvalue =>
      obtain ⟨d, tail, rfl⟩ := List.exists_cons_of_ne_nil hne
      cases hhead
      exact hsymbol (asciiSymbols_of_isDigit (hdigits _ List.mem_cons_self))

end LexError

/-! ## Pieces that the lexer does not find -/

theorem TokenKind.ofOperator?_eq_none_iff {c : Char} :
    ofOperator? c = none ↔ c ∉ ['+', '-', '*', '/', ';', '='] := by
  unfold ofOperator?
  split <;> simp_all

theorem Text.Decimal.toInt32?_eq_none_iff {n : Nat} :
    toInt32? n = none ↔ 2147483647 < n := by
  unfold toInt32? least greatest
  split
  next hrange => exact iff_of_false nofun (by omega)
  next hrange => exact iff_of_true rfl (by omega)

section

variable {offset : Nat} {c : Char} {rest : List Char} {error : LexError}

theorem stringLexeme_eq_error_iff :
    stringLexeme offset rest = .error error ↔
      '"' ∉ rest ∧ error = .unterminated ⟨offset, offset + 1⟩ := by
  have hdrop : rest.dropWhile (· != '"') = [] ↔ '"' ∉ rest := by
    rw [List.dropWhile_eq_nil_iff]
    constructor
    · intro hall hmem
      simpa using hall '"' hmem
    · intro hquote d hd
      refine bne_iff_ne.mpr ?_
      rintro rfl
      exact hquote hd
  unfold stringLexeme
  split
  next hnil =>
      rw [Except.error.injEq, eq_comm]
      exact ⟨fun herror => ⟨hdrop.mp hnil, herror⟩, And.right⟩
  next quote after hafter =>
      constructor
      · intro herror
        cases herror
      · rintro ⟨hquote, -⟩
        rw [hdrop.mpr hquote] at hafter
        cases hafter

theorem integerLexeme_eq_error_iff {text : List Char} :
    integerLexeme offset text = .error error ↔
      2147483647 < Text.Decimal.value (text.takeWhile Char.isDigit) ∧
        error = .overflow (String.ofList (text.takeWhile Char.isDigit))
          ⟨offset, offset + Text.byteLength (text.takeWhile Char.isDigit)⟩ := by
  unfold integerLexeme
  simp only
  split
  next value hvalue =>
      refine iff_of_false nofun fun herror => ?_
      rw [Text.Decimal.toInt32?_eq_none_iff.mpr herror.1] at hvalue
      cases hvalue
  next hnone =>
      rw [Except.error.injEq, eq_comm]
      exact ⟨fun herror => ⟨Text.Decimal.toInt32?_eq_none_iff.mp hnone, herror⟩, And.right⟩

theorem atFront_of_integerLexeme (hdigit : c.isDigit = true)
    (herror : integerLexeme offset (c :: rest) = .error error) :
    error.AtFront offset (c :: rest) := by
  obtain ⟨hvalue, rfl⟩ := integerLexeme_eq_error_iff.mp herror
  have hne : (c :: rest).takeWhile Char.isDigit ≠ [] := by simp [hdigit]
  have hstop : ∀ d ∈ ((c :: rest).dropWhile Char.isDigit).head?, d.isDigit = false :=
    fun d hd => eq_false_of_head?_dropWhile hd
  have hfront : LexError.AtFront offset _ _ :=
    .overflow hne (fun d hd => List.mem_takeWhile_imp hd) hstop hvalue
  rw [List.takeWhile_append_dropWhile] at hfront
  exact hfront

/-- The lexer finds no piece at the beginning of a text exactly if something is wrong
there. -/
theorem lexeme_eq_error_iff :
    lexeme offset c rest = .error error ↔ error.AtFront offset (c :: rest) := by
  constructor
  · -- The lexer asks for a blank, a word, a quote, a digit and an operator, in this order.
    intro herror
    unfold lexeme at herror
    split at herror
    next => cases herror
    next hblank =>
        split at herror
        next => cases herror
        next hword =>
            split at herror
            next hquote =>
                obtain ⟨hnone, rfl⟩ := stringLexeme_eq_error_iff.mp herror
                exact hquote ▸ .unterminated hnone
            next hquote =>
                split at herror
                next hdigit => exact atFront_of_integerLexeme hdigit herror
                next hdigit =>
                    split at herror
                    next => cases herror
                    next hnone =>
                        cases herror
                        have hoperator := TokenKind.ofOperator?_eq_none_iff.mp hnone
                        have hletter : ¬ (Text.isLetter c = true ∨ c = '_') := by
                          simpa [Text.isWordCharacter] using hword
                        refine .unrecognized fun hbegins => ?_
                        unfold BeginsLexeme at hbegins
                        tauto
  · intro hfront
    -- None of the errors is about a blank or a word, so the first two questions are settled.
    obtain ⟨hblank, hword⟩ := hfront.head_eq_false rfl
    rw [lexeme, if_neg (by simp [hblank]), if_neg (by simp [hword])]
    generalize htext : c :: rest = text at hfront
    cases hfront with
    | unrecognized hbegins =>
        cases htext
        simp only [BeginsLexeme, not_or] at hbegins
        obtain ⟨-, -, -, hquote, hdigit, hoperator⟩ := hbegins
        rw [if_neg hquote, if_neg hdigit, TokenKind.ofOperator?_eq_none_iff.mpr hoperator]
    | unterminated hquote =>
        cases htext
        rw [if_pos rfl]
        exact stringLexeme_eq_error_iff.mpr ⟨hquote, rfl⟩
    | @overflow digits _ hne hdigits hrest hvalue =>
        have hdigit : c.isDigit = true := by
          obtain ⟨d, tail, rfl⟩ := List.exists_cons_of_ne_nil hne
          cases htext
          exact hdigits _ List.mem_cons_self
        have hquote : c ≠ '"' := by
          rintro rfl
          exact absurd hdigit (by decide)
        obtain ⟨htake, -⟩ := takeWhile_run hdigits hrest
        rw [if_neg hquote, if_pos hdigit]
        refine integerLexeme_eq_error_iff.mpr ?_
        rw [htake]
        exact ⟨hvalue, rfl⟩

end

/-! ## Texts that fail -/

/-- The piece that the lexer takes is apart from what follows it. -/
theorem apart_of_lexeme {offset : Nat} {c : Char} {rest : List Char} {piece : Lexeme}
    (hpiece : lexeme offset c rest = .ok piece) : Apart piece.text piece.rest := by
  rcases written_of_lexeme hpiece with ⟨rfl, hblank⟩ | ⟨kind, -, hwritten, hends⟩
  · exact .of_blank rfl hblank
  · exact hwritten.endsBefore_iff_apart.mp hends

/-- A text fails if and only if it begins with a text of tokens and something is wrong right
behind it. -/
theorem scanFrom_eq_error_iff {offset : Nat} {text : List Char} {error : LexError} :
    scanFrom offset text = .error error ↔
      ∃ before after tokens, text = before ++ after ∧ Tiles offset before tokens ∧
        Apart before after ∧ error.AtFront (offset + Text.byteLength before) after := by
  constructor
  · intro herror
    induction offset, text using scanFrom.induct with
    | case1 offset =>
        rw [scanFrom] at herror
        cases herror
    | case2 offset c rest other hpiece =>
        rw [scanFrom, hpiece] at herror
        cases herror
        have hapart : Apart [] (c :: rest) := by
          intro last hlast
          cases hlast
        exact ⟨[], c :: rest, [], rfl, .done offset, hapart, lexeme_eq_error_iff.mp hpiece⟩
    | case3 offset c rest piece hpiece other hrest ih =>
        rw [scanFrom, hpiece] at herror
        simp only [hrest] at herror
        cases herror
        obtain ⟨before, after, tokens, hsplit, htiles, hapart, hfront⟩ := ih hrest
        have hpieceApart := apart_of_lexeme hpiece
        rw [hsplit] at hpieceApart
        refine ⟨piece.text ++ before, after, piece.tokens offset ++ tokens, ?_, ?_,
          hpieceApart.append hapart, ?_⟩
        · rw [List.append_assoc, ← hsplit, lexeme_text_append_rest hpiece]
        · rcases written_of_lexeme hpiece with ⟨rfl, hblank⟩ | ⟨kind, hkind, hwritten, hends⟩
          · exact .blank hblank htiles
          · simp only [Lexeme.tokens, hkind]
            rw [hsplit] at hends
            exact .token hwritten hends.of_append htiles
        · rw [Text.byteLength_append, ← Nat.add_assoc]
          exact hfront
    | case4 offset c rest piece hpiece others hothers ih =>
        rw [scanFrom, hpiece] at herror
        simp only [hothers] at herror
        cases herror
  · rintro ⟨before, after, tokens, rfl, htiles, hapart, hfront⟩
    obtain ⟨c, rest, rfl⟩ : ∃ c rest, after = c :: rest := by
      refine List.exists_cons_of_ne_nil fun hnil => hfront.mistake_ne_nil ?_
      exact List.prefix_nil.mp (hnil ▸ hfront.mistake_prefix)
    rw [htiles.scanFrom_append hapart, scanFrom, lexeme_eq_error_iff.mpr hfront]
    rfl

/-- Lexical errors are exact.  If a source fails, the label of the error is on the characters
that the error is about.  The text in front of them is a text of tokens, with no digit at its
end if they are digits, and what follows has the error at its beginning: a character that
begins no token, a quote that is not closed, or all the digits of a run that is too large.
And if a text of tokens that is empty or ends with a blank stands in front of such an error,
then the source fails with this error at this place. -/
theorem Token.scan_error_exact (source : String) :
    (∀ error, Token.scan source = .error error →
      ∃ before after label, source = before ++ after ∧ error.diagnostic.labels = [label] ∧
        label.offset = before.utf8ByteSize ∧
        label.length = Text.byteLength error.mistake ∧ error.mistake <+: after.toList ∧
        (∃ tokens, Token.scan before = .ok tokens) ∧
        error.AtFront before.utf8ByteSize after.toList ∧
        Apart before.toList after.toList) ∧
    ∀ before after error, source = before ++ after →
      (∃ tokens, Token.scan before = .ok tokens) →
      (∀ c ∈ before.toList.getLast?, Text.isBlank c = true) →
      error.AtFront before.utf8ByteSize after.toList → Token.scan source = .error error := by
  refine ⟨fun error herror => ?_, ?_⟩
  · obtain ⟨before, after, tokens, hsplit, htiles, hapart, hfront⟩ :=
      scanFrom_eq_error_iff.mp herror
    obtain ⟨label, hlabels, hoffset, hlength⟩ := hfront.labels_diagnostic
    have hsize : (String.ofList before).utf8ByteSize = 0 + Text.byteLength before := by
      rw [← Text.byteLength_toList, String.toList_ofList, Nat.zero_add]
    refine ⟨String.ofList before, String.ofList after, label, ?_, hlabels, ?_, hlength, ?_⟩
    · rw [← String.ofList_append, ← hsplit, String.ofList_toList]
    · rw [hoffset, hsize]
    · rw [hsize, Token.scan, String.toList_ofList, String.toList_ofList]
      exact ⟨hfront.mistake_prefix, ⟨_, htiles.scanFrom_eq⟩, hfront, hapart⟩
  · rintro before after error rfl ⟨found, hscan⟩ hblank hfront
    obtain ⟨tokens, -, htiles⟩ := tiles_of_scanFrom hscan
    refine scanFrom_eq_error_iff.mpr
      ⟨before.toList, after.toList, tokens, String.toList_append, htiles, ?_, ?_⟩
    · intro c hc
      exact Apart.of_blank hc (hblank c hc) c hc
    · rw [Nat.zero_add, Text.byteLength_toList]
      exact hfront

/-- A text of tokens of which two hold characters that begin none by themselves. -/
def Token.startedSource : String := "größe=\"$ 9\" 007\t"

/-- Behind that text, at its byte 18, each of the errors has its own place. -/
theorem Token.started_scan_error_exact :
    (∃ tokens, Token.scan Token.startedSource = .ok tokens) ∧
    Token.scan (Token.startedSource ++ "€x") = .error (.unrecognized '€' ⟨18, 21⟩) ∧
    Token.scan (Token.startedSource ++ "\"x;") = .error (.unterminated ⟨18, 19⟩) ∧
    Token.scan (Token.startedSource ++ "02147483648x") =
      .error (.overflow "02147483648" ⟨18, 29⟩) ∧
    ∃ before after, Token.startedSource ++ "€x" = before ++ after ∧ before.utf8ByteSize = 18 ∧
      ∃ tokens, Token.scan before = .ok tokens := by
  have hstarted : ∃ tokens, Token.scan Token.startedSource = .ok tokens :=
    exists_eq_ok_of_toOption (by decide +kernel)
  have hlast : Token.startedSource.toList.getLast? = some '\t' := by decide +kernel
  have hblank : ∀ c ∈ Token.startedSource.toList.getLast?, Text.isBlank c = true := by
    intro c hc
    rw [hlast] at hc
    cases hc
    decide
  have hsize : Token.startedSource.utf8ByteSize = 18 := by decide +kernel
  have hfails : ∀ after error, error.AtFront 18 after.toList →
      Token.scan (Token.startedSource ++ after) = .error error := by
    intro after error hfront
    rw [← hsize] at hfront
    exact (Token.scan_error_exact _).2 _ after error rfl hstarted hblank hfront
  have hunrecognized : Token.scan (Token.startedSource ++ "€x") =
      .error (.unrecognized '€' ⟨18, 21⟩) := by
    refine hfails "€x" _ (.unrecognized ?_)
    unfold BeginsLexeme
    decide +kernel
  refine ⟨hstarted, hunrecognized, hfails _ _ (.unterminated (by decide)), ?_, ?_⟩
  · have hfront : LexError.AtFront 18 ("02147483648".toList ++ ['x']) _ :=
      .overflow (by decide) (List.all_eq_true.mp (by decide)) (by simp) (by decide)
    exact hfails "02147483648x" _ hfront
  · obtain ⟨before, after, label, hsplit, hlabels, hoffset, -, -, htokens, -⟩ :=
      (Token.scan_error_exact _).1 _ hunrecognized
    cases hlabels
    exact ⟨before, after, hsplit, hoffset.symm, htokens⟩

end SlotLang
