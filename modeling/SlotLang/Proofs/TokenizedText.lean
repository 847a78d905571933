import Mathlib.Data.List.TakeWhile
import Mathlib.Data.String.Basic
import SlotLang.Proofs.Results
import SlotLang.Token.Lexer

/-!
# The tokens of a text cover it

The lexer cuts a text into blanks and written forms of tokens, and nothing is left
over.  `Tiles` states this by itself, with the byte offset at which each part begins;
it does not say how the parts are found.  What is known of the spans of the tokens
follows from it: their order, the text under them, and what is between them.

* `TokenKind.WrittenAs` — the written forms of a kind of token.
* `TokenKind.EndsBefore` — the token cannot go on with the next character.
* `Tiles` — a text is made up of blanks and the given tokens.
* `tiles_of_scanFrom` — the lexer finds such tokens.
* `Token.scan_covers` — the same in terms of spans and of positions in the source.
-/

namespace SlotLang

/-! ## Written forms -/

/-- The character of an operator. -/
def TokenKind.operator? : TokenKind → Option Char
  | plus => some '+'
  | minus => some '-'
  | star => some '*'
  | slash => some '/'
  | semicolon => some ';'
  | equals => some '='
  | word _ => none
  | string _ => none
  | integer _ => none
  | eof => none

/-- The texts that stand for a kind of token.  An integer may have leading zeros, so it
has many; the end of the text has none. -/
inductive TokenKind.WrittenAs : TokenKind → List Char → Prop
  | word {text : List Char} (hne : text ≠ [])
      (hletters : ∀ c ∈ text, Text.isWordCharacter c = true) :
      WrittenAs (.word (String.ofList text)) text
  | string {body : List Char} (hquote : '"' ∉ body) :
      WrittenAs (.string (String.ofList body)) ('"' :: body ++ ['"'])
  | integer {digits : List Char} {value : Int32} (hne : digits ≠ [])
      (hdigits : ∀ c ∈ digits, c.isDigit = true)
      (hvalue : (Text.Decimal.value digits : Int) = value.toInt) :
      WrittenAs (.integer value) digits
  | operator {kind : TokenKind} {c : Char} (hoperator : kind.operator? = some c) :
      WrittenAs kind [c]

/-- A token of this kind ends in front of the given character, if there is one: a word
is not followed by a word character, and an integer is not followed by a digit. -/
def TokenKind.EndsBefore (kind : TokenKind) (next : Option Char) : Prop :=
  match kind with
  | word _ => ∀ c ∈ next, Text.isWordCharacter c = false
  | integer _ => ∀ c ∈ next, c.isDigit = false
  | _ => True

theorem TokenKind.ofOperator?_eq_some {c : Char} {kind : TokenKind}
    (hkind : ofOperator? c = some kind) : kind.operator? = some c := by
  unfold ofOperator? at hkind
  split at hkind <;> cases hkind <;> rfl

/-- An operator is neither a word nor an integer. -/
theorem TokenKind.EndsBefore.of_operator {kind : TokenKind} {c : Char}
    (hoperator : kind.operator? = some c) (next : Option Char) : kind.EndsBefore next := by
  cases kind with
  | word text => cases hoperator
  | integer value => cases hoperator
  | _ => trivial

theorem TokenKind.WrittenAs.ne_nil {kind : TokenKind} {text : List Char}
    (hwritten : kind.WrittenAs text) : text ≠ [] := by
  cases hwritten with
  | word hne => exact hne
  | string => simp
  | integer hne => exact hne
  | operator => simp

theorem TokenKind.WrittenAs.ne_eof {kind : TokenKind} {text : List Char}
    (hwritten : kind.WrittenAs text) : kind ≠ .eof := by
  rintro rfl
  cases hwritten with
  | operator hoperator => cases hoperator

/-! ## Lexemes -/

/-- Where a run of characters ends, the next character is not of the class. -/
theorem eq_false_of_head?_dropWhile {p : Char → Bool} {text : List Char} {c : Char}
    (hhead : (text.dropWhile p).head? = some c) : p c = false := by
  have hstop := List.head?_dropWhile_not p text
  rw [hhead] at hstop
  simpa using hstop

theorem Text.Decimal.toInt32?_eq_some {n : Int} {value : Int32}
    (hvalue : toInt32? n = some value) : n = value.toInt := by
  unfold toInt32? least greatest at hvalue
  split at hvalue
  next hrange =>
      cases hvalue
      exact (Int32.toInt_ofInt_of_le (by omega) (by omega)).symm
  next => cases hvalue

theorem written_of_stringLexeme {offset : Nat} {rest : List Char} {piece : Lexeme}
    (hpiece : stringLexeme offset rest = .ok piece) :
    ∃ kind, piece.kind? = some kind ∧ kind.WrittenAs piece.text ∧
      kind.EndsBefore piece.rest.head? := by
  unfold stringLexeme at hpiece
  split at hpiece
  next => cases hpiece
  next quote after hafter =>
      cases hpiece
      have hquote : quote = '"' := by
        have hhead : (rest.dropWhile (· != '"')).head? = some quote := by rw [hafter]; rfl
        simpa using eq_false_of_head?_dropWhile hhead
      subst hquote
      refine ⟨_, rfl, .string ?_, trivial⟩
      intro hmem
      simpa using List.mem_takeWhile_imp hmem

theorem written_of_integerLexeme {offset : Nat} {c : Char} {rest : List Char} {piece : Lexeme}
    (hdigit : c.isDigit = true) (hpiece : integerLexeme offset (c :: rest) = .ok piece) :
    ∃ kind, piece.kind? = some kind ∧ kind.WrittenAs piece.text ∧
      kind.EndsBefore piece.rest.head? := by
  unfold integerLexeme at hpiece
  simp only at hpiece
  split at hpiece
  next value hvalue =>
      cases hpiece
      refine ⟨_, rfl, .integer ?_ ?_ (Text.Decimal.toInt32?_eq_some hvalue), ?_⟩
      · simp [hdigit]
      · exact fun d hd => List.mem_takeWhile_imp hd
      · exact fun next hnext => eq_false_of_head?_dropWhile hnext
  next => cases hpiece

/-- A lexeme is a blank or the written form of its kind, and it cannot be longer. -/
theorem written_of_lexeme {offset : Nat} {c : Char} {rest : List Char} {piece : Lexeme}
    (hpiece : lexeme offset c rest = .ok piece) :
    piece = ⟨none, [c], rest⟩ ∧ Text.isBlank c = true ∨
      ∃ kind, piece.kind? = some kind ∧ kind.WrittenAs piece.text ∧
        kind.EndsBefore piece.rest.head? := by
  unfold lexeme at hpiece
  split at hpiece
  next hblank =>
      cases hpiece
      exact .inl ⟨rfl, hblank⟩
  next =>
      refine .inr ?_
      split at hpiece
      next hword =>
          cases hpiece
          refine ⟨_, rfl, .word ?_ ?_, ?_⟩
          · simp [hword]
          · exact fun d hd => List.mem_takeWhile_imp hd
          · exact fun next hnext => eq_false_of_head?_dropWhile hnext
      next =>
          split at hpiece
          next => exact written_of_stringLexeme hpiece
          next =>
              split at hpiece
              next hdigit => exact written_of_integerLexeme hdigit hpiece
              next =>
                  split at hpiece
                  next kind hkind =>
                      cases hpiece
                      have hoperator := TokenKind.ofOperator?_eq_some hkind
                      exact ⟨kind, rfl, .operator hoperator, .of_operator hoperator _⟩
                  next => cases hpiece

/-! ## Tilings -/

/-- The byte at an offset is under the span. -/
def Span.Covers (span : Span) (offset : Nat) : Prop :=
  span.start ≤ offset ∧ offset < span.stop

/-- From the given byte offset on, the text is made up of blanks and of written forms of
the tokens, in this order; each token is as long as it can be and has its own bytes for
its span. -/
inductive Tiles : Nat → List Char → List Token → Prop
  | done (offset : Nat) : Tiles offset [] []
  | blank {offset : Nat} {c : Char} {rest : List Char} {tokens : List Token}
      (hblank : Text.isBlank c = true) (hrest : Tiles (offset + c.utf8Size) rest tokens) :
      Tiles offset (c :: rest) tokens
  | token {offset : Nat} {kind : TokenKind} {text rest : List Char} {tokens : List Token}
      (hwritten : kind.WrittenAs text) (hends : kind.EndsBefore rest.head?)
      (hrest : Tiles (offset + Text.byteLength text) rest tokens) :
      Tiles offset (text ++ rest)
        (⟨kind, ⟨offset, offset + Text.byteLength text⟩⟩ :: tokens)

/-- The tokens that the lexer finds tile the text, and the end of the text follows. -/
theorem tiles_of_scanFrom {offset : Nat} {text : List Char} {found : List Token}
    (hscan : scanFrom offset text = .ok found) :
    ∃ tokens, found = tokens ++ [⟨.eof, .empty (offset + Text.byteLength text)⟩] ∧
      Tiles offset text tokens := by
  induction offset, text using scanFrom.induct generalizing found with
  | case1 offset =>
      rw [scanFrom] at hscan
      cases hscan
      exact ⟨[], rfl, .done offset⟩
  | case2 offset c rest error hpiece =>
      rw [scanFrom, hpiece] at hscan
      cases hscan
  | case3 offset c rest piece hpiece error hrest ih =>
      rw [scanFrom, hpiece] at hscan
      simp only [hrest] at hscan
      cases hscan
  | case4 offset c rest piece hpiece others hothers ih =>
      rw [scanFrom, hpiece] at hscan
      simp only [hothers] at hscan
      cases hscan
      obtain ⟨tokens, rfl, htiles⟩ := ih hothers
      have hsplit := lexeme_text_append_rest hpiece
      have hlength : offset + Text.byteLength (c :: rest) =
          offset + Text.byteLength piece.text + Text.byteLength piece.rest := by
        rw [← hsplit, Text.byteLength_append, Nat.add_assoc]
      rw [hlength, ← hsplit]
      rcases written_of_lexeme hpiece with ⟨rfl, hblank⟩ | ⟨kind, hkind, hwritten, hends⟩
      · exact ⟨tokens, rfl, .blank hblank htiles⟩
      · refine ⟨⟨kind, ⟨offset, offset + Text.byteLength piece.text⟩⟩ :: tokens, ?_,
          .token hwritten hends htiles⟩
        simp only [Lexeme.tokens, hkind]
        rfl

namespace Tiles

variable {offset : Nat} {text : List Char} {tokens : List Token}

/-- Every token lies inside the text and is not empty. -/
theorem span_bounds (htiles : Tiles offset text tokens) :
    ∀ token ∈ tokens, offset ≤ token.span.start ∧ token.span.start < token.span.stop ∧
      token.span.stop ≤ offset + Text.byteLength text := by
  induction htiles with
  | done offset => nofun
  | blank hblank hrest ih =>
      intro token htoken
      obtain ⟨hstart, hlt, hstop⟩ := ih token htoken
      rw [Text.byteLength_cons]
      exact ⟨by omega, hlt, by omega⟩
  | token hwritten hends hrest ih =>
      rw [Text.byteLength_append]
      refine List.forall_mem_cons.mpr ⟨?_, fun token htoken => ?_⟩
      · have hpos := Text.byteLength_pos hwritten.ne_nil
        exact ⟨Nat.le_refl _, by simp only; omega, by simp only; omega⟩
      · obtain ⟨hstart, hlt, hstop⟩ := ih token htoken
        exact ⟨by omega, hlt, by omega⟩

/-- The tokens are in the order of the text, and no two overlap. -/
theorem pairwise_spans (htiles : Tiles offset text tokens) :
    tokens.Pairwise fun a b => a.span.stop ≤ b.span.start := by
  induction htiles with
  | done offset => exact .nil
  | blank hblank hrest ih => exact ih
  | token hwritten hends hrest ih =>
      exact .cons (fun later hlater => (hrest.span_bounds later hlater).1) ih

/-- The text under the span of a token is a written form of it, and the token ends in
front of the character after it. -/
theorem exists_split (htiles : Tiles offset text tokens) :
    ∀ token ∈ tokens, ∃ before lexeme after, text = before ++ (lexeme ++ after) ∧
      token.span.start = offset + Text.byteLength before ∧
      token.span.stop = offset + Text.byteLength before + Text.byteLength lexeme ∧
      token.kind.WrittenAs lexeme ∧ token.kind.EndsBefore after.head? := by
  induction htiles with
  | done offset => nofun
  | @blank offset c rest tokens hblank hrest ih =>
      intro token htoken
      obtain ⟨before, lexeme, after, rfl, hstart, hstop, hwritten, hends⟩ := ih token htoken
      refine ⟨c :: before, lexeme, after, rfl, ?_, ?_, hwritten, hends⟩
      · rw [hstart, Text.byteLength_cons, Nat.add_assoc]
      · rw [hstop, Text.byteLength_cons, Nat.add_assoc offset]
  | @token offset kind text rest tokens hwritten hends hrest ih =>
      refine List.forall_mem_cons.mpr ⟨?_, fun token htoken => ?_⟩
      · exact ⟨[], text, rest, rfl, rfl, rfl, hwritten, hends⟩
      · obtain ⟨before, lexeme, after, rfl, hstart, hstop, hwritten, hends⟩ := ih token htoken
        refine ⟨text ++ before, lexeme, after, (List.append_assoc _ _ _).symm, ?_, ?_, hwritten,
          hends⟩
        · rw [hstart, Text.byteLength_append, Nat.add_assoc]
        · rw [hstop, Text.byteLength_append, Nat.add_assoc offset]

theorem ne_eof (htiles : Tiles offset text tokens) : ∀ token ∈ tokens, token.kind ≠ .eof := by
  intro token htoken
  obtain ⟨_, _, _, _, _, _, hwritten, -⟩ := htiles.exists_split token htoken
  exact hwritten.ne_eof

/-- A character that is under no token is a blank. -/
theorem blank_of_uncovered (htiles : Tiles offset text tokens) {before after : List Char}
    {c : Char} (hsplit : text = before ++ c :: after)
    (huncovered : ∀ token ∈ tokens, ¬ token.span.Covers (offset + Text.byteLength before)) :
    Text.isBlank c = true := by
  induction htiles generalizing before with
  | done offset => simp at hsplit
  | @blank offset d rest tokens hblank hrest ih =>
      cases before with
      | nil =>
          cases hsplit
          exact hblank
      | cons e before =>
          obtain ⟨rfl, hrest⟩ := List.cons.inj hsplit
          refine ih hrest ?_
          rwa [Nat.add_assoc, ← Text.byteLength_cons]
  | @token offset kind text rest tokens hwritten hends hrest ih =>
      obtain ⟨hfirst, hothers⟩ := List.forall_mem_cons.mp huncovered
      rcases List.append_eq_append_iff.mp hsplit with ⟨between, rfl, hrest⟩ | ⟨inside, rfl, hinside⟩
      · refine ih hrest fun token htoken => ?_
        rw [Nat.add_assoc, ← Text.byteLength_append]
        exact hothers token htoken
      · cases inside with
        | nil =>
            have hfront : rest = [] ++ c :: after := hinside.symm
            refine ih hfront fun token htoken => ?_
            simpa using hothers token htoken
        | cons d inside =>
            -- Here the character would stand under the first token.
            have hsize := d.utf8Size_pos
            simp only [Span.Covers, Text.byteLength_append, Text.byteLength_cons] at hfirst
            omega

end Tiles

/-! ## Positions in the source -/

/-- The text under a span. -/
def Span.text (span : Span) (source : String) : String :=
  String.Pos.Raw.extract source ⟨span.start⟩ ⟨span.stop⟩

/-- Both ends of the span lie in the source, and none inside a character of it. -/
def Span.OnBoundaries (span : Span) (source : String) : Prop :=
  String.Pos.Raw.IsValid source ⟨span.start⟩ ∧ String.Pos.Raw.IsValid source ⟨span.stop⟩

theorem Text.byteLength_eq_utf8Len (text : List Char) : byteLength text = String.utf8Len text := by
  induction text with
  | nil => rfl
  | cons c rest ih => rw [byteLength_cons, String.utf8Len_cons, ih, Nat.add_comm]

theorem Text.byteLength_toList (source : String) :
    byteLength source.toList = source.utf8ByteSize := by
  rw [byteLength_eq_utf8Len, String.utf8Len_toList]

section

variable {source : String} {before lexeme after : List Char}

theorem isValid_of_split (hsplit : source.toList = before ++ after) :
    String.Pos.Raw.IsValid source ⟨Text.byteLength before⟩ := by
  refine String.Pos.Raw.isValid_iff_exists_append.mpr
    ⟨String.ofList before, String.ofList after, ?_, ?_⟩
  · rw [← String.ofList_append, ← hsplit, String.ofList_toList]
  · rw [String.rawEndPos_ofList, Text.byteLength_eq_utf8Len]

theorem get?_of_split (hsplit : source.toList = before ++ after) :
    String.Pos.Raw.get? source ⟨Text.byteLength before⟩ = after.head? := by
  rw [← String.ofList_toList (s := source), hsplit, Text.byteLength_eq_utf8Len]
  exact String.get?_of_valid before after

/-- A position between two characters cuts the source in two. -/
theorem exists_split_of_isValid {position : String.Pos.Raw}
    (hvalid : String.Pos.Raw.IsValid source position) :
    ∃ before after, source.toList = before ++ after ∧
      position = ⟨Text.byteLength before⟩ := by
  obtain ⟨first, second, rfl, rfl⟩ := String.Pos.Raw.isValid_iff_exists_append.mp hvalid
  refine ⟨first.toList, second.toList, String.toList_append, ?_⟩
  rw [Text.byteLength_toList]
  rfl

theorem Span.text_of_split (hsplit : source.toList = before ++ (lexeme ++ after)) :
    Span.text ⟨Text.byteLength before, Text.byteLength before + Text.byteLength lexeme⟩ source =
      String.ofList lexeme := by
  rw [← String.ofList_toList (s := source), hsplit, ← List.append_assoc, Span.text,
    Text.byteLength_eq_utf8Len, Text.byteLength_eq_utf8Len]
  exact String.extract_of_valid before lexeme after

end

/-- The tokens of a source cover it.  One end-of-text token at the last offset comes after
the others.  The spans of the others are not empty, follow each other without overlap, lie
in the source and begin and end between characters; the text under each is a written form
of its token, and it is as long as it can be.  Every character outside the spans is a
blank. -/
theorem Token.scan_covers {source : String} {found : List Token}
    (hscan : Token.scan source = .ok found) :
    ∃ tokens, found = tokens ++ [⟨.eof, .empty source.utf8ByteSize⟩] ∧
      (∀ token ∈ tokens, token.kind ≠ .eof) ∧
      (tokens.Pairwise fun a b => a.span.stop ≤ b.span.start) ∧
      (∀ token ∈ tokens,
        token.span.start < token.span.stop ∧ token.span.OnBoundaries source ∧
        token.kind.WrittenAs (token.span.text source).toList ∧
        token.kind.EndsBefore (String.Pos.Raw.get? source ⟨token.span.stop⟩)) ∧
      ∀ position c, String.Pos.Raw.IsValid source position →
        String.Pos.Raw.get? source position = some c →
        (∀ token ∈ tokens, ¬ token.span.Covers position.byteIdx) → Text.isBlank c = true := by
  obtain ⟨tokens, rfl, htiles⟩ := tiles_of_scanFrom hscan
  rw [Nat.zero_add, Text.byteLength_toList]
  refine ⟨tokens, rfl, htiles.ne_eof, htiles.pairwise_spans, ?_, ?_⟩
  · intro token htoken
    obtain ⟨-, hlt, -⟩ := htiles.span_bounds token htoken
    obtain ⟨before, lexeme, after, hsplit, hstart, hstop, hwritten, hends⟩ :=
      htiles.exists_split token htoken
    rw [Nat.zero_add] at hstart hstop
    have hspan : token.span =
        ⟨Text.byteLength before, Text.byteLength before + Text.byteLength lexeme⟩ := by
      rw [← hstop, ← hstart]
    have hsplit' : source.toList = (before ++ lexeme) ++ after := by
      rw [hsplit, List.append_assoc]
    refine ⟨hlt, ⟨?_, ?_⟩, ?_, ?_⟩
    · rw [hstart]
      exact isValid_of_split hsplit
    · rw [hstop, ← Text.byteLength_append]
      exact isValid_of_split hsplit'
    · rw [hspan, Span.text_of_split hsplit, String.toList_ofList]
      exact hwritten
    · rw [hstop, ← Text.byteLength_append, get?_of_split hsplit']
      exact hends
  · intro position c hvalid hget huncovered
    obtain ⟨before, after, hsplit, rfl⟩ := exists_split_of_isValid hvalid
    rw [get?_of_split hsplit] at hget
    obtain ⟨rest, rfl⟩ := List.head?_eq_some_iff.mp hget
    refine htiles.blank_of_uncovered hsplit fun token htoken => ?_
    rw [Nat.zero_add]
    exact huncovered token htoken

/-- A text with characters of one, two and three bytes, and a blank of three. -/
def Token.multibyteSource : String := "größe=\"ü;\"　007é"

/-- The tokens of that text before its end. -/
def Token.multibyte : List Token :=
  [⟨.word "größe", ⟨0, 7⟩⟩, ⟨.equals, ⟨7, 8⟩⟩, ⟨.string "ü;", ⟨8, 13⟩⟩, ⟨.integer 7, ⟨16, 19⟩⟩,
    ⟨.word "é", ⟨19, 21⟩⟩]

theorem Token.multibyte_scan_covers :
    Token.scan Token.multibyteSource = .ok (Token.multibyte ++ [⟨.eof, .empty 21⟩]) ∧
      ∀ token ∈ Token.multibyte, token.span.OnBoundaries Token.multibyteSource ∧
        token.kind.WrittenAs (token.span.text Token.multibyteSource).toList ∧
        token.kind.EndsBefore (String.Pos.Raw.get? Token.multibyteSource ⟨token.span.stop⟩) := by
  have hscan : Token.scan Token.multibyteSource =
      .ok (Token.multibyte ++ [⟨.eof, .empty 21⟩]) := eq_ok_of_toOption (by decide +kernel)
  obtain ⟨tokens, hfound, -, -, hspans, -⟩ := Token.scan_covers hscan
  obtain ⟨rfl, -⟩ := List.append_inj' hfound rfl
  exact ⟨hscan, fun token htoken => (hspans token htoken).2⟩

end SlotLang
