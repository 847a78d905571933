import SlotLang.Proofs.TokenizedText
import SlotLang.Text.Classes

/-!
# Tiled texts are scanned back

A tiling of a text determines its tokens: the lexer finds exactly these.  A part of the
text, from the beginning of one token to the end of another, is tiled by the tokens from
the one to the other, and the tiling does not depend on where the text begins.  So the
tokens of a part of a text are found when the part is scanned by itself.

* `TokenKind.WrittenAs.lexeme_eq` — the lexer takes a written form in one piece.
* `Tiles.scanFrom_eq` — the lexer finds the tokens of a tiling.
* `Tiles.scanFrom_append` — the lexer goes on behind a tiled text.
* `Tiles.exists_part` — consecutive tokens tile the text from the first to the last.
* `Tiles.shiftLeft` — a tiling moves with its text.
* `Token.scan_part` — the tokens of a part of a source.
-/

namespace SlotLang

/-! ## Lexemes of written forms -/

/-- A run of characters of a class ends in front of a character outside of it. -/
theorem takeWhile_run {p : Char → Bool} {run rest : List Char} (hrun : ∀ c ∈ run, p c = true)
    (hrest : ∀ c ∈ rest.head?, p c = false) :
    (run ++ rest).takeWhile p = run ∧ (run ++ rest).dropWhile p = rest := by
  rw [List.takeWhile_append_of_pos hrun, List.dropWhile_append_of_pos hrun]
  cases rest with
  | nil => simp
  | cons c rest =>
      have hc : p c = false := hrest c rfl
      simp [hc]

theorem Text.Decimal.toInt32?_toInt (value : Int32) : toInt32? value.toInt = some value := by
  have hrange : least ≤ value.toInt ∧ value.toInt ≤ greatest :=
    ⟨value.le_toInt, Int.le_of_lt_add_one value.toInt_lt⟩
  rw [toInt32?, if_pos hrange, Int32.ofInt_toInt]

theorem Text.isWordCharacter_eq_false_of_asciiSymbols {c : Char}
    (hsymbol : asciiSymbols.contains c = true) : isWordCharacter c = false := by
  have hunderscore : c ≠ '_' := by
    rintro rfl
    exact absurd hsymbol (by decide)
  simp [isWordCharacter, isLetter_eq_false_of_asciiSymbols hsymbol, hunderscore]

/-- Behind blanks and words, a symbol is a quote, a digit or an operator. -/
theorem lexeme_of_asciiSymbols {offset : Nat} {c : Char} {rest : List Char}
    (hsymbol : Text.asciiSymbols.contains c = true) :
    lexeme offset c rest =
      if c = '"' then
        stringLexeme offset rest
      else if c.isDigit then
        integerLexeme offset (c :: rest)
      else
        match TokenKind.ofOperator? c with
        | some kind => .ok ⟨some kind, [c], rest⟩
        | none => .error (.unrecognized c ⟨offset, offset + c.utf8Size⟩) := by
  rw [lexeme, Text.isBlank_eq_false_of_asciiSymbols hsymbol,
    Text.isWordCharacter_eq_false_of_asciiSymbols hsymbol]
  rfl

theorem asciiSymbols_of_isDigit {c : Char} (hdigit : c.isDigit = true) :
    Text.asciiSymbols.contains c = true := by
  have hrange : 48 ≤ c.toNat ∧ c.toNat ≤ 57 := Char.isDigit_iff_toNat.mp hdigit
  refine (Text.CodePointSet.contains_iff _ c).mpr ⟨(0x21, 0x40), List.mem_singleton_self _, ?_⟩
  exact ⟨by omega, by omega⟩

theorem TokenKind.ofOperator?_of_operator? {kind : TokenKind} {c : Char}
    (hoperator : kind.operator? = some c) :
    ofOperator? c = some kind ∧ Text.asciiSymbols.contains c = true ∧ c ≠ '"' ∧
      c.isDigit = false := by
  cases kind <;> cases hoperator <;> decide

theorem stringLexeme_append {body rest : List Char} (hquote : '"' ∉ body) (offset : Nat) :
    stringLexeme offset (body ++ '"' :: rest) =
      .ok ⟨some (.string (String.ofList body)), '"' :: body ++ ['"'], rest⟩ := by
  have hbody : ∀ c ∈ body, (c != '"') = true := by
    intro c hc
    refine bne_iff_ne.mpr ?_
    rintro rfl
    exact hquote hc
  have hstop : ∀ c ∈ ('"' :: rest).head?, (c != '"') = false := by simp
  obtain ⟨htake, hdrop⟩ := takeWhile_run hbody hstop
  rw [stringLexeme, hdrop, htake]

theorem integerLexeme_append {digits rest : List Char} {value : Int32}
    (hdigits : ∀ c ∈ digits, c.isDigit = true)
    (hvalue : (Text.Decimal.value digits : Int) = value.toInt)
    (hrest : ∀ c ∈ rest.head?, c.isDigit = false) (offset : Nat) :
    integerLexeme offset (digits ++ rest) = .ok ⟨some (.integer value), digits, rest⟩ := by
  obtain ⟨htake, hdrop⟩ := takeWhile_run hdigits hrest
  simp only [integerLexeme, htake, hdrop, hvalue, Text.Decimal.toInt32?_toInt]

/-- The lexer takes a written form in one piece, if the token ends there. -/
theorem TokenKind.WrittenAs.lexeme_eq {kind : TokenKind} {c : Char} {text rest : List Char}
    (hwritten : kind.WrittenAs (c :: text)) (hends : kind.EndsBefore rest.head?) (offset : Nat) :
    lexeme offset c (text ++ rest) = .ok ⟨some kind, c :: text, rest⟩ := by
  generalize hform : c :: text = form at hwritten
  cases hwritten with
  | word hne hletters =>
      subst hform
      have hword : Text.isWordCharacter c = true := hletters c List.mem_cons_self
      have hblank : ¬ Text.isBlank c = true := fun hblank =>
        Bool.false_ne_true ((Text.isWordCharacter_eq_false_of_isBlank hblank).symm.trans hword)
      obtain ⟨htake, hdrop⟩ := takeWhile_run hletters hends
      rw [List.cons_append] at htake hdrop
      rw [lexeme, if_neg hblank, if_pos hword, htake, hdrop]
  | string hquote =>
      rw [List.cons_append] at hform
      obtain ⟨rfl, rfl⟩ := List.cons.inj hform
      rw [lexeme_of_asciiSymbols (by decide), if_pos rfl, List.append_assoc,
        List.singleton_append]
      exact stringLexeme_append hquote offset
  | integer hne hdigits hvalue =>
      subst hform
      have hdigit : c.isDigit = true := hdigits c List.mem_cons_self
      have hquote : c ≠ '"' := by
        rintro rfl
        exact absurd hdigit (by decide)
      rw [lexeme_of_asciiSymbols (asciiSymbols_of_isDigit hdigit), if_neg hquote, if_pos hdigit]
      exact integerLexeme_append hdigits hvalue hends offset
  | operator hoperator =>
      obtain ⟨rfl, rfl⟩ := List.cons.inj hform
      obtain ⟨hkind, hsymbol, hquote, hdigit⟩ := TokenKind.ofOperator?_of_operator? hoperator
      rw [lexeme_of_asciiSymbols hsymbol, if_neg hquote, hdigit, hkind]
      rfl

/-! ## Scanning a tiled text -/

/-- The lexer goes on behind the piece that it took. -/
theorem scanFrom_of_lexeme {offset : Nat} {c : Char} {rest : List Char} {piece : Lexeme}
    (hpiece : lexeme offset c rest = .ok piece) :
    scanFrom offset (c :: rest) =
      (scanFrom (offset + Text.byteLength piece.text) piece.rest).map
        (piece.tokens offset ++ ·) := by
  rw [scanFrom, hpiece]
  cases hrest : scanFrom (offset + Text.byteLength piece.text) piece.rest <;>
    simp only [hrest, Except.map]

/-- The lexer finds the tokens of a tiling. -/
theorem Tiles.scanFrom_eq {offset : Nat} {text : List Char} {tokens : List Token}
    (htiles : Tiles offset text tokens) :
    scanFrom offset text = .ok (tokens ++ [⟨.eof, .empty (offset + Text.byteLength text)⟩]) := by
  induction htiles with
  | done offset => rw [scanFrom]; rfl
  | @blank offset c rest tokens hblank hrest ih =>
      have hpiece : lexeme offset c rest = .ok ⟨none, [c], rest⟩ := if_pos hblank
      rw [Nat.add_assoc] at ih
      rw [scanFrom_of_lexeme hpiece]
      exact congrArg (Except.map _) ih
  | @token offset kind text rest tokens hwritten hends hrest ih =>
      obtain ⟨c, tail, rfl⟩ := List.exists_cons_of_ne_nil hwritten.ne_nil
      have hpiece := hwritten.lexeme_eq hends offset
      rw [Nat.add_assoc, ← Text.byteLength_append] at ih
      rw [List.cons_append, scanFrom_of_lexeme hpiece]
      exact congrArg (Except.map _) ih

/-! ## Texts in a row -/

/-- Neither a word nor an integer goes on from the one text into the other. -/
def Apart (before after : List Char) : Prop :=
  ∀ c ∈ before.getLast?, ∀ d ∈ after.head?,
    (Text.isWordCharacter c = true → Text.isWordCharacter d = false) ∧
      (c.isDigit = true → d.isDigit = false)

theorem Text.isWordCharacter_eq_false_of_isDigit {c : Char} (hdigit : c.isDigit = true) :
    isWordCharacter c = false :=
  isWordCharacter_eq_false_of_asciiSymbols (asciiSymbols_of_isDigit hdigit)

theorem Text.isDigit_eq_false_of_isBlank {c : Char} (hblank : isBlank c = true) :
    c.isDigit = false := by
  rw [Bool.eq_false_iff]
  intro hdigit
  rw [isBlank_eq_false_of_asciiSymbols (asciiSymbols_of_isDigit hdigit)] at hblank
  cases hblank

/-- A text that ends with a symbol other than a digit is apart from every text. -/
theorem Apart.of_symbol {before after : List Char} {c : Char} (hlast : before.getLast? = some c)
    (hword : Text.isWordCharacter c = false) (hdigit : c.isDigit = false) :
    Apart before after := by
  intro e he d _
  cases hlast.symm.trans he
  simp [hword, hdigit]

theorem Apart.of_blank {before after : List Char} {c : Char} (hlast : before.getLast? = some c)
    (hblank : Text.isBlank c = true) : Apart before after :=
  .of_symbol hlast (Text.isWordCharacter_eq_false_of_isBlank hblank)
    (Text.isDigit_eq_false_of_isBlank hblank)

theorem Apart.append {front before after : List Char} (hfront : Apart front (before ++ after))
    (hbefore : Apart before after) : Apart (front ++ before) after := by
  cases before with
  | nil =>
      rw [List.append_nil]
      exact hfront
  | cons d before =>
      intro c hc
      rw [List.getLast?_append_cons] at hc
      exact hbefore c hc

theorem Apart.of_append {front before after : List Char} (hapart : Apart (front ++ before) after) :
    Apart before after := by
  intro c hc
  refine hapart c ?_
  rw [List.getLast?_append, Option.mem_def.mp hc]
  rfl

/-- A written form is apart from what the token ends in front of. -/
theorem TokenKind.WrittenAs.endsBefore_iff_apart {kind : TokenKind} {text rest : List Char}
    (hwritten : kind.WrittenAs text) : kind.EndsBefore rest.head? ↔ Apart text rest := by
  cases hwritten with
  | word hne hletters =>
      have hlast : Text.isWordCharacter (text.getLast hne) = true :=
        hletters _ (List.getLast_mem hne)
      constructor
      · intro hends c hc d hd
        cases (List.getLast?_eq_some_getLast hne).symm.trans hc
        refine ⟨fun _ => hends d hd, fun hdigit => ?_⟩
        rw [Text.isWordCharacter_eq_false_of_isDigit hdigit] at hlast
        cases hlast
      · intro hapart d hd
        exact (hapart _ (List.getLast?_eq_some_getLast hne) d hd).1 hlast
  | string hquote =>
      refine iff_of_true trivial (.of_symbol (c := '"') ?_ ?_ (by decide))
      · rw [List.getLast?_concat]
      · exact Text.isWordCharacter_eq_false_of_asciiSymbols (by decide)
  | integer hne hdigits hvalue =>
      have hlast : (text.getLast hne).isDigit = true := hdigits _ (List.getLast_mem hne)
      constructor
      · intro hends c hc d hd
        cases (List.getLast?_eq_some_getLast hne).symm.trans hc
        refine ⟨fun hword => ?_, fun _ => hends d hd⟩
        rw [Text.isWordCharacter_eq_false_of_isDigit hlast] at hword
        cases hword
      · intro hapart d hd
        exact (hapart _ (List.getLast?_eq_some_getLast hne) d hd).2 hlast
  | operator hoperator =>
      obtain ⟨-, hsymbol, -, hdigit⟩ := TokenKind.ofOperator?_of_operator? hoperator
      exact iff_of_true (.of_operator hoperator _)
        (.of_symbol rfl (Text.isWordCharacter_eq_false_of_asciiSymbols hsymbol) hdigit)

/-- Behind a tiled text the lexer goes on as at the beginning of a text. -/
theorem Tiles.scanFrom_append {offset : Nat} {text after : List Char} {tokens : List Token}
    (htiles : Tiles offset text tokens) (hapart : Apart text after) :
    scanFrom offset (text ++ after) =
      (scanFrom (offset + Text.byteLength text) after).map (tokens ++ ·) := by
  induction htiles with
  | done offset =>
      rw [List.nil_append, Text.byteLength_nil, Nat.add_zero]
      cases scanFrom offset after <;> rfl
  | @blank offset c rest tokens hblank hrest ih =>
      have hpiece : lexeme offset c (rest ++ after) = .ok ⟨none, [c], rest ++ after⟩ :=
        if_pos hblank
      rw [List.cons_append, scanFrom_of_lexeme hpiece]
      simp only [Text.byteLength_cons, Text.byteLength_nil, Nat.add_zero, Lexeme.tokens]
      have hrest : Apart ([c] ++ rest) after := hapart
      rw [ih hrest.of_append, Nat.add_assoc]
      cases scanFrom (offset + (c.utf8Size + Text.byteLength rest)) after <;> rfl
  | @token offset kind text rest tokens hwritten hends hrest ih =>
      have hends' : kind.EndsBefore (rest ++ after).head? := by
        cases rest with
        | nil =>
            rw [List.append_nil] at hapart
            exact hwritten.endsBefore_iff_apart.mpr hapart
        | cons d rest => exact hends
      obtain ⟨c, tail, rfl⟩ := List.exists_cons_of_ne_nil hwritten.ne_nil
      have hpiece := hwritten.lexeme_eq hends' offset
      rw [List.append_assoc, List.cons_append, scanFrom_of_lexeme hpiece, ih hapart.of_append,
        Text.byteLength_append, Nat.add_assoc]
      cases scanFrom (offset + (Text.byteLength (c :: tail) + Text.byteLength rest)) after <;> rfl

/-! ## Parts of a tiled text -/

/-- A token that ends in front of a text ends in front of any beginning of the text. -/
theorem TokenKind.EndsBefore.of_append {kind : TokenKind} {front back : List Char}
    (hends : kind.EndsBefore (front ++ back).head?) : kind.EndsBefore front.head? := by
  cases front with
  | nil =>
      cases kind with
      | word => nofun
      | integer => nofun
      | _ => trivial
  | cons c front => exact hends

/-- Where the last of the tokens ends; without tokens, the given offset. -/
def endOf (offset : Nat) (tokens : List Token) : Nat :=
  tokens.foldl (fun _ token => token.span.stop) offset

theorem endOf_cons (offset : Nat) (token : Token) (rest : List Token) :
    endOf offset (token :: rest) = endOf token.span.stop rest := rfl

theorem endOf_append (offset : Nat) (tokens others : List Token) :
    endOf offset (tokens ++ others) = endOf (endOf offset tokens) others :=
  List.foldl_append

namespace Tiles

variable {offset : Nat} {text : List Char}

/-- From the beginning of a token on, the text is tiled by this token and those after it. -/
theorem exists_back {before rest : List Token} {first : Token}
    (htiles : Tiles offset text (before ++ first :: rest)) :
    ∃ front back, text = front ++ back ∧ first.span.start = offset + Text.byteLength front ∧
      Tiles first.span.start back (first :: rest) := by
  generalize htokens : before ++ first :: rest = tokens at htiles
  induction htiles generalizing before with
  | done offset => simp at htokens
  | @blank offset c others tokens hblank hrest ih =>
      obtain ⟨front, back, rfl, hstart, hback⟩ := ih htokens
      exact ⟨c :: front, back, rfl, by rw [hstart, Text.byteLength_cons, Nat.add_assoc], hback⟩
  | @token offset kind text others tokens hwritten hends hrest ih =>
      cases before with
      | nil =>
          obtain ⟨rfl, rfl⟩ := List.cons.inj htokens
          exact ⟨[], text ++ others, rfl, rfl, .token hwritten hends hrest⟩
      | cons token before =>
          obtain ⟨front, back, rfl, hstart, hback⟩ := ih (List.cons.inj htokens).2
          refine ⟨text ++ front, back, (List.append_assoc _ _ _).symm, ?_, hback⟩
          rw [hstart, Text.byteLength_append, Nat.add_assoc]

/-- Up to the end of a token, the text is tiled by this token and those before it. -/
theorem exists_front {run after : List Token} (htiles : Tiles offset text (run ++ after)) :
    ∃ front back, text = front ++ back ∧ Tiles offset front run ∧
      endOf offset run = offset + Text.byteLength front := by
  generalize htokens : run ++ after = tokens at htiles
  induction htiles generalizing run with
  | done offset =>
      obtain ⟨rfl, -⟩ := List.append_eq_nil_iff.mp htokens
      exact ⟨[], [], rfl, .done offset, rfl⟩
  | @blank offset c rest tokens hblank hrest ih =>
      cases run with
      | nil => exact ⟨[], c :: rest, rfl, .done offset, rfl⟩
      | cons first run =>
          obtain ⟨front, back, rfl, hfront, hstop⟩ := ih htokens
          refine ⟨c :: front, back, rfl, .blank hblank hfront, ?_⟩
          rw [Text.byteLength_cons, ← Nat.add_assoc]
          exact hstop
  | @token offset kind text rest tokens hwritten hends hrest ih =>
      cases run with
      | nil => exact ⟨[], text ++ rest, rfl, .done offset, rfl⟩
      | cons first run =>
          obtain ⟨rfl, hrun⟩ := List.cons.inj htokens
          obtain ⟨front, back, rfl, hfront, hstop⟩ := ih hrun
          refine ⟨text ++ front, back, (List.append_assoc _ _ _).symm,
            .token hwritten hends.of_append hfront, ?_⟩
          rw [endOf_cons, hstop, Text.byteLength_append, Nat.add_assoc]

/-- Consecutive tokens tile the text from the beginning of the first to the end of the
last. -/
theorem exists_part {run : List Token} {first : Token} {tokens : List Token}
    (htiles : Tiles offset text tokens) (hrun : first :: run <:+: tokens) :
    ∃ front part back, text = front ++ (part ++ back) ∧
      first.span.start = offset + Text.byteLength front ∧
      endOf offset (first :: run) = first.span.start + Text.byteLength part ∧
      Tiles first.span.start part (first :: run) := by
  obtain ⟨before, after, rfl⟩ := hrun
  rw [List.append_assoc, List.cons_append] at htiles
  obtain ⟨front, back, rfl, hstart, hback⟩ := htiles.exists_back
  rw [← List.cons_append] at hback
  obtain ⟨part, back, rfl, hpart, hstop⟩ := hback.exists_front
  exact ⟨front, part, back, rfl, hstart, hstop, hpart⟩

end Tiles

/-! ## Moving a text -/

namespace Span

/-- The span moved towards the front of the text. -/
def shiftLeft (n : Nat) (span : Span) : Span where
  start := span.start - n
  stop := span.stop - n

/-- The span moved away from the front of the text. -/
def shiftRight (n : Nat) (span : Span) : Span where
  start := span.start + n
  stop := span.stop + n

theorem shiftLeft_hull (n : Nat) (a b : Span) :
    (a.hull b).shiftLeft n = (a.shiftLeft n).hull (b.shiftLeft n) := by
  simp only [hull, shiftLeft, Nat.sub_min_sub_right, Nat.sub_max_sub_right]

theorem shiftRight_hull (n : Nat) (a b : Span) :
    (a.hull b).shiftRight n = (a.shiftRight n).hull (b.shiftRight n) := by
  simp only [hull, shiftRight, Nat.add_min_add_right, Nat.add_max_add_right]

theorem shiftRight_shiftLeft {n : Nat} {span : Span} (hstart : n ≤ span.start)
    (hstop : n ≤ span.stop) : (span.shiftLeft n).shiftRight n = span := by
  simp only [shiftLeft, shiftRight, Nat.sub_add_cancel hstart, Nat.sub_add_cancel hstop]

end Span

/-- The token at another place. -/
def Token.mapSpan (f : Span → Span) (token : Token) : Token where
  kind := token.kind
  span := f token.span

/-- A tiling moves with its text. -/
theorem Tiles.shiftLeft {offset n : Nat} {text : List Char} {tokens : List Token}
    (htiles : Tiles offset text tokens) (hle : n ≤ offset) :
    Tiles (offset - n) text (tokens.map (Token.mapSpan (Span.shiftLeft n))) := by
  induction htiles with
  | done offset => exact .done _
  | blank hblank hrest ih =>
      refine .blank hblank ?_
      rw [← Nat.sub_add_comm hle]
      exact ih (Nat.le_add_right_of_le hle)
  | token hwritten hends hrest ih =>
      have hrest' := ih (Nat.le_add_right_of_le hle)
      rw [Nat.sub_add_comm hle] at hrest'
      rw [List.map_cons, Token.mapSpan, Span.shiftLeft, Nat.sub_add_comm hle]
      exact .token hwritten hends hrest'

/-- The tokens of a moved text move back. -/
theorem Tiles.shiftRight_shiftLeft {offset n : Nat} {text : List Char} {tokens : List Token}
    (htiles : Tiles offset text tokens) (hle : n ≤ offset) :
    (tokens.map (Token.mapSpan (Span.shiftLeft n))).map (Token.mapSpan (Span.shiftRight n)) =
      tokens := by
  rw [List.map_map]
  refine (List.map_congr_left fun token htoken => ?_).trans (List.map_id tokens)
  obtain ⟨hstart, hlt, -⟩ := htiles.span_bounds token htoken
  have hspan : (token.span.shiftLeft n).shiftRight n = token.span :=
    Span.shiftRight_shiftLeft (by omega) (by omega)
  simp only [Function.comp_apply, Token.mapSpan, hspan, id_eq]

/-- The tokens of a part of a source, from the beginning of one token to the end of another,
are found when this part is scanned by itself; they are the tokens from the one to the other,
moved to the front. -/
theorem Token.scan_part {source : String} {tokens run : List Token} {first : Token} {span : Span}
    (htiles : Tiles 0 source.toList tokens) (hrun : first :: run <:+: tokens)
    (hspan : span = ⟨first.span.start, endOf first.span.stop run⟩) :
    span.OnBoundaries source ∧
      Token.scan (span.text source) =
        .ok ((first :: run).map (Token.mapSpan (Span.shiftLeft span.start)) ++
          [⟨.eof, .empty span.length⟩]) ∧
      ((first :: run).map (Token.mapSpan (Span.shiftLeft span.start))).map
        (Token.mapSpan (Span.shiftRight span.start)) = first :: run := by
  obtain ⟨front, part, back, hsplit, hstart, hstop, hpart⟩ := htiles.exists_part hrun
  rw [endOf_cons, hstart, Nat.zero_add] at hstop
  rw [hstart, Nat.zero_add] at hpart
  rw [hstart, hstop, Nat.zero_add] at hspan
  subst hspan
  have hsplit' : source.toList = (front ++ part) ++ back := by rw [hsplit, List.append_assoc]
  refine ⟨⟨isValid_of_split hsplit, ?_⟩, ?_, hpart.shiftRight_shiftLeft (Nat.le_refl _)⟩
  · rw [← Text.byteLength_append]
    exact isValid_of_split hsplit'
  · have hmoved := hpart.shiftLeft (Nat.le_refl _)
    rw [Nat.sub_self] at hmoved
    rw [Span.text_of_split hsplit, Token.scan, String.toList_ofList, hmoved.scanFrom_eq,
      Span.length, Nat.zero_add, Nat.add_sub_cancel_left]

end SlotLang
