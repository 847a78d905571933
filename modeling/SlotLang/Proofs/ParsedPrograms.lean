import SlotLang.Proofs.Grammar
import SlotLang.Statement.Parser

/-!
# The parser reads the grammar

Each reading step is described by what it takes off the front of the tokens.  From
there the parser is sound: the tokens that it takes build the tree that it returns.  It
is complete as well: in front of tokens that cannot go on with a sequence it takes
all the tokens of a derivation and builds the tree of it, up to spans.  Together
they say that the grammar has one tree for a list of tokens at most.

* `Yields` — a reading step succeeds with a result and the tokens after it.
* `Closes` — a sequence ends in front of the given tokens.
* `builds_of_parseStatement` — what the parser takes builds what it returns.
* `Builds.reads` — what is built from tokens, the parser returns for them.
* `Derives.accepted` — what is derived, the parser takes.
-/

namespace SlotLang

/-! ## Reading steps -/

/-- A reading step succeeds with a result and leaves the given tokens. -/
def Yields {α : Type} {tokens : List Token} (result : Except ParseError (Parsed α tokens))
    (a : α) (rest : List Token) : Prop :=
  ∃ hrest, result = .ok ⟨(a, rest), hrest⟩

section

variable {α β : Type} {before tokens rest : List Token}

theorem yields_error {error : ParseError} {a : α} :
    ¬ Yields (.error error : Except ParseError (Parsed α tokens)) a rest := by
  rintro ⟨_, herror⟩
  cases herror

theorem yields_ok {a b : α} {left : List Token} {hleft : left.length < tokens.length} :
    Yields (.ok ⟨(a, left), hleft⟩ : Except ParseError (Parsed α tokens)) b rest ↔
      a = b ∧ left = rest := by
  constructor
  · rintro ⟨_, hok⟩
    cases hok
    exact ⟨rfl, rfl⟩
  · rintro ⟨rfl, rfl⟩
    exact ⟨hleft, rfl⟩

theorem yields_pure {a b : α} {left : List Token} {hleft : left.length < tokens.length} :
    Yields (pure ⟨(a, left), hleft⟩ : Except ParseError (Parsed α tokens)) b rest ↔
      a = b ∧ left = rest :=
  yields_ok

/-- Two steps in a row succeed if and only if both do. -/
theorem yields_bind {first : Except ParseError (Parsed β before)}
    {next : Parsed β before → Except ParseError (Parsed α tokens)} {a : α} :
    Yields (first >>= next) a rest ↔
      ∃ b middle hmiddle, Yields first b middle ∧ Yields (next ⟨(b, middle), hmiddle⟩) a rest := by
  cases first with
  | error error =>
      constructor
      · rintro ⟨_, herror⟩
        cases herror
      · rintro ⟨b, middle, _, hfirst, -⟩
        exact absurd hfirst yields_error
  | ok found =>
      obtain ⟨⟨b, middle⟩, hmiddle⟩ := found
      constructor
      · intro hnext
        exact ⟨b, middle, hmiddle, ⟨hmiddle, rfl⟩, hnext⟩
      · rintro ⟨_, _, _, hfirst, hnext⟩
        obtain ⟨rfl, rfl⟩ := yields_ok.mp hfirst
        exact hnext

/-- A step that is taken after a first token. -/
theorem yields_map {token : Token} {result : Except ParseError (Parsed α before)} {a : α} :
    Yields (result.map fun found =>
      (⟨found.1, Nat.lt_succ_of_lt found.2⟩ : Parsed α (token :: before))) a rest ↔
        Yields result a rest := by
  cases result with
  | error error => exact ⟨fun h => absurd h yields_error, fun h => absurd h yields_error⟩
  | ok found =>
      obtain ⟨⟨b, left⟩, hleft⟩ := found
      exact yields_ok.trans yields_ok.symm

end

section

variable {eof start : Span} {tokens rest : List Token}

theorem yields_parseToken {kind : TokenKind} {expected : Expectation} {span : Span} :
    Yields (parseToken eof kind expected tokens) span rest ↔ tokens = ⟨kind, span⟩ :: rest := by
  cases tokens with
  | nil => exact ⟨fun h => absurd h yields_error, nofun⟩
  | cons token others =>
      obtain ⟨found, place⟩ := token
      simp only [parseToken]
      by_cases hkind : found = kind
      · rw [if_pos hkind, yields_ok]
        simp [hkind]
      · rw [if_neg hkind]
        simp [yields_error, hkind]

theorem yields_parseName {expected : Expectation} {name : String} {span : Span} :
    Yields (parseName eof expected tokens) (name, span) rest ↔
      tokens = ⟨.word name, span⟩ :: rest := by
  unfold parseName
  split
  next found place others => simp [yields_ok]
  next hword =>
      constructor
      · intro h
        exact absurd h yields_error
      · intro htokens
        exact absurd htokens (hword name span rest)

theorem yields_parseExpression {value : Expression} :
    Yields (parseExpression eof tokens) value rest ↔
      ∃ kind, Denotes kind value ∧ tokens = ⟨kind, value.span⟩ :: rest := by
  unfold parseExpression
  constructor
  · intro h
    split at h
    · obtain ⟨rfl, rfl⟩ := yields_ok.mp h
      exact ⟨_, .string _ _, rfl⟩
    · obtain ⟨rfl, rfl⟩ := yields_ok.mp h
      exact ⟨_, .integer _ _, rfl⟩
    · obtain ⟨rfl, rfl⟩ := yields_ok.mp h
      exact ⟨_, .word _ _, rfl⟩
    · exact absurd h yields_error
  · rintro ⟨kind, hvalue, rfl⟩
    cases hvalue with
    | string text span => exact yields_ok.mpr ⟨rfl, rfl⟩
    | integer n span => exact yields_ok.mpr ⟨rfl, rfl⟩
    | word name span => exact yields_ok.mpr ⟨rfl, rfl⟩

/-! ## Statements without parts -/

theorem yields_parsePrint {statement : Statement} :
    Yields (parsePrint eof start tokens) statement rest ↔
      ∃ kind value, Denotes kind value ∧ tokens = ⟨kind, value.span⟩ :: rest ∧
        .print value (start.hull value.span) = statement := by
  simp only [parsePrint, yields_bind, yields_parseExpression, yields_pure]
  constructor
  · rintro ⟨value, _, _, ⟨kind, hvalue, rfl⟩, rfl, rfl⟩
    exact ⟨kind, value, hvalue, rfl, rfl⟩
  · rintro ⟨kind, value, hvalue, rfl, rfl⟩
    exact ⟨value, rest, by simp, ⟨kind, hvalue, rfl⟩, rfl, rfl⟩

theorem yields_parseDeclare {statement : Statement} :
    Yields (parseDeclare eof start tokens) statement rest ↔
      ∃ name place equals kind value, Denotes kind value ∧
        tokens = ⟨.word name, place⟩ :: ⟨.equals, equals⟩ :: ⟨kind, value.span⟩ :: rest ∧
        .declare name value (start.hull value.span) = statement := by
  simp only [parseDeclare, yields_bind, Prod.exists, yields_parseName, yields_parseToken,
    yields_parseExpression, yields_pure]
  constructor
  · rintro ⟨name, place, _, _, rfl, equals, _, _, rfl, value, _, _, ⟨kind, hvalue, rfl⟩, rfl, rfl⟩
    exact ⟨name, place, equals, kind, value, hvalue, rfl, rfl⟩
  · rintro ⟨name, place, equals, kind, value, hvalue, rfl, rfl⟩
    exact ⟨name, place, _, by simp, rfl, equals, _, by simp, rfl, value, rest, by simp,
      ⟨kind, hvalue, rfl⟩, rfl, rfl⟩

theorem yields_parseReadInt {statement : Statement} :
    Yields (parseReadInt eof start tokens) statement rest ↔
      ∃ name place, tokens = ⟨.word name, place⟩ :: rest ∧
        .readInt name (start.hull place) = statement := by
  simp only [parseReadInt, yields_bind, Prod.exists, yields_parseName, yields_pure]
  constructor
  · rintro ⟨name, place, _, _, rfl, rfl, rfl⟩
    exact ⟨name, place, rfl, rfl⟩
  · rintro ⟨name, place, rfl, rfl⟩
    exact ⟨name, place, rest, by simp, rfl, rfl, rfl⟩

theorem yields_parseAssign {name : String} {statement : Statement} :
    Yields (parseAssign eof start name tokens) statement rest ↔
      ∃ equals kind value, Denotes kind value ∧
        tokens = ⟨.equals, equals⟩ :: ⟨kind, value.span⟩ :: rest ∧
        .assign name value (start.hull value.span) = statement := by
  simp only [parseAssign, yields_bind, yields_parseToken, yields_parseExpression, yields_pure]
  constructor
  · rintro ⟨equals, _, _, rfl, value, _, _, ⟨kind, hvalue, rfl⟩, rfl, rfl⟩
    exact ⟨equals, kind, value, hvalue, rfl, rfl⟩
  · rintro ⟨equals, kind, value, hvalue, rfl, rfl⟩
    exact ⟨equals, _, by simp, rfl, value, rest, by simp, ⟨kind, hvalue, rfl⟩, rfl, rfl⟩

theorem yields_parseLoopHead {head : LoopHead} :
    Yields (parseLoopHead eof tokens) head rest ↔
      ∃ low high place equals middle last, Denotes low head.lower ∧ Denotes high head.upper ∧
        tokens = ⟨.word head.index, place⟩ :: ⟨.equals, equals⟩ :: ⟨low, head.lower.span⟩ ::
          ⟨.word "to", middle⟩ :: ⟨high, head.upper.span⟩ :: ⟨.word "do", last⟩ :: rest := by
  simp only [parseLoopHead, yields_bind, Prod.exists, yields_parseName, yields_parseToken,
    yields_parseExpression, yields_pure]
  constructor
  · rintro ⟨index, place, _, _, rfl, equals, _, _, rfl, lower, _, _, ⟨low, hlower, rfl⟩, middle, _,
      _, rfl, upper, _, _, ⟨high, hupper, rfl⟩, last, _, _, rfl, rfl, rfl⟩
    exact ⟨low, high, place, equals, middle, last, hlower, hupper, rfl⟩
  · rintro ⟨low, high, place, equals, middle, last, hlower, hupper, rfl⟩
    exact ⟨head.index, place, _, by simp, rfl, equals, _, by simp, rfl, head.lower, _, by simp,
      ⟨low, hlower, rfl⟩, middle, _, by simp, rfl, head.upper, _, by simp, ⟨high, hupper, rfl⟩,
      last, rest, by simp, rfl, rfl, rfl⟩

/-! ## Simple statements and sequences -/

/-- What a simple statement with the given first word goes on with. -/
theorem parseSimple_word (word : String) :
    parseSimple eof (⟨.word word, start⟩ :: tokens) =
      if word = "print" then
        (parsePrint eof start tokens).map fun found => ⟨found.1, Nat.lt_succ_of_lt found.2⟩
      else if word = "var" then
        (parseDeclare eof start tokens).map fun found => ⟨found.1, Nat.lt_succ_of_lt found.2⟩
      else if word = "read_int" then
        (parseReadInt eof start tokens).map fun found => ⟨found.1, Nat.lt_succ_of_lt found.2⟩
      else if word = "for" then do
        let ⟨(head, afterHead), hhead⟩ ← parseLoopHead eof tokens
        let ⟨(body, afterBody), hbody⟩ ← parseStatement eof afterHead
        let ⟨(stop, remaining), hend⟩ ← parseToken eof (.word "end") .endAfterBody afterBody
        return ⟨(.forLoop head.index head.lower head.upper body (start.hull stop), remaining),
          Nat.lt_succ_of_lt (Nat.lt_trans hend (Nat.lt_trans hbody hhead))⟩
      else
        (parseAssign eof start word tokens).map fun found =>
          ⟨found.1, Nat.lt_succ_of_lt found.2⟩ := by
  rw [parseSimple]

theorem yields_parseSimple_print {statement : Statement} :
    Yields (parseSimple eof (⟨.word "print", start⟩ :: tokens)) statement rest ↔
      Yields (parsePrint eof start tokens) statement rest := by
  rw [parseSimple_word, if_pos rfl]
  exact yields_map

theorem yields_parseSimple_declare {statement : Statement} :
    Yields (parseSimple eof (⟨.word "var", start⟩ :: tokens)) statement rest ↔
      Yields (parseDeclare eof start tokens) statement rest := by
  rw [parseSimple_word, if_neg (by decide), if_pos rfl]
  exact yields_map

theorem yields_parseSimple_readInt {statement : Statement} :
    Yields (parseSimple eof (⟨.word "read_int", start⟩ :: tokens)) statement rest ↔
      Yields (parseReadInt eof start tokens) statement rest := by
  rw [parseSimple_word, if_neg (by decide), if_neg (by decide), if_pos rfl]
  exact yields_map

theorem yields_parseSimple_assign {word : String} (hword : word ∉ leadingKeywords)
    {statement : Statement} :
    Yields (parseSimple eof (⟨.word word, start⟩ :: tokens)) statement rest ↔
      Yields (parseAssign eof start word tokens) statement rest := by
  simp only [leadingKeywords, List.mem_cons, List.not_mem_nil, or_false, not_or] at hword
  obtain ⟨hprint, hvar, hread, hfor⟩ := hword
  rw [parseSimple_word, if_neg hprint, if_neg hvar, if_neg hread, if_neg hfor]
  exact yields_map

theorem yields_parseSimple_forLoop {statement : Statement} :
    Yields (parseSimple eof (⟨.word "for", start⟩ :: tokens)) statement rest ↔
      ∃ head afterHead body stop, Yields (parseLoopHead eof tokens) head afterHead ∧
        Yields (parseStatement eof afterHead) body (⟨.word "end", stop⟩ :: rest) ∧
        .forLoop head.index head.lower head.upper body (start.hull stop) = statement := by
  rw [parseSimple_word, if_neg (by decide), if_neg (by decide), if_neg (by decide), if_pos rfl]
  simp only [yields_bind, yields_parseToken, yields_pure]
  constructor
  · rintro ⟨head, afterHead, _, hhead, body, _, _, hbody, stop, _, _, rfl, rfl, rfl⟩
    exact ⟨head, afterHead, body, stop, hhead, hbody, rfl⟩
  · rintro ⟨head, afterHead, body, stop, ⟨hlt, hhead⟩, ⟨hlt', hbody⟩, rfl⟩
    exact ⟨head, afterHead, hlt, ⟨hlt, hhead⟩, body, _, hlt', ⟨hlt', hbody⟩, stop, rest, by simp,
      rfl, rfl, rfl⟩

/-- A simple statement begins with a word. -/
theorem exists_word_of_parseSimple {statement : Statement}
    (hsimple : Yields (parseSimple eof tokens) statement rest) :
    ∃ word start others, tokens = ⟨.word word, start⟩ :: others := by
  rw [parseSimple.eq_def] at hsimple
  split at hsimple
  next word start others => exact ⟨word, start, others, rfl⟩
  next => exact absurd hsimple yields_error

theorem afterSemicolon?_eq_some {left : List Token} {hleft : left.length < tokens.length} :
    afterSemicolon? tokens = some ⟨left, hleft⟩ ↔
      ∃ place, tokens = ⟨.semicolon, place⟩ :: left := by
  unfold afterSemicolon?
  split
  next place others => simp
  next hnone =>
      constructor
      · nofun
      · rintro ⟨place, rfl⟩
        exact absurd rfl (hnone place left)

/-- The first statement of a sequence, and how the sequence goes on. -/
theorem yields_parseStatement {statement : Statement} :
    Yields (parseStatement eof tokens) statement rest ↔
      ∃ first afterFirst, Yields (parseSimple eof tokens) first afterFirst ∧
        (afterSemicolon? afterFirst = none ∧ first = statement ∧ afterFirst = rest ∨
          ∃ place others, afterFirst = ⟨.semicolon, place⟩ :: others ∧
            (atListEnd others = true ∧ first = statement ∧ others = rest ∨
              atListEnd others = false ∧ ∃ second,
                Yields (parseStatement eof others) second rest ∧
                first.andThen second = statement)) := by
  constructor
  · intro hstatement
    rw [parseStatement] at hstatement
    split at hstatement
    next => exact absurd hstatement yields_error
    next first afterFirst hfirst hsimple =>
        refine ⟨first, afterFirst, ⟨hfirst, hsimple⟩, ?_⟩
        split at hstatement
        next hnone => exact .inl ⟨hnone, yields_ok.mp hstatement⟩
        next others hothers hsome =>
            obtain ⟨place, rfl⟩ := afterSemicolon?_eq_some.mp hsome
            refine .inr ⟨place, others, rfl, ?_⟩
            split at hstatement
            next hend => exact .inl ⟨hend, yields_ok.mp hstatement⟩
            next hend =>
                refine .inr ⟨Bool.eq_false_iff.mpr hend, ?_⟩
                split at hstatement
                next => exact absurd hstatement yields_error
                next second remaining hsecond hrest =>
                    obtain ⟨htree, rfl⟩ := yields_ok.mp hstatement
                    exact ⟨second, ⟨hsecond, hrest⟩, htree⟩
  · rintro ⟨first, afterFirst, ⟨hfirst, hsimple⟩, hrest⟩
    rw [parseStatement, hsimple]
    rcases hrest with ⟨hnone, rfl, rfl⟩ | ⟨place, others, rfl, hrest⟩
    · simp only [hnone]
      exact yields_ok.mpr ⟨rfl, rfl⟩
    · simp only [afterSemicolon?]
      rcases hrest with ⟨hend, rfl, rfl⟩ | ⟨hend, second, ⟨hsecond, hothers⟩, rfl⟩
      · simp only [hend, if_true]
        exact yields_ok.mpr ⟨rfl, rfl⟩
      · simp only [hend, hothers]
        exact yields_ok.mpr ⟨rfl, rfl⟩

end

/-! ## Soundness -/

/-- A sequence ends in front of `rest`, with or without a semicolon of its own. -/
inductive Closes : List Token → List Token → Prop
  | plain {rest : List Token} (hrest : afterSemicolon? rest = none) : Closes [] rest
  | semicolon {rest : List Token} (place : Span) (hrest : atListEnd rest = true) :
      Closes [⟨.semicolon, place⟩] rest

theorem Closes.optionalSemicolon {trail rest : List Token} (hcloses : Closes trail rest) :
    OptionalSemicolon (trail.map Token.kind) := by
  cases hcloses with
  | plain => exact .absent
  | semicolon => exact .present

/-- In front of the end of a list, an optional semicolon belongs to the sequence. -/
theorem OptionalSemicolon.closes {trail rest : List Token}
    (htrail : OptionalSemicolon (trail.map Token.kind)) (hend : atListEnd rest = true) :
    Closes trail rest := by
  match trail, htrail with
  | [], _ =>
      refine .plain ?_
      cases rest with
      | nil => rfl
      | cons token others =>
          have hkind : token.kind = .word "end" := by
            simpa [atListEnd, TokenKind.spells] using hend
          obtain ⟨kind, place⟩ := token
          subst hkind
          rfl
  | [⟨.semicolon, place⟩], .present => exact .semicolon place hend

/-- Whether a list ends is decided by the first word of the phrase in front. -/
theorem atListEnd_append {phrase : Phrase} {front tokens : List Token} {statement : Statement}
    (hfront : Derives phrase (front.map Token.kind) statement) :
    atListEnd (front ++ tokens) = true ↔
      (front.map Token.kind).head? = some (.word "end") := by
  obtain ⟨word, others, hword⟩ := hfront.exists_word
  obtain ⟨token, rest, rfl, hkind, -⟩ := List.map_eq_cons_iff.mp hword
  simp [atListEnd, TokenKind.spells, hkind]

section

variable {eof : Span}

mutual

/-- The tokens that a simple statement is read from build it. -/
theorem builds_of_parseSimple {tokens rest : List Token} {statement : Statement}
    (hsimple : Yields (parseSimple eof tokens) statement rest) :
    ∃ front, tokens = front ++ rest ∧ Builds .simple front statement := by
  obtain ⟨word, start, others, rfl⟩ := exists_word_of_parseSimple hsimple
  by_cases hword : word ∈ leadingKeywords
  · simp only [leadingKeywords, List.mem_cons, List.not_mem_nil, or_false] at hword
    rcases hword with rfl | rfl | rfl | rfl
    · obtain ⟨kind, value, hvalue, rfl, rfl⟩ :=
        yields_parsePrint.mp (yields_parseSimple_print.mp hsimple)
      exact ⟨[_, _], rfl, .print start hvalue⟩
    · obtain ⟨name, place, equals, kind, value, hvalue, rfl, rfl⟩ :=
        yields_parseDeclare.mp (yields_parseSimple_declare.mp hsimple)
      exact ⟨[_, _, _, _], rfl, .declare start place equals hvalue⟩
    · obtain ⟨name, place, rfl, rfl⟩ :=
        yields_parseReadInt.mp (yields_parseSimple_readInt.mp hsimple)
      exact ⟨[_, _], rfl, .readInt name start place⟩
    · obtain ⟨head, afterHead, body, stop, hhead, hbody, rfl⟩ :=
        yields_parseSimple_forLoop.mp hsimple
      obtain ⟨low, high, place, equals, middle, last, hlower, hupper, rfl⟩ :=
        yields_parseLoopHead.mp hhead
      obtain ⟨front, trail, rfl, hfront, hcloses⟩ := builds_of_parseStatement hbody
      exact ⟨_, by simp, .forLoop start place equals middle last stop hlower hupper hfront
        hcloses.optionalSemicolon⟩
  · obtain ⟨equals, kind, value, hvalue, rfl, rfl⟩ :=
      yields_parseAssign.mp ((yields_parseSimple_assign hword).mp hsimple)
    exact ⟨[_, _, _], rfl, .assign start equals hword hvalue⟩
termination_by 2 * tokens.length

/-- The tokens that a sequence is read from build it, with an optional semicolon after
them. -/
theorem builds_of_parseStatement {tokens rest : List Token} {statement : Statement}
    (hstatement : Yields (parseStatement eof tokens) statement rest) :
    ∃ front trail, tokens = front ++ trail ++ rest ∧ Builds .sequence front statement ∧
      Closes trail rest := by
  obtain ⟨first, afterFirst, hfirst, hrest⟩ := yields_parseStatement.mp hstatement
  obtain ⟨front, rfl, hfront⟩ := builds_of_parseSimple hfirst
  rcases hrest with ⟨hnone, rfl, rfl⟩ | ⟨place, others, rfl, ⟨hend, rfl, rfl⟩ |
    ⟨hend, second, hsecond, rfl⟩⟩
  · exact ⟨front, [], by simp, .single hfront, .plain hnone⟩
  · exact ⟨front, [⟨.semicolon, place⟩], by simp, .single hfront, .semicolon place hend⟩
  · obtain ⟨front', trail, rfl, hfront', hcloses⟩ := builds_of_parseStatement hsecond
    refine ⟨front ++ ⟨.semicolon, place⟩ :: front', trail, by simp, ?_, hcloses⟩
    refine .andThen place hfront hfront' ?_
    rw [List.append_assoc] at hend
    exact fun hhead => Bool.eq_false_iff.mp hend ((atListEnd_append hfront'.derives).mpr hhead)
termination_by 2 * tokens.length + 1

end

end

/-! ## Completeness -/

theorem map_kind_eq_cons {tokens : List Token} {kind : TokenKind} {kinds : List TokenKind} :
    tokens.map Token.kind = kind :: kinds ↔
      ∃ place others, tokens = ⟨kind, place⟩ :: others ∧ others.map Token.kind = kinds := by
  constructor
  · intro hmap
    obtain ⟨token, others, rfl, rfl, hothers⟩ := List.map_eq_cons_iff.mp hmap
    exact ⟨token.span, others, rfl, hothers⟩
  · rintro ⟨place, others, rfl, rfl⟩
    rfl

/-- The expression that a token spells, at the place of the token. -/
theorem Denotes.exists_placed {kind : TokenKind} {value : Expression} (hvalue : Denotes kind value)
    (place : Span) :
    ∃ placed, Denotes kind placed ∧ placed.span = place ∧
      placed.withoutSpans = value.withoutSpans := by
  cases hvalue with
  | string text span => exact ⟨.string text place, .string text place, rfl, rfl⟩
  | integer n span => exact ⟨.integer n place, .integer n place, rfl, rfl⟩
  | word name span => exact ⟨.name name place, .word name place, rfl, rfl⟩

/-- Whatever tokens have the kinds of a derivation, a tree is built from them that is the
derived one up to its spans. -/
theorem Derives.exists_builds {phrase : Phrase} {kinds : List TokenKind} {statement : Statement}
    (hderives : Derives phrase kinds statement) {tokens : List Token}
    (htokens : tokens.map Token.kind = kinds) :
    ∃ built, Builds phrase tokens built ∧ built.withoutSpans = statement.withoutSpans := by
  induction hderives generalizing tokens with
  | print span hvalue =>
      simp only [map_kind_eq_cons, List.map_eq_nil_iff] at htokens
      obtain ⟨start, _, rfl, place, _, rfl, rfl⟩ := htokens
      obtain ⟨placed, hplaced, rfl, hsame⟩ := hvalue.exists_placed place
      exact ⟨_, .print start hplaced, by simp [hsame]⟩
  | declare span hvalue =>
      simp only [map_kind_eq_cons, List.map_eq_nil_iff] at htokens
      obtain ⟨start, _, rfl, named, _, rfl, equals, _, rfl, place, _, rfl, rfl⟩ := htokens
      obtain ⟨placed, hplaced, rfl, hsame⟩ := hvalue.exists_placed place
      exact ⟨_, .declare start named equals hplaced, by simp [hsame]⟩
  | readInt name span =>
      simp only [map_kind_eq_cons, List.map_eq_nil_iff] at htokens
      obtain ⟨start, _, rfl, place, _, rfl, rfl⟩ := htokens
      exact ⟨_, .readInt name start place, by simp⟩
  | forLoop span hlower hupper hbody htrail ih =>
      simp only [map_kind_eq_cons, List.map_eq_append_iff, List.map_eq_nil_iff] at htokens
      obtain ⟨start, _, rfl, named, _, rfl, equals, _, rfl, low, _, rfl, middle, _, rfl, high, _,
        rfl, last, _, rfl, _, _, rfl, ⟨inner, trail, rfl, hinner, rfl⟩, stop, _, rfl, rfl⟩ :=
        htokens
      obtain ⟨lower, hlower', rfl, hsameLower⟩ := hlower.exists_placed low
      obtain ⟨upper, hupper', rfl, hsameUpper⟩ := hupper.exists_placed high
      obtain ⟨body, hbody', hsameBody⟩ := ih hinner
      exact ⟨_, .forLoop start named equals middle last stop hlower' hupper' hbody' htrail,
        by simp [hsameLower, hsameUpper, hsameBody]⟩
  | assign span hname hvalue =>
      simp only [map_kind_eq_cons, List.map_eq_nil_iff] at htokens
      obtain ⟨start, _, rfl, equals, _, rfl, place, _, rfl, rfl⟩ := htokens
      obtain ⟨placed, hplaced, rfl, hsame⟩ := hvalue.exists_placed place
      exact ⟨_, .assign start equals hname hplaced, by simp [hsame]⟩
  | single hsimple ih =>
      obtain ⟨built, hbuilt, hsame⟩ := ih htokens
      exact ⟨built, .single hbuilt, hsame⟩
  | andThen span hfirst hsecond hend ihfirst ihsecond =>
      simp only [List.map_eq_append_iff, map_kind_eq_cons] at htokens
      obtain ⟨front, _, rfl, hfront, place, others, rfl, hothers⟩ := htokens
      obtain ⟨first, hfirst', hsameFirst⟩ := ihfirst hfront
      obtain ⟨second, hsecond', hsameSecond⟩ := ihsecond hothers
      rw [← hothers] at hend
      exact ⟨_, .andThen place hfirst' hsecond' hend,
        by simp [Statement.andThen, hsameFirst, hsameSecond]⟩

/-- The parser takes the tokens of a phrase off the front and returns the given tree.  A
sequence has to end in front of the tokens that are left. -/
def Phrase.Reads (eof : Span) : Phrase → List Token → Statement → Prop
  | simple, tokens, statement =>
      ∀ rest, Yields (parseSimple eof (tokens ++ rest)) statement rest
  | sequence, tokens, statement =>
      ∀ trail rest, Closes trail rest →
        Yields (parseStatement eof (tokens ++ (trail ++ rest))) statement rest

/-- The parser returns the tree that is built from its tokens. -/
theorem Builds.reads (eof : Span) {phrase : Phrase} {tokens : List Token} {statement : Statement}
    (hbuilds : Builds phrase tokens statement) : phrase.Reads eof tokens statement := by
  induction hbuilds with
  | print start hvalue =>
      intro rest
      exact yields_parseSimple_print.mpr (yields_parsePrint.mpr ⟨_, _, hvalue, rfl, rfl⟩)
  | declare start place equals hvalue =>
      intro rest
      exact yields_parseSimple_declare.mpr
        (yields_parseDeclare.mpr ⟨_, place, equals, _, _, hvalue, rfl, rfl⟩)
  | readInt name start place =>
      intro rest
      exact yields_parseSimple_readInt.mpr (yields_parseReadInt.mpr ⟨name, place, rfl, rfl⟩)
  | @forLoop index low high lower upper inner trail body start place equals middle last stop hlower
      hupper hbody htrail ih =>
      intro rest
      -- The word `end` closes the body, with a semicolon in front of it or without.
      have hcloses : Closes trail (⟨.word "end", stop⟩ :: rest) := htrail.closes rfl
      refine yields_parseSimple_forLoop.mpr ⟨⟨index, lower, upper⟩, _, body, stop,
        yields_parseLoopHead.mpr ⟨low, high, place, equals, middle, last, hlower, hupper, ?_⟩,
        ih trail _ hcloses, rfl⟩
      simp
  | assign start equals hname hvalue =>
      intro rest
      exact (yields_parseSimple_assign hname).mpr
        (yields_parseAssign.mpr ⟨equals, _, _, hvalue, rfl, rfl⟩)
  | @single tokens statement hsimple ih =>
      intro trail rest hcloses
      refine yields_parseStatement.mpr ⟨statement, trail ++ rest, ih _, ?_⟩
      cases hcloses with
      | plain hnone => exact .inl ⟨hnone, rfl, rfl⟩
      | semicolon place hend => exact .inr ⟨place, rest, rfl, .inl ⟨hend, rfl, rfl⟩⟩
  | @andThen tokens others first second place hfirst hsecond hend ihfirst ihsecond =>
      intro trail rest hcloses
      have hgoes : atListEnd (others ++ (trail ++ rest)) = false :=
        Bool.eq_false_iff.mpr fun hlist => hend ((atListEnd_append hsecond.derives).mp hlist)
      rw [List.append_assoc]
      exact yields_parseStatement.mpr ⟨first, _, ihfirst _, .inr ⟨place, _, rfl, .inr ⟨hgoes,
        second, ihsecond trail rest hcloses, rfl⟩⟩⟩

/-- The parser takes the tokens of a phrase off the front and builds the tree of it.  A
sequence has to end in front of the tokens that are left. -/
def Phrase.Accepts (eof : Span) : Phrase → List TokenKind → Statement → Prop
  | simple, kinds, statement =>
      ∀ front rest, front.map Token.kind = kinds →
        ∃ built, Yields (parseSimple eof (front ++ rest)) built rest ∧
          built.withoutSpans = statement.withoutSpans
  | sequence, kinds, statement =>
      ∀ front trail rest, front.map Token.kind = kinds → Closes trail rest →
        ∃ built, Yields (parseStatement eof (front ++ (trail ++ rest))) built rest ∧
          built.withoutSpans = statement.withoutSpans

theorem Derives.accepted (eof : Span) {phrase : Phrase} {kinds : List TokenKind}
    {statement : Statement} (hderives : Derives phrase kinds statement) :
    phrase.Accepts eof kinds statement := by
  cases phrase with
  | simple =>
      intro front rest hfront
      obtain ⟨built, hbuilt, hsame⟩ := hderives.exists_builds hfront
      exact ⟨built, hbuilt.reads eof rest, hsame⟩
  | sequence =>
      intro front trail rest hfront hcloses
      obtain ⟨built, hbuilt, hsame⟩ := hderives.exists_builds hfront
      exact ⟨built, hbuilt.reads eof trail rest hcloses, hsame⟩

/-! ## Whole programs -/

/-- Tokens before an end-of-text token are in the stream. -/
theorem TokenStream.tokens_cut_append {tokens : List Token}
    (heof : ∀ token ∈ tokens, token.kind ≠ .eof) (rest : List Token) (last : Nat) :
    ∃ place, (TokenStream.cut last (tokens ++ rest)).tokens =
      tokens ++ (TokenStream.cut place rest).tokens := by
  induction tokens generalizing last with
  | nil => exact ⟨last, rfl⟩
  | cons token others ih =>
      obtain ⟨htoken, hothers⟩ := List.forall_mem_cons.mp heof
      obtain ⟨place, hcut⟩ := ih hothers token.span.stop
      refine ⟨place, ?_⟩
      simp only [List.cons_append, cut, if_neg htoken]
      rw [hcut]

/-- Without an end-of-text token, the stream of a list has all its tokens. -/
theorem TokenStream.tokens_cut {tokens : List Token}
    (heof : ∀ token ∈ tokens, token.kind ≠ .eof) (last : Nat) :
    (TokenStream.cut last tokens).tokens = tokens := by
  obtain ⟨place, hcut⟩ := tokens_cut_append heof [] last
  simpa [cut] using hcut

/-- A program is a sequence after which no token is left. -/
theorem Statement.ofStream_eq_ok {stream : TokenStream} {program : Statement} :
    Statement.ofStream stream = .ok program ↔
      Yields (parseStatement stream.eof stream.tokens) program [] := by
  unfold Statement.ofStream
  constructor
  · intro hparse
    split at hparse
    next => cases hparse
    next found hlt hfound =>
        cases hparse
        exact ⟨hlt, hfound⟩
    next => cases hparse
  · rintro ⟨hlt, hfound⟩
    simp only [hfound]

theorem Statement.ofStream_spells {stream : TokenStream} {program : Statement}
    (hparse : Statement.ofStream stream = .ok program) :
    Spells (stream.tokens.map Token.kind) program := by
  obtain ⟨front, trail, htokens, hfront, hcloses⟩ :=
    builds_of_parseStatement (Statement.ofStream_eq_ok.mp hparse)
  refine ⟨_, _, hfront.derives, hcloses.optionalSemicolon, ?_⟩
  rw [htokens, List.append_nil, List.map_append]

theorem Spells.exists_ofStream {stream : TokenStream} {program : Statement}
    (hspells : Spells (stream.tokens.map Token.kind) program) :
    ∃ built, Statement.ofStream stream = .ok built ∧
      built.withoutSpans = program.withoutSpans := by
  obtain ⟨body, trail, hbody, htrail, hkinds⟩ := hspells
  obtain ⟨front, last, htokens, rfl, rfl⟩ := List.map_eq_append_iff.mp hkinds
  obtain ⟨built, hbuilt, hsame⟩ :=
    hbody.accepted stream.eof front last [] rfl (htrail.closes rfl)
  rw [List.append_nil, ← htokens] at hbuilt
  exact ⟨built, Statement.ofStream_eq_ok.mpr hbuilt, hsame⟩

/-- The parser accepts exactly the grammar and builds the tree of it.  For tokens
without an end-of-text token, the parser returns a tree, up to spans, if and only if
the tokens spell it; and the tokens spell one tree at most, up to spans. -/
theorem Statement.ofTokens_iff_spells {tokens : List Token}
    (heof : ∀ token ∈ tokens, token.kind ≠ .eof) (tree : Statement) :
    ((∃ program, Statement.ofTokens tokens = .ok program ∧
        program.withoutSpans = tree.withoutSpans) ↔ Spells (tokens.map Token.kind) tree) ∧
      ∀ other, Spells (tokens.map Token.kind) tree → Spells (tokens.map Token.kind) other →
        other.withoutSpans = tree.withoutSpans := by
  have hkinds : tokens.map Token.kind = (TokenStream.ofList tokens).tokens.map Token.kind :=
    congrArg (List.map Token.kind) (TokenStream.tokens_cut heof 0).symm
  rw [hkinds]
  refine ⟨⟨?_, fun hspells => hspells.exists_ofStream⟩, ?_⟩
  · rintro ⟨program, hparse, hsame⟩
    exact (Statement.ofStream_spells hparse).of_withoutSpans hsame.symm
  · intro other htree hother
    obtain ⟨built, hbuilt, hsame⟩ := htree.exists_ofStream
    obtain ⟨built', hbuilt', hsame'⟩ := hother.exists_ofStream
    rw [hbuilt] at hbuilt'
    cases hbuilt'
    rw [← hsame, hsame']

/-- The tokens of `for end = to to do do end = print; to = end; end;`, a loop in which
keywords are names. -/
def Token.keywordNames : List Token :=
  [⟨.word "for", ⟨0, 3⟩⟩, ⟨.word "end", ⟨4, 7⟩⟩, ⟨.equals, ⟨8, 9⟩⟩, ⟨.word "to", ⟨10, 12⟩⟩,
    ⟨.word "to", ⟨13, 15⟩⟩, ⟨.word "do", ⟨16, 18⟩⟩, ⟨.word "do", ⟨19, 21⟩⟩,
    ⟨.word "end", ⟨22, 25⟩⟩, ⟨.equals, ⟨26, 27⟩⟩, ⟨.word "print", ⟨28, 33⟩⟩,
    ⟨.semicolon, ⟨33, 34⟩⟩, ⟨.word "to", ⟨35, 37⟩⟩, ⟨.equals, ⟨38, 39⟩⟩,
    ⟨.word "end", ⟨40, 43⟩⟩, ⟨.semicolon, ⟨43, 44⟩⟩, ⟨.word "end", ⟨45, 48⟩⟩,
    ⟨.semicolon, ⟨48, 49⟩⟩]

/-- The tree of that loop. -/
def Statement.keywordNames : Statement :=
  .forLoop "end" (.name "to" (.empty 0)) (.name "do" (.empty 0))
    (.sequence (.assign "end" (.name "print" (.empty 0)) (.empty 0))
      (.assign "to" (.name "end" (.empty 0)) (.empty 0)) (.empty 0)) (.empty 0)

theorem Statement.keywordNames_ofTokens_iff_spells :
    (∀ token ∈ Token.keywordNames, token.kind ≠ .eof) ∧
      Spells (Token.keywordNames.map Token.kind) Statement.keywordNames ∧
      ∃ program, Statement.ofTokens Token.keywordNames = .ok program ∧
        program.withoutSpans = Statement.keywordNames := by
  have heof : ∀ token ∈ Token.keywordNames, token.kind ≠ .eof := by decide
  have hbody : Derives .sequence
      [.word "end", .equals, .word "print", .semicolon, .word "to", .equals, .word "end"]
      (.sequence (.assign "end" (.name "print" (.empty 0)) (.empty 0))
        (.assign "to" (.name "end" (.empty 0)) (.empty 0)) (.empty 0)) :=
    .andThen _ (.assign _ (by decide) (.word "print" _))
      (.single (.assign _ (by decide) (.word "end" _))) (by decide)
  have hspells : Spells (Token.keywordNames.map Token.kind) Statement.keywordNames :=
    ⟨_, _, .single (.forLoop _ (.word "to" _) (.word "do" _) hbody .present), .present, rfl⟩
  exact ⟨heof, hspells, (Statement.ofTokens_iff_spells heof Statement.keywordNames).1.mpr hspells⟩

end SlotLang
