import SlotLang.Proofs.NodeSources
import SlotLang.Proofs.Relabeling

/-!
# The layout of program text

How a text is laid out decides where its tokens stand, and nothing else.  The parser looks
at the kinds of tokens and puts spans together from theirs without looking at them, so
tokens at other places are read in step with the first ones: as the same tree or with the
same error, at those other places.  With every place forgotten, what a text compiles to is
a function of the kinds of its tokens.

* `Moves` — one reading goes as another one does, at other places.
* `moves_parseSimple`, `moves_parseStatement` — the parser in step with itself.
* `CompileError.withoutSpans` — an error up to its span.
* `compile_eq_of_kinds` — two layouts of the same tokens compile alike.
-/

namespace SlotLang

/-! ## Readings in step -/

/-- The second reading goes as the first one does: it has the same result with its spans
replaced and the same tokens left over, or the same error at the replaced span. -/
inductive Moves {α : Type} {tokens others : List Token} (f : Span → Span) (move : α → α) :
    Except ParseError (Parsed α tokens) → Except ParseError (Parsed α others) → Prop
  | ok (a : α) (left : List Token) (hleft : left.length < tokens.length)
      (hleft' : (left.map (Token.mapSpan f)).length < others.length) :
      Moves f move (.ok ⟨(a, left), hleft⟩)
        (.ok ⟨(move a, left.map (Token.mapSpan f)), hleft'⟩)
  | error (error : ParseError) : Moves f move (.error error) (.error (error.mapSpan f))

namespace Moves

variable {α β : Type} {f : Span → Span} {move : α → α} {move' : β → β}
  {tokens others before before' : List Token}

theorem pure {a a' : α} {left : List Token} {hleft : left.length < tokens.length}
    {hleft' : (left.map (Token.mapSpan f)).length < others.length} (ha : move a = a') :
    Moves f move (.ok ⟨(a, left), hleft⟩ : Except ParseError (Parsed α tokens))
      (.ok ⟨(a', left.map (Token.mapSpan f)), hleft'⟩) := by
  subst ha
  exact .ok a left hleft hleft'

/-- Two readings in a row. -/
theorem bind {first : Except ParseError (Parsed α before)}
    {first' : Except ParseError (Parsed α before')}
    {next : Parsed α before → Except ParseError (Parsed β tokens)}
    {next' : Parsed α before' → Except ParseError (Parsed β others)}
    (hfirst : Moves f move first first')
    (hnext : ∀ (a : α) (left : List Token) (hleft : left.length < before.length)
      (hleft' : (left.map (Token.mapSpan f)).length < before'.length),
      Moves f move' (next ⟨(a, left), hleft⟩)
        (next' ⟨(move a, left.map (Token.mapSpan f)), hleft'⟩)) :
    Moves f move' (first >>= next) (first' >>= next') := by
  cases hfirst with
  | ok a left hleft hleft' => exact hnext a left hleft hleft'
  | error error => exact .error error

/-- A reading with one more token in front of it. -/
theorem map {token token' : Token} {result : Except ParseError (Parsed α before)}
    {result' : Except ParseError (Parsed α before')} (hresult : Moves f move result result') :
    Moves f move
      (result.map fun found =>
        (⟨found.1, Nat.lt_succ_of_lt found.2⟩ : Parsed α (token :: before)))
      (result'.map fun found =>
        (⟨found.1, Nat.lt_succ_of_lt found.2⟩ : Parsed α (token' :: before'))) := by
  cases hresult with
  | ok a left hleft hleft' => exact .ok a left _ (Nat.lt_succ_of_lt hleft')
  | error error => exact .error error

end Moves

section

variable (f : Span → Span) (eof : Span) (tokens : List Token)

theorem moves_parseToken (kind : TokenKind) (expected : Expectation) :
    Moves f f (parseToken eof kind expected tokens)
      (parseToken (f eof) kind expected (tokens.map (Token.mapSpan f))) := by
  cases tokens with
  | nil => exact .error _
  | cons token rest =>
      by_cases hkind : token.kind = kind
      · have hread : parseToken eof kind expected (token :: rest) =
            .ok ⟨(token.span, rest), Nat.lt_succ_self _⟩ := if_pos hkind
        have hread' : parseToken (f eof) kind expected ((token :: rest).map (Token.mapSpan f)) =
            .ok ⟨(f token.span, rest.map (Token.mapSpan f)), Nat.lt_succ_self _⟩ := if_pos hkind
        rw [hread, hread']
        exact .ok token.span rest _ _
      · have hread : parseToken eof kind expected (token :: rest) =
            .error (parseErrorAt eof expected (token :: rest)) := if_neg hkind
        have hread' : parseToken (f eof) kind expected ((token :: rest).map (Token.mapSpan f)) =
            .error ((parseErrorAt eof expected (token :: rest)).mapSpan f) := if_neg hkind
        rw [hread, hread']
        exact .error _

theorem moves_parseName (expected : Expectation) :
    Moves f (Prod.map id f) (parseName eof expected tokens)
      (parseName (f eof) expected (tokens.map (Token.mapSpan f))) := by
  cases tokens with
  | nil => exact .error _
  | cons token rest =>
      obtain ⟨kind, span⟩ := token
      cases kind with
      | word name => exact .ok (name, span) rest _ (Nat.lt_succ_self _)
      | _ => exact .error _

theorem moves_parseExpression :
    Moves f (Expression.mapSpans f) (parseExpression eof tokens)
      (parseExpression (f eof) (tokens.map (Token.mapSpan f))) := by
  cases tokens with
  | nil => exact .error _
  | cons token rest =>
      obtain ⟨kind, span⟩ := token
      cases kind with
      | string text => exact .ok (Expression.string text span) rest _ (Nat.lt_succ_self _)
      | integer value => exact .ok (Expression.integer value span) rest _ (Nat.lt_succ_self _)
      | word name => exact .ok (Expression.name name span) rest _ (Nat.lt_succ_self _)
      | _ => exact .error _

/-- The part of a loop before its body, with its spans replaced. -/
def LoopHead.mapSpans (head : LoopHead) : LoopHead where
  index := head.index
  lower := head.lower.mapSpans f
  upper := head.upper.mapSpans f

theorem moves_parseLoopHead :
    Moves f (LoopHead.mapSpans f) (parseLoopHead eof tokens)
      (parseLoopHead (f eof) (tokens.map (Token.mapSpan f))) :=
  (moves_parseName f eof tokens _).bind fun _ _ _ _ =>
    (moves_parseToken f eof _ _ _).bind fun _ _ _ _ =>
      (moves_parseExpression f eof _).bind fun _ _ _ _ =>
        (moves_parseToken f eof _ _ _).bind fun _ _ _ _ =>
          (moves_parseExpression f eof _).bind fun _ _ _ _ =>
            (moves_parseToken f eof _ _ _).bind fun _ _ _ _ => .pure rfl

variable (hf : ∀ a b : Span, f (a.hull b) = (f a).hull (f b)) (start : Span)

include hf

/-- The span from a keyword to an expression moves with both. -/
theorem hull_span_mapSpans (value : Expression) :
    f (start.hull value.span) = (f start).hull (value.mapSpans f).span := by
  rw [hf, Expression.span_mapSpans]

theorem moves_parsePrint :
    Moves f (Statement.mapSpans f) (parsePrint eof start tokens)
      (parsePrint (f eof) (f start) (tokens.map (Token.mapSpan f))) := by
  refine (moves_parseExpression f eof tokens).bind fun value _ _ _ => .pure ?_
  rw [Statement.mapSpans, hull_span_mapSpans f hf]

theorem moves_parseDeclare :
    Moves f (Statement.mapSpans f) (parseDeclare eof start tokens)
      (parseDeclare (f eof) (f start) (tokens.map (Token.mapSpan f))) := by
  refine (moves_parseName f eof tokens _).bind fun _ _ _ _ =>
    (moves_parseToken f eof _ _ _).bind fun _ _ _ _ =>
      (moves_parseExpression f eof _).bind fun value _ _ _ => .pure ?_
  rw [Statement.mapSpans, hull_span_mapSpans f hf]
  rfl

theorem moves_parseReadInt :
    Moves f (Statement.mapSpans f) (parseReadInt eof start tokens)
      (parseReadInt (f eof) (f start) (tokens.map (Token.mapSpan f))) := by
  refine (moves_parseName f eof tokens _).bind fun _ _ _ _ => .pure ?_
  rw [Statement.mapSpans, hf]
  rfl

theorem moves_parseAssign (name : String) :
    Moves f (Statement.mapSpans f) (parseAssign eof start name tokens)
      (parseAssign (f eof) (f start) name (tokens.map (Token.mapSpan f))) := by
  refine (moves_parseToken f eof tokens _ _).bind fun _ _ _ _ =>
    (moves_parseExpression f eof _).bind fun value _ _ _ => .pure ?_
  rw [Statement.mapSpans, hull_span_mapSpans f hf]

end

/-! ## The parser in step -/

section

variable {f : Span → Span}

theorem atListEnd_mapSpan (tokens : List Token) :
    atListEnd (tokens.map (Token.mapSpan f)) = atListEnd tokens := by
  cases tokens <;> rfl

theorem Statement.andThen_mapSpans (hf : ∀ a b : Span, f (a.hull b) = (f a).hull (f b))
    (first second : Statement) :
    (first.andThen second).mapSpans f = (first.mapSpans f).andThen (second.mapSpans f) := by
  rw [andThen, andThen, span_mapSpans, span_mapSpans, mapSpans, hf]

/-- A statement, and what follows its semicolon. -/
theorem parseStatement_semicolon {eof place : Span} {tokens others : List Token}
    {first : Statement} {hfirst : (⟨.semicolon, place⟩ :: others).length < tokens.length}
    (hsimple : parseSimple eof tokens = .ok ⟨(first, ⟨.semicolon, place⟩ :: others), hfirst⟩) :
    parseStatement eof tokens =
      if atListEnd others then .ok ⟨(first, others), Nat.lt_of_succ_lt hfirst⟩
      else (parseStatement eof others).map fun found =>
        ⟨(first.andThen found.1.1, found.1.2),
          Nat.lt_trans found.2 (Nat.lt_of_succ_lt hfirst)⟩ := by
  rw [parseStatement, hsimple]
  simp only [afterSemicolon?]
  split
  next => rfl
  next => cases parseStatement eof others <;> rfl

/-- One more statement in front of a sequence. -/
theorem Moves.andThen (hf : ∀ a b : Span, f (a.hull b) = (f a).hull (f b)) (first : Statement)
    {tokens others before before' : List Token}
    {result : Except ParseError (Parsed Statement before)}
    {result' : Except ParseError (Parsed Statement before')}
    (hresult : Moves f (Statement.mapSpans f) result result')
    (hlt : before.length < tokens.length) (hlt' : before'.length < others.length) :
    Moves f (Statement.mapSpans f)
      (result.map fun found =>
        (⟨(first.andThen found.1.1, found.1.2), Nat.lt_trans found.2 hlt⟩ :
          Parsed Statement tokens))
      (result'.map fun found =>
        (⟨((first.mapSpans f).andThen found.1.1, found.1.2), Nat.lt_trans found.2 hlt'⟩ :
          Parsed Statement others)) := by
  cases hresult with
  | ok second left hleft hleft' => exact .pure (Statement.andThen_mapSpans hf first second)
  | error error => exact .error error

mutual

/-- A simple statement is read in step with the same tokens at other places. -/
theorem moves_parseSimple (hf : ∀ a b : Span, f (a.hull b) = (f a).hull (f b)) (eof : Span)
    (tokens : List Token) :
    Moves f (Statement.mapSpans f) (parseSimple eof tokens)
      (parseSimple (f eof) (tokens.map (Token.mapSpan f))) := by
  cases tokens with
  | nil =>
      rw [parseSimple.eq_def, parseSimple.eq_def]
      exact .error _
  | cons token rest =>
      obtain ⟨kind, start⟩ := token
      cases kind with
      | word word =>
          have hword : Token.mapSpan f ⟨.word word, start⟩ = ⟨.word word, f start⟩ := rfl
          rw [List.map_cons, hword, parseSimple_word, parseSimple_word]
          by_cases hprint : word = "print"
          · rw [if_pos hprint, if_pos hprint]
            exact (moves_parsePrint f eof rest hf start).map
          rw [if_neg hprint, if_neg hprint]
          by_cases hvar : word = "var"
          · rw [if_pos hvar, if_pos hvar]
            exact (moves_parseDeclare f eof rest hf start).map
          rw [if_neg hvar, if_neg hvar]
          by_cases hread : word = "read_int"
          · rw [if_pos hread, if_pos hread]
            exact (moves_parseReadInt f eof rest hf start).map
          rw [if_neg hread, if_neg hread]
          by_cases hfor : word = "for"
          · rw [if_pos hfor, if_pos hfor]
            refine (moves_parseLoopHead f eof rest).bind fun head afterHead hhead _ =>
              (moves_parseStatement hf eof afterHead).bind fun body afterBody _ _ =>
                (moves_parseToken f eof afterBody _ _).bind fun stop _ _ _ => .pure ?_
            rw [Statement.mapSpans, hf]
            rfl
          · rw [if_neg hfor, if_neg hfor]
            exact (moves_parseAssign f eof rest hf start word).map
      | _ =>
          rw [parseSimple.eq_def, parseSimple.eq_def]
          exact .error _
termination_by 2 * tokens.length

/-- A sequence is read in step with the same tokens at other places. -/
theorem moves_parseStatement (hf : ∀ a b : Span, f (a.hull b) = (f a).hull (f b)) (eof : Span)
    (tokens : List Token) :
    Moves f (Statement.mapSpans f) (parseStatement eof tokens)
      (parseStatement (f eof) (tokens.map (Token.mapSpan f))) := by
  have hsimple := moves_parseSimple hf eof tokens
  generalize hread : parseSimple eof tokens = result at hsimple
  generalize hread' : parseSimple (f eof) (tokens.map (Token.mapSpan f)) = result' at hsimple
  cases hsimple with
  | error error =>
      rw [parseStatement, hread, parseStatement, hread']
      exact .error error
  | ok first afterFirst hfirst hfirst' =>
      cases afterFirst with
      | nil =>
          rw [parseStatement, hread, parseStatement, hread']
          exact .ok first [] _ _
      | cons token others =>
          obtain ⟨kind, place⟩ := token
          cases kind with
          | semicolon =>
              -- Whether the list goes on after a semicolon is seen from the next kind alone.
              have hlt : others.length < tokens.length := Nat.lt_of_succ_lt hfirst
              have hnext' : parseSimple (f eof) (tokens.map (Token.mapSpan f)) =
                  .ok ⟨(first.mapSpans f, ⟨.semicolon, f place⟩ :: others.map (Token.mapSpan f)),
                    hfirst'⟩ := hread'
              rw [parseStatement_semicolon hread, parseStatement_semicolon hnext',
                atListEnd_mapSpan]
              by_cases hend : atListEnd others = true
              · rw [if_pos hend, if_pos hend]
                exact .ok first others _ _
              · rw [if_neg hend, if_neg hend]
                exact .andThen hf first (moves_parseStatement hf eof others) hlt
                  (Nat.lt_of_succ_lt hfirst')
          | _ =>
              rw [parseStatement, hread, parseStatement, hread']
              exact .ok first _ _ hfirst'
termination_by 2 * tokens.length + 1

end

end

/-- A program is read in step with the same tokens at other places. -/
theorem Statement.ofStream_mapSpan {f : Span → Span}
    (hf : ∀ a b : Span, f (a.hull b) = (f a).hull (f b)) (stream : TokenStream) :
    Statement.ofStream ⟨stream.tokens.map (Token.mapSpan f), f stream.eof⟩ =
      ((Statement.ofStream stream).map (Statement.mapSpans f)).mapError (ParseError.mapSpan f) := by
  have hmoves := moves_parseStatement hf stream.eof stream.tokens
  unfold ofStream
  generalize parseStatement stream.eof stream.tokens = result at hmoves ⊢
  generalize parseStatement (f stream.eof) (stream.tokens.map (Token.mapSpan f)) = result'
    at hmoves ⊢
  cases hmoves with
  | error error => rfl
  | ok program left hleft hleft' => cases left <;> rfl

/-! ## Text with its places forgotten -/

/-- The token without its place. -/
def Token.withoutSpan (token : Token) : Token :=
  token.mapSpan fun _ => .empty 0

/-- The error without its place. -/
def CompileError.withoutSpans (error : CompileError) : CompileError :=
  error.relabel id fun _ => .empty 0

/-- Only the kinds of tokens are left if their places are forgotten. -/
theorem map_withoutSpan_eq {tokens others : List Token}
    (hkinds : tokens.map Token.kind = others.map Token.kind) :
    tokens.map Token.withoutSpan = others.map Token.withoutSpan := by
  have hform : Token.withoutSpan = (fun kind => ⟨kind, .empty 0⟩) ∘ Token.kind := rfl
  rw [hform, ← List.map_map, hkinds, List.map_map]

theorem TokenStream.cut_withoutSpan (last : Nat) (tokens : List Token) :
    cut 0 (tokens.map Token.withoutSpan) =
      ⟨(cut last tokens).tokens.map Token.withoutSpan, .empty 0⟩ := by
  induction tokens generalizing last with
  | nil => rfl
  | cons token rest ih =>
      have hkind : token.withoutSpan.kind = token.kind := rfl
      rw [List.map_cons, cut, cut, hkind]
      by_cases heof : token.kind = .eof
      · rw [if_pos heof, if_pos heof]
        rfl
      · rw [if_neg heof, if_neg heof]
        simp only [show token.withoutSpan.span.stop = 0 from rfl, ih token.span.stop]
        rfl

/-- What tokens are read as, with every place forgotten, depends on the tokens without their
places. -/
theorem Statement.ofTokens_withoutSpan (tokens : List Token) :
    Statement.ofTokens (tokens.map Token.withoutSpan) =
      ((Statement.ofTokens tokens).map Statement.withoutSpans).mapError
        (ParseError.mapSpan fun _ => .empty 0) := by
  rw [ofTokens, TokenStream.ofList, TokenStream.cut_withoutSpan 0 tokens]
  exact ofStream_mapSpan (f := fun _ => .empty 0) (fun _ _ => rfl) (.cut 0 tokens)

theorem Expression.relabel_id (spans : Span → Span) (value : Expression) :
    value.relabel id spans = value.mapSpans spans := by
  induction value with
  | string text span => rfl
  | integer n span => rfl
  | name name span => rfl
  | binary operator left right span ihleft ihright =>
      rw [relabel, mapSpans, ihleft, ihright]

theorem Statement.relabel_id (spans : Span → Span) (statement : Statement) :
    statement.relabel id spans = statement.mapSpans spans := by
  induction statement with
  | sequence first second span ihfirst ihsecond => rw [relabel, mapSpans, ihfirst, ihsecond]
  | declare name value span => rw [relabel, mapSpans, Expression.relabel_id]; rfl
  | assign name value span => rw [relabel, mapSpans, Expression.relabel_id]; rfl
  | print value span => rw [relabel, mapSpans, Expression.relabel_id]
  | readInt name span => rfl
  | forLoop index lower upper body span ih =>
      rw [relabel, mapSpans, Expression.relabel_id, Expression.relabel_id, ih]
      rfl

/-- What a text compiles to, with every place forgotten, depends on its tokens without their
places. -/
theorem compile_withoutSpans {source : String} {tokens : List Token}
    (hscan : Token.scan source = .ok tokens) (name : String) :
    (compile source name).mapError CompileError.withoutSpans =
      (Statement.ofTokens (tokens.map Token.withoutSpan)).mapError CompileError.parse >>=
        fun program => program.compile name := by
  unfold compile Statement.ofSource
  rw [hscan, Statement.ofTokens_withoutSpan]
  cases hparse : Statement.ofTokens tokens with
  | error error =>
      simp only [mapError_ok, mapError_error, bind, Except.bind, hparse, Except.map]
      rfl
  | ok program =>
      have hcompile := program.compile_relabel Function.injective_id (fun _ => .empty 0) name
      rw [Statement.relabel_id] at hcompile
      simp only [mapError_ok, bind, Except.bind, hparse, Except.map]
      exact hcompile.symm

/-- Layout does not matter.  Two texts with the same kinds of tokens, wherever these stand,
compile to the same module, or fail with the same error at two places. -/
theorem compile_eq_of_kinds {source other : String} {tokens others : List Token}
    (hsource : Token.scan source = .ok tokens) (hother : Token.scan other = .ok others)
    (hkinds : tokens.map Token.kind = others.map Token.kind) (name : String) :
    (∃ m, compile source name = .ok m ∧ compile other name = .ok m) ∨
      ∃ error error', compile source name = .error error ∧ compile other name = .error error' ∧
        error.withoutSpans = error'.withoutSpans := by
  have hsame := compile_withoutSpans hsource name
  rw [map_withoutSpan_eq hkinds, ← compile_withoutSpans hother name] at hsame
  cases hcompile : compile source name with
  | ok m =>
      rw [hcompile] at hsame
      exact .inl ⟨m, rfl, mapError_eq_ok.mp hsame.symm⟩
  | error error =>
      rw [hcompile] at hsame
      obtain ⟨error', herror', hplaces⟩ := mapError_eq_error.mp hsame.symm
      exact .inr ⟨error, error', rfl, herror', hplaces.symm⟩

/-- A loop on one line, around a name that is not declared. -/
def denseSource : String := "for é=0 to 2 do print x;end"

/-- The same tokens with blanks of one to three bytes between them. -/
def wideSource : String := "\tfor é\u3000=\n0 to 2\r\ndo  print x\u2003; end\n"

/-- Both texts fail at the name, which stands at byte 23 of the first and at byte 30 of the
second. -/
theorem wideSource_compile_eq :
    ∃ tokens others, Token.scan denseSource = .ok tokens ∧ Token.scan wideSource = .ok others ∧
      tokens.map Token.kind = others.map Token.kind ∧
      compile denseSource "test" = .error (.lowering (.undeclared "x" ⟨23, 24⟩)) ∧
      ∃ error, compile wideSource "test" = .error error ∧
        error.withoutSpans = .lowering (.undeclared "x" (.empty 0)) := by
  obtain ⟨tokens, htokens⟩ : ∃ tokens, Token.scan denseSource = .ok tokens :=
    exists_eq_ok_of_toOption (by decide +kernel)
  obtain ⟨others, hothers⟩ : ∃ others, Token.scan wideSource = .ok others :=
    exists_eq_ok_of_toOption (by decide +kernel)
  have hkinds : (Token.scan denseSource).toOption.map (List.map Token.kind) =
      (Token.scan wideSource).toOption.map (List.map Token.kind) := by decide +kernel
  rw [htokens, hothers] at hkinds
  have herror : compile denseSource "test" =
      .error (.lowering (.undeclared "x" ⟨23, 24⟩)) := by decide +kernel
  have hkinds := Option.some.inj hkinds
  refine ⟨tokens, others, htokens, hothers, hkinds, herror, ?_⟩
  rcases compile_eq_of_kinds htokens hothers hkinds "test" with
    ⟨m, hm, -⟩ | ⟨error, error', hdense, hwide, hplaces⟩
  · rw [herror] at hm
    cases hm
  · rw [herror] at hdense
    cases hdense
    exact ⟨error', hwide, hplaces.symm⟩

end SlotLang
