import SlotLang.Proofs.CursorParser
import SlotLang.Proofs.ParsedPrograms

/-!
# The parser reads up to the first end of the text

A reading through a cursor moves the cursor on in several places without asking whether the
text ends there.  That it stays inside of the array all the same rests on one invariant: the
cursor stands at most at the first end-of-text token, since whatever is passed is a token of
another kind.  With the invariant a reading follows the parser step by step: the tokens that
the parser has left over are those from the cursor on.

What is proved of a run holds on every array that begins with the same tokens and the same end
of the text, and the run is the same on all of them, down to the indices that it uses.

* `CursorState.Within` — the invariant.
* `Cursor.Runs` — the run of a reading on all arrays that begin with a stream.
* `Cursor.Moves` — readings that pass a fixed number of tokens.
* `Cursor.Follows` — readings that do what a step of the parser does.
* `Cursor.follows_statement` — the cursor reads statements as the parser does.
* `Cursor.program_refines` — more fuel keeps every run.
* `Statement.ofTokens_reads_to_eof` — the result and the indices for any list of tokens.
-/

namespace SlotLang

/-! ## Arrays that begin with a stream -/

/-- The array begins with the tokens of the stream, and an end-of-text token with the span of
its end follows them. -/
def TokenStream.Opens (stream : TokenStream) (tokens : Array Token) : Prop :=
  ∃ after, tokens.toList = stream.tokens ++ ⟨.eof, stream.eof⟩ :: after

/-- The invariant of a reading.  The first end of the text is that of the stream, the cursor
stands at most there, and no index beyond was used. -/
structure CursorState.Within (state : CursorState) (stream : TokenStream) : Prop where
  kind_ne_eof : ∀ token ∈ stream.tokens, token.kind ≠ .eof
  position_le : state.position ≤ stream.tokens.length
  used_le : ∀ index ∈ state.used, index ≤ stream.tokens.length

/-- The tokens of the stream from the cursor on. -/
def TokenStream.ahead (stream : TokenStream) (state : CursorState) : List Token :=
  stream.tokens.drop state.position

/-- The token of the stream before the cursor has the given span. -/
def TokenStream.EndsBefore (stream : TokenStream) (state : CursorState) (span : Span) : Prop :=
  stream.tokens[state.position - 1]?.map Token.span = some span

section

variable {stream : TokenStream} {tokens : Array Token} {state middle : CursorState}

theorem TokenStream.Opens.getElem?_of_lt (hopens : stream.Opens tokens) {index : Nat}
    (hlt : index < stream.tokens.length) : tokens[index]? = stream.tokens[index]? := by
  obtain ⟨after, hafter⟩ := hopens
  rw [← Array.getElem?_toList, hafter, List.getElem?_append_left hlt]

theorem TokenStream.Opens.getElem?_length (hopens : stream.Opens tokens) :
    tokens[stream.tokens.length]? = some ⟨.eof, stream.eof⟩ := by
  obtain ⟨after, hafter⟩ := hopens
  rw [← Array.getElem?_toList, hafter]
  simp

/-- At the cursor stands the next token of the stream, or the end of the text. -/
theorem TokenStream.Opens.getElem?_position (hopens : stream.Opens tokens)
    (hwithin : state.Within stream) :
    tokens[state.position]? = some ((stream.ahead state).headD ⟨.eof, stream.eof⟩) := by
  unfold ahead
  rcases Nat.lt_or_eq_of_le hwithin.position_le with hlt | heq
  · rw [hopens.getElem?_of_lt hlt, List.drop_eq_getElem_cons hlt, List.getElem?_eq_getElem hlt]
    rfl
  · rw [heq, hopens.getElem?_length, List.drop_length]
    rfl

/-- What is ahead depends on the place of the cursor only. -/
theorem TokenStream.ahead_eq (stream : TokenStream) (hplace : middle.position = state.position) :
    stream.ahead middle = stream.ahead state := by
  rw [ahead, ahead, hplace]

theorem CursorState.Within.look (hwithin : state.Within stream) {index : Nat}
    (hindex : index ≤ stream.tokens.length) :
    { state with used := index :: state.used }.Within stream where
  kind_ne_eof := hwithin.kind_ne_eof
  position_le := hwithin.position_le
  used_le := List.forall_mem_cons.mpr ⟨hindex, hwithin.used_le⟩

section

variable {token : Token} {rest : List Token} (hahead : stream.ahead state = token :: rest)
include hahead

theorem TokenStream.position_lt : state.position < stream.tokens.length := by
  have hlength := congrArg List.length hahead
  simp only [ahead, List.length_drop, List.length_cons] at hlength
  omega

theorem TokenStream.ahead_succ (hplace : middle.position = state.position + 1) :
    stream.ahead middle = rest := by
  have htail := congrArg List.tail hahead
  simpa [ahead, hplace] using htail

theorem TokenStream.endsBefore_succ (hplace : middle.position = state.position + 1) :
    stream.EndsBefore middle token.span := by
  have hhead := congrArg List.head? hahead
  simp only [ahead, List.head?_drop, List.head?_cons] at hhead
  simp [EndsBefore, hplace, hhead]

/-- A token may be passed: the cursor stays in front of the end or comes to it. -/
theorem CursorState.Within.bump (hwithin : state.Within stream) :
    { state with position := state.position + 1 }.Within stream where
  kind_ne_eof := hwithin.kind_ne_eof
  position_le := TokenStream.position_lt hahead
  used_le := hwithin.used_le

theorem CursorState.Within.ne_eof (hwithin : state.Within stream) : token.kind ≠ .eof := by
  have hmem : token ∈ stream.ahead state := by
    rw [hahead]
    exact List.mem_cons_self
  exact hwithin.kind_ne_eof token (List.mem_of_mem_drop hmem)

end

end

/-! ## Runs -/

/-- The reading comes to the same end on every array that begins with the stream. -/
def Cursor.Runs {α : Type} (stream : TokenStream) (reading : Cursor α) (state : CursorState)
    (outcome : Except CursorFault α) (final : CursorState) : Prop :=
  ∀ tokens, stream.Opens tokens → reading.runFrom tokens state = some (outcome, final)

namespace Cursor

section

variable {α β : Type} {stream : TokenStream} {state middle final : CursorState}

theorem runFrom_bind (tokens : Array Token) (first : Cursor α) (next : α → Cursor β) :
    (first >>= next).runFrom tokens state =
      match first.runFrom tokens state with
      | none => none
      | some (.error fault, middle) => some (.error fault, middle)
      | some (.ok a, middle) => (next a).runFrom tokens middle := by
  unfold runFrom
  simp only [bind, ReaderT.bind, ExceptT.bind, ExceptT.mk, StateT.bind, ExceptT.bindCont]
  cases first tokens state with
  | none => rfl
  | some found =>
      obtain ⟨outcome, middle⟩ := found
      cases outcome with
      | error fault => rfl
      | ok a => rfl

theorem Runs.bind {first : Cursor α} {next : α → Cursor β} {a : α} {outcome : Except CursorFault β}
    (hfirst : Runs stream first state (.ok a) middle)
    (hnext : Runs stream (next a) middle outcome final) :
    Runs stream (first >>= next) state outcome final := by
  intro tokens hopens
  rw [runFrom_bind, hfirst tokens hopens]
  exact hnext tokens hopens

theorem Runs.bind_error {first : Cursor α} {fault : CursorFault}
    (hfirst : Runs stream first state (.error fault) final) (next : α → Cursor β) :
    Runs stream (first >>= next) state (.error fault) final := by
  intro tokens hopens
  rw [runFrom_bind, hfirst tokens hopens]

theorem runs_pure (a : α) : Runs stream (pure a) state (.ok a) state :=
  fun _ _ => rfl

theorem runs_throw (fault : CursorFault) :
    Runs stream (throw fault : Cursor α) state (.error fault) state :=
  fun _ _ => rfl

theorem runs_get : Runs stream get state (.ok state) state :=
  fun _ _ => rfl

/-- A look at an index at which all the arrays have one token. -/
theorem runs_look {index : Nat} {token : Token}
    (htoken : ∀ tokens, stream.Opens tokens → tokens[index]? = some token) :
    Runs stream (look index) state (.ok token)
      { state with used := index :: state.used } := by
  intro tokens hopens
  have hlook : (look index).runFrom tokens state =
      ((tokens[index]?).elim (throw (.outside index)) pure : Cursor Token).runFrom tokens
        { state with used := index :: state.used } := rfl
  rw [hlook, htoken tokens hopens]
  rfl

end

theorem expectWord_eq (spelling : String) (due : Expectation) :
    expectWord spelling due = expect (.word spelling) due := by
  simp only [expectWord, expect, checkWord, matchToken, bind_assoc, pure_bind]
  refine bind_congr fun token => ?_
  by_cases hword : token.kind = .word spelling
  · simp [TokenKind.spells, hword]
  · simp [TokenKind.spells, hword]

end Cursor

/-! ## Readings that pass a number of tokens -/

/-- The reading succeeds and moves the cursor by the given number of steps. -/
def Cursor.Moves {α : Type} (stream : TokenStream) (steps : Nat) (reading : Cursor α)
    (state : CursorState) (a : α) : Prop :=
  ∃ final : CursorState, Runs stream reading state (.ok a) final ∧ final.Within stream ∧
    final.position = state.position + steps

namespace Cursor

section

variable {α β : Type} {stream : TokenStream} {state : CursorState} {token : Token}
  {rest : List Token}

/-- Two readings in a row move the cursor by the steps of both. -/
theorem Moves.andThen {first : Cursor α} {next : α → Cursor β} {steps more : Nat} {a : α} {b : β}
    (hfirst : Moves stream steps first state a)
    (hnext : ∀ middle : CursorState, middle.Within stream →
      middle.position = state.position + steps → Moves stream more (next a) middle b) :
    Moves stream (more + steps) (first >>= next) state b := by
  obtain ⟨middle, hrun, hmiddle, hplace⟩ := hfirst
  obtain ⟨final, hrun', hfinal, hplace'⟩ := hnext middle hmiddle hplace
  exact ⟨final, hrun.bind hrun', hfinal, by omega⟩

/-- A reading, and a result that is computed from what it returns. -/
theorem Moves.thenPure {reading : Cursor α} {steps : Nat} {a : α}
    (hreading : Moves stream steps reading state a) (f : α → β) :
    Moves stream steps (reading >>= fun a => pure (f a)) state (f a) := by
  obtain ⟨final, hrun, hfinal, hplace⟩ := hreading
  exact ⟨final, hrun.bind (runs_pure _), hfinal, hplace⟩

variable (hwithin : state.Within stream)
include hwithin

theorem moves_pure (a : α) : Moves stream 0 (pure a) state a :=
  ⟨state, runs_pure a, hwithin, rfl⟩

theorem moves_bump (hahead : stream.ahead state = token :: rest) : Moves stream 1 bump state () :=
  ⟨_, fun _ _ => rfl, hwithin.bump hahead, rfl⟩

theorem moves_current :
    Moves stream 0 current state ((stream.ahead state).headD ⟨.eof, stream.eof⟩) :=
  ⟨_, runs_get.bind (runs_look fun _ hopens => hopens.getElem?_position hwithin),
    hwithin.look hwithin.position_le, rfl⟩

theorem moves_current_of_ahead (hahead : stream.ahead state = token :: rest) :
    Moves stream 0 current state token := by
  have hcurrent := moves_current hwithin
  rwa [hahead] at hcurrent

theorem moves_previousSpan {span : Span} (hspan : stream.EndsBefore state span) :
    Moves stream 0 previousSpan state span := by
  obtain ⟨token, htoken, rfl⟩ := Option.map_eq_some_iff.mp hspan
  obtain ⟨hlt, -⟩ := List.getElem?_eq_some_iff.mp htoken
  have hlook : Runs stream (look (state.position - 1)) state (.ok token)
      { state with used := (state.position - 1) :: state.used } :=
    runs_look fun _ hopens => (hopens.getElem?_of_lt hlt).trans htoken
  exact ⟨_, runs_get.bind (hlook.bind (runs_pure _)), hwithin.look (Nat.le_of_lt hlt), rfl⟩

theorem moves_isAtEnd : Moves stream 0 isAtEnd state (stream.ahead state).isEmpty := by
  have hmoves := (moves_current hwithin).thenPure fun token => token.kind == .eof
  cases hahead : stream.ahead state with
  | nil =>
      rw [hahead] at hmoves
      exact hmoves
  | cons token rest =>
      have hkind : (token.kind == .eof) = false :=
        beq_eq_false_iff_ne.mpr (hwithin.ne_eof hahead)
      rw [hahead, List.headD_cons, hkind] at hmoves
      exact hmoves

theorem moves_checkWord (spelling : String) :
    Moves stream 0 (checkWord spelling) state
      (((stream.ahead state).headD ⟨.eof, stream.eof⟩).kind.spells spelling) :=
  (moves_current hwithin).thenPure fun token => token.kind.spells spelling

theorem moves_advance (hahead : stream.ahead state = token :: rest) :
    Moves stream 1 advance state token := by
  refine (moves_current_of_ahead hwithin hahead).andThen fun middle hmiddle hplace => ?_
  rw [← stream.ahead_eq hplace] at hahead
  refine (moves_isAtEnd hmiddle).andThen fun middle' hmiddle' hplace' => ?_
  rw [hahead]
  rw [← stream.ahead_eq hplace'] at hahead
  exact (moves_bump hmiddle' hahead).thenPure fun _ => token

theorem moves_keyword (hahead : stream.ahead state = token :: rest) :
    Moves stream 1 keyword state token.span := by
  refine (moves_current_of_ahead hwithin hahead).andThen fun middle hmiddle hplace => ?_
  rw [← stream.ahead_eq hplace] at hahead
  exact (moves_advance hmiddle hahead).thenPure fun _ => token.span

theorem moves_matchToken (hahead : stream.ahead state = token :: rest) :
    Moves stream 1 (matchToken token.kind) state true := by
  refine (moves_current_of_ahead hwithin hahead).andThen fun middle hmiddle hplace => ?_
  rw [← stream.ahead_eq hplace] at hahead
  rw [if_pos rfl]
  exact (moves_bump hmiddle hahead).thenPure fun _ => true

theorem moves_matchToken_of_ne {kind : TokenKind}
    (hkind : ((stream.ahead state).headD ⟨.eof, stream.eof⟩).kind ≠ kind) :
    Moves stream 0 (matchToken kind) state false := by
  refine (moves_current hwithin).andThen fun middle hmiddle _ => ?_
  rw [if_neg hkind]
  exact moves_pure hmiddle false

end

end Cursor

/-! ## Readings that follow the parser -/

/-- The reading does what a step of the parser does.  If the step fails, the reading is refused
with its error.  If it succeeds, the tokens that it leaves are those ahead of the cursor, and
`post` relates what the two return and where the cursor stands. -/
inductive Cursor.Follows {α β : Type} (stream : TokenStream) (post : β → α → CursorState → Prop)
    (reading : Cursor α) (state : CursorState) {before : List Token} :
    Except ParseError (Parsed β before) → Prop
  | fails {error : ParseError} {final : CursorState}
      (hrun : Runs stream reading state (.error (.refused error)) final)
      (hfinal : final.Within stream) : Follows stream post reading state (.error error)
  | reads {a : α} {b : β} {final : CursorState}
      {hlt : (stream.ahead final).length < before.length}
      (hrun : Runs stream reading state (.ok a) final) (hfinal : final.Within stream)
      (hpost : post b a final) :
      Follows stream post reading state (.ok ⟨(b, stream.ahead final), hlt⟩)

/-- The reading returns what the parser returns. -/
abbrev Cursor.Same {α : Type} (parsed read : α) (_ : CursorState) : Prop :=
  parsed = read

namespace Cursor

section

variable {α β γ δ : Type} {stream : TokenStream} {state : CursorState} {before left : List Token}
  {post : β → α → CursorState → Prop}

theorem Follows.of_runs {first : Cursor γ} {next : γ → Cursor α} {c : γ} {middle : CursorState}
    {step : Except ParseError (Parsed β before)}
    (hfirst : Runs stream first state (.ok c) middle)
    (hnext : Follows stream post (next c) middle step) :
    Follows stream post (first >>= next) state step := by
  cases hnext with
  | fails hrun hfinal => exact .fails (hfirst.bind hrun) hfinal
  | reads hrun hfinal hpost => exact .reads (hfirst.bind hrun) hfinal hpost

/-- A reading to which no step of the parser belongs, and then one that follows the parser. -/
theorem Follows.after {first : Cursor γ} {next : γ → Cursor α} {steps : Nat} {c : γ}
    {step : Except ParseError (Parsed β before)} (hfirst : Moves stream steps first state c)
    (hnext : ∀ middle : CursorState, middle.Within stream →
      middle.position = state.position + steps → Follows stream post (next c) middle step) :
    Follows stream post (first >>= next) state step := by
  obtain ⟨middle, hrun, hmiddle, hplace⟩ := hfirst
  exact .of_runs hrun (hnext middle hmiddle hplace)

/-- Two readings in a row follow two steps of the parser in a row. -/
theorem Follows.bind {first : Cursor α} {next : α → Cursor γ}
    {step : Except ParseError (Parsed β before)}
    {others : Parsed β before → Except ParseError (Parsed δ left)}
    {post' : δ → γ → CursorState → Prop} (hfirst : Follows stream post first state step)
    (hnext : ∀ a b middle hlt, middle.Within stream → post b a middle →
      Follows stream post' (next a) middle (others ⟨(b, stream.ahead middle), hlt⟩)) :
    Follows stream post' (first >>= next) state (step >>= others) := by
  cases hfirst with
  | fails hrun hfinal => exact .fails (hrun.bind_error next) hfinal
  | @reads a b middle hlt hrun hmiddle hpost =>
      exact .of_runs hrun (hnext a b middle hlt hmiddle hpost)

theorem Follows.pure {a : α} {b : β} {rest : List Token} {hlt : rest.length < before.length}
    (hwithin : state.Within stream) (hahead : stream.ahead state = rest) (hpost : post b a state) :
    Follows stream post (Pure.pure a) state
      (.ok ⟨(b, rest), hlt⟩ : Except ParseError (Parsed β before)) := by
  subst hahead
  exact .reads (runs_pure a) hwithin hpost

/-- A step that the parser takes after a first token. -/
theorem Follows.map {reading : Cursor α} {token : Token}
    {step : Except ParseError (Parsed β before)}
    (hfollows : Follows stream post reading state step) :
    Follows stream post reading state
      (step.map fun found =>
        (⟨found.1, Nat.lt_succ_of_lt found.2⟩ : Parsed β (token :: before))) := by
  cases hfollows with
  | fails hrun hfinal => exact .fails hrun hfinal
  | reads hrun hfinal hpost => exact .reads hrun hfinal hpost

end

section

variable {stream : TokenStream} {state : CursorState} (hwithin : state.Within stream)
include hwithin

theorem follows_refuse {α β : Type} {before rest : List Token} {post : β → α → CursorState → Prop}
    (hahead : stream.ahead state = rest) (due : Expectation) :
    Follows stream post (refuse due) state
      (.error (parseErrorAt stream.eof due rest) : Except ParseError (Parsed β before)) := by
  refine .after (moves_current hwithin) fun middle hmiddle _ => ?_
  cases rest with
  | nil =>
      rw [hahead]
      exact .fails (runs_throw _) hmiddle
  | cons token rest =>
      rw [hahead, List.headD_cons, if_neg (hwithin.ne_eof hahead)]
      exact .fails (runs_throw _) hmiddle

/-- The parser reads a token of a kind as the cursor passes it.  The cursor is moved on without
a look at the end, so it matters that the kind is not that of the end. -/
theorem follows_expect {kind : TokenKind} (hkind : kind ≠ .eof) (due : Expectation) :
    Follows stream (fun span _ final => stream.EndsBefore final span) (expect kind due) state
      (parseToken stream.eof kind due (stream.ahead state)) := by
  by_cases hfound : ((stream.ahead state).headD ⟨.eof, stream.eof⟩).kind = kind
  -- Only a token of the stream is passed: at its end stands a token of another kind.
  · cases hahead : stream.ahead state with
    | nil =>
        rw [hahead] at hfound
        exact absurd hfound.symm hkind
    | cons token rest =>
        rw [hahead] at hfound
        obtain rfl : token.kind = kind := hfound
        rw [parseToken, if_pos rfl]
        refine .after (moves_matchToken hwithin hahead) fun final hfinal hplace => ?_
        exact .pure hfinal (TokenStream.ahead_succ hahead hplace)
          (TokenStream.endsBefore_succ hahead hplace)
  · have herror : parseToken stream.eof kind due (stream.ahead state) =
        .error (parseErrorAt stream.eof due (stream.ahead state)) := by
      cases hahead : stream.ahead state with
      | nil => rfl
      | cons token rest =>
          rw [hahead] at hfound
          exact if_neg hfound
    rw [herror]
    refine .after (moves_matchToken_of_ne hwithin hfound) fun middle hmiddle hplace => ?_
    exact follows_refuse hmiddle (stream.ahead_eq hplace) due

theorem follows_equals (due : Expectation) :
    Follows stream (fun span _ final => stream.EndsBefore final span) (expect .equals due)
      state (parseToken stream.eof .equals due (stream.ahead state)) := by
  have hequals : TokenKind.equals ≠ .eof := nofun
  exact follows_expect hwithin hequals due

theorem follows_expectWord (spelling : String) (due : Expectation) :
    Follows stream (fun span _ final => stream.EndsBefore final span)
      (expectWord spelling due) state
      (parseToken stream.eof (.word spelling) due (stream.ahead state)) := by
  rw [expectWord_eq]
  have hword : TokenKind.word spelling ≠ .eof := nofun
  exact follows_expect hwithin hword due

theorem follows_expectName (due : Expectation) :
    Follows stream
      (fun found name final => found.1 = name ∧ stream.EndsBefore final found.2)
      (expectName due) state (parseName stream.eof due (stream.ahead state)) := by
  refine .after (moves_current hwithin) fun middle hmiddle hplace => ?_
  have hsame := stream.ahead_eq hplace
  cases hahead : stream.ahead state with
  | nil => exact follows_refuse hmiddle (hsame.trans hahead) due
  | cons token rest =>
      rw [hahead] at hsame
      obtain ⟨kind, span⟩ := token
      cases kind with
      | word name =>
          refine .after (moves_bump hmiddle hsame) fun final hfinal hplace' => ?_
          exact .pure hfinal (TokenStream.ahead_succ hsame hplace')
            ⟨rfl, TokenStream.endsBefore_succ hsame hplace'⟩
      | _ => exact follows_refuse hmiddle hsame due

theorem follows_expression :
    Follows stream Same expression state
      (parseExpression stream.eof (stream.ahead state)) := by
  refine .after (moves_current hwithin) fun middle hmiddle hplace => ?_
  have hsame := stream.ahead_eq hplace
  cases hahead : stream.ahead state with
  | nil => exact follows_refuse hmiddle (hsame.trans hahead) .expression
  | cons token rest =>
      rw [hahead] at hsame
      have hadvance := moves_advance hmiddle hsame
      obtain ⟨kind, span⟩ := token
      cases kind with
      | string text =>
          exact .after hadvance fun final hfinal hplace' =>
            .pure hfinal (TokenStream.ahead_succ hsame hplace') rfl
      | integer value =>
          exact .after hadvance fun final hfinal hplace' =>
            .pure hfinal (TokenStream.ahead_succ hsame hplace') rfl
      | word name =>
          exact .after hadvance fun final hfinal hplace' =>
            .pure hfinal (TokenStream.ahead_succ hsame hplace') rfl
      | _ => exact follows_refuse hmiddle hsame .expression

end

/-! ## Statements without parts -/

section

variable {stream : TokenStream} {state : CursorState} (hwithin : state.Within stream)
include hwithin

section

variable {token : Token} {rest : List Token} (hahead : stream.ahead state = token :: rest)
include hahead

theorem follows_print :
    Follows stream Same print state
      (parsePrint stream.eof token.span rest) := by
  refine .after (moves_keyword hwithin hahead) fun middle hmiddle hplace => ?_
  obtain rfl := TokenStream.ahead_succ hahead hplace
  refine (follows_expression hmiddle).bind fun value _ final _ hfinal hvalue => ?_
  subst hvalue
  exact .pure hfinal rfl rfl

theorem follows_declare :
    Follows stream Same declare state
      (parseDeclare stream.eof token.span rest) := by
  refine .after (moves_keyword hwithin hahead) fun middle hmiddle hplace => ?_
  obtain rfl := TokenStream.ahead_succ hahead hplace
  refine (follows_expectName hmiddle .nameAfterVar).bind
    fun name found afterName _ hafterName hname => ?_
  obtain ⟨rfl, -⟩ := hname
  refine (follows_equals hafterName .equalsAfterVar).bind
    fun _ _ afterEquals _ hafterEquals _ => ?_
  refine (follows_expression hafterEquals).bind fun value _ final _ hfinal hvalue => ?_
  subst hvalue
  exact .pure hfinal rfl rfl

theorem follows_readInt :
    Follows stream Same readInt state
      (parseReadInt stream.eof token.span rest) := by
  refine .after (moves_keyword hwithin hahead) fun middle hmiddle hplace => ?_
  obtain rfl := TokenStream.ahead_succ hahead hplace
  refine (follows_expectName hmiddle .nameAfterReadInt).bind
    fun name found afterName _ hafterName hname => ?_
  obtain ⟨rfl, hspan⟩ := hname
  refine .after (moves_previousSpan hafterName hspan) fun final hfinal hplace => ?_
  exact .pure hfinal (stream.ahead_eq hplace) rfl

end

theorem follows_loopHead :
    Follows stream Same loopHead state
      (parseLoopHead stream.eof (stream.ahead state)) := by
  refine (follows_expectName hwithin .nameAfterFor).bind
    fun name found afterName _ hafterName hname => ?_
  obtain ⟨rfl, -⟩ := hname
  refine (follows_equals hafterName .equalsAfterFor).bind
    fun _ _ afterEquals _ hafterEquals _ => ?_
  refine (follows_expression hafterEquals).bind
    fun lower _ afterLower _ hafterLower hlower => ?_
  subst hlower
  refine (follows_expectWord hafterLower "to" .toAfterLower).bind
    fun _ _ afterTo _ hafterTo _ => ?_
  refine (follows_expression hafterTo).bind
    fun upper _ afterUpper _ hafterUpper hupper => ?_
  subst hupper
  refine (follows_expectWord hafterUpper "do" .doAfterUpper).bind
    fun _ _ final _ hfinal _ => ?_
  exact .pure hfinal rfl rfl

theorem follows_assign {name : String} {span : Span} {rest : List Token}
    (hahead : stream.ahead state = ⟨.word name, span⟩ :: rest) :
    Follows stream Same assign state
      (parseAssign stream.eof span name rest) := by
  refine .after (moves_current_of_ahead hwithin hahead) fun middle hmiddle hplace => ?_
  rw [← stream.ahead_eq hplace] at hahead
  refine .after (moves_current_of_ahead hmiddle hahead) fun again hagain hplace' => ?_
  rw [← stream.ahead_eq hplace'] at hahead
  refine .after (moves_bump hagain hahead) fun afterName hafterName hplace'' => ?_
  obtain rfl := TokenStream.ahead_succ hahead hplace''
  refine (follows_equals hafterName (.equalsAfterName name)).bind
    fun _ _ afterEquals _ hafterEquals _ => ?_
  refine (follows_expression hafterEquals).bind fun value _ final _ hfinal hvalue => ?_
  subst hvalue
  exact .pure hfinal rfl rfl

/-! ## Sequences and loops -/

theorem moves_goesOn_of_none (hnone : afterSemicolon? (stream.ahead state) = none) :
    Moves stream 0 goesOn state false := by
  have hkind : ((stream.ahead state).headD ⟨.eof, stream.eof⟩).kind ≠ .semicolon := by
    cases hahead : stream.ahead state with
    | nil => nofun
    | cons token rest =>
        rintro (hsemicolon : token.kind = .semicolon)
        obtain ⟨kind, place⟩ := token
        subst hsemicolon
        rw [hahead] at hnone
        cases hnone
  exact (moves_matchToken_of_ne hwithin hkind).andThen
    fun middle hmiddle _ => moves_pure hmiddle false

theorem moves_goesOn {place : Span} {rest : List Token}
    (hahead : stream.ahead state = ⟨.semicolon, place⟩ :: rest) :
    Moves stream 1 goesOn state !atListEnd rest := by
  refine (moves_matchToken hwithin hahead).andThen fun middle hmiddle hplace => ?_
  obtain rfl := TokenStream.ahead_succ hahead hplace
  refine (moves_isAtEnd hmiddle).andThen fun again hagain hplace' => ?_
  cases hrest : stream.ahead middle with
  | nil => exact moves_pure hagain false
  | cons token rest =>
      have hcheck := (moves_checkWord hagain "end").thenPure fun found => !found
      rw [stream.ahead_eq hplace', hrest] at hcheck
      exact hcheck

end

/-- The loop over the statements of a list is the recursion of the grammar. -/
theorem statement_succ (fuel : Nat) :
    statement (fuel + 2) = do
      let first ← simple (fuel + 1)
      if ← goesOn then
        return first.andThen (← statement (fuel + 1))
      return first := by
  simp only [statement, others, bind_assoc, pure_bind]
  refine bind_congr fun first => bind_congr fun more => ?_
  cases more with
  | false => simp [chain]
  | true => simp [chain]

section

variable {stream : TokenStream}

theorem follows_forLoop {state : CursorState} (hwithin : state.Within stream) {span : Span}
    {rest : List Token} (hahead : stream.ahead state = ⟨.word "for", span⟩ :: rest)
    {body : Cursor Statement}
    (hbody : ∀ inner : CursorState, inner.Within stream →
      (stream.ahead inner).length < rest.length →
      Follows stream Same body inner (parseStatement stream.eof (stream.ahead inner))) :
    Follows stream Same (forLoop body) state
      (parseSimple stream.eof (⟨.word "for", span⟩ :: rest)) := by
  rw [forLoop, parseSimple_word, if_neg (by decide), if_neg (by decide), if_neg (by decide),
    if_pos rfl]
  refine .after (moves_keyword hwithin hahead) fun middle hmiddle hplace => ?_
  obtain rfl := TokenStream.ahead_succ hahead hplace
  refine (follows_loopHead hmiddle).bind fun head _ afterHead hlt hafterHead hhead => ?_
  subst hhead
  refine (hbody afterHead hafterHead hlt).bind fun body _ afterBody _ hafterBody hsame => ?_
  subst hsame
  refine (follows_expectWord hafterBody "end" .endAfterBody).bind
    fun _ stop afterEnd _ hafterEnd hstop => ?_
  refine .after (moves_previousSpan hafterEnd hstop) fun final hfinal hplace' => ?_
  exact .pure hfinal (stream.ahead_eq hplace') rfl

mutual

/-- The cursor reads a simple statement as the parser does.  Two units of fuel for each token
are enough, since a loop takes one for itself and one for the list that is its body. -/
theorem follows_simple {fuel : Nat} {state : CursorState} (hwithin : state.Within stream)
    (hfuel : 2 * (stream.ahead state).length < fuel) :
    Follows stream Same (simple fuel) state (parseSimple stream.eof (stream.ahead state)) := by
  obtain ⟨fuel, rfl⟩ := Nat.exists_eq_succ_of_ne_zero (Nat.ne_zero_of_lt hfuel)
  rw [simple]
  refine .after (moves_current hwithin) fun middle hmiddle hplace => ?_
  have hsame := stream.ahead_eq hplace
  cases hahead : stream.ahead state with
  | nil =>
      rw [parseSimple]
      · exact follows_refuse hmiddle (hsame.trans hahead) .statement
      · nofun
  | cons token rest =>
      rw [hahead] at hsame
      obtain ⟨kind, span⟩ := token
      cases kind with
      | word word =>
          rw [List.headD_cons]
          by_cases hfor : word = "for"
          · subst hfor
            refine follows_forLoop hmiddle hsame fun inner hinner hlt => ?_
            rw [hahead, List.length_cons] at hfuel
            exact follows_statement hinner (by omega)
          rw [parseSimple_word]
          by_cases hprint : word = "print"
          · simp only [if_pos hprint]
            exact (follows_print hmiddle hsame).map
          by_cases hvar : word = "var"
          · simp only [if_neg hprint, if_pos hvar]
            exact (follows_declare hmiddle hsame).map
          by_cases hread : word = "read_int"
          · simp only [if_neg hprint, if_neg hvar, if_pos hread]
            exact (follows_readInt hmiddle hsame).map
          · simp only [if_neg hprint, if_neg hvar, if_neg hread, if_neg hfor]
            exact (follows_assign hmiddle hsame).map
      | _ =>
          rw [parseSimple]
          · exact follows_refuse hmiddle hsame .statement
          · nofun
termination_by fuel

/-- The cursor reads a list of statements as the parser does. -/
theorem follows_statement {fuel : Nat} {state : CursorState} (hwithin : state.Within stream)
    (hfuel : 2 * (stream.ahead state).length + 1 < fuel) :
    Follows stream Same (statement fuel) state
      (parseStatement stream.eof (stream.ahead state)) := by
  obtain ⟨fuel, rfl⟩ := Nat.exists_eq_add_of_le' (Nat.le_trans (Nat.le_add_left 2 _) hfuel)
  have hsimple : Follows stream Same (simple (fuel + 1)) state
      (parseSimple stream.eof (stream.ahead state)) := follows_simple hwithin (by omega)
  rw [statement_succ, parseStatement]
  generalize parseSimple stream.eof (stream.ahead state) = step at hsimple ⊢
  cases hsimple with
  | fails hrun hfinal => exact .fails (hrun.bind_error _) hfinal
  | @reads first _ middle hlt hrun hmiddle hfirst =>
      subst hfirst
      refine .of_runs hrun ?_
      dsimp only
      -- Whether the list goes on is asked of the cursor and of the tokens that are left.
      cases hsemicolon : afterSemicolon? (stream.ahead middle) with
      | none =>
          refine .after (moves_goesOn_of_none hmiddle hsemicolon) fun final hfinal hplace => ?_
          exact .pure hfinal (stream.ahead_eq hplace) rfl
      | some found =>
          obtain ⟨rest, hrest⟩ := found
          obtain ⟨place, hahead⟩ := afterSemicolon?_eq_some.mp hsemicolon
          refine .after (moves_goesOn hmiddle hahead) fun inner hinner hplace => ?_
          obtain rfl := TokenStream.ahead_succ hahead hplace
          by_cases hend : atListEnd (stream.ahead inner) = true
          · simp only [hend]
            exact .pure hinner rfl rfl
          · rw [hahead, List.length_cons] at hlt
            have hsecond : Follows stream Same (statement (fuel + 1)) inner
                (parseStatement stream.eof (stream.ahead inner)) :=
              follows_statement hinner (by omega)
            simp only [hend]
            generalize parseStatement stream.eof (stream.ahead inner) = step at hsecond ⊢
            cases hsecond with
            | fails hrun' hfinal => exact .fails (hrun'.bind_error _) hfinal
            | reads hrun' hfinal hsame =>
                subst hsame
                exact .reads (hrun'.bind (runs_pure _)) hfinal rfl
termination_by fuel

end

end

/-- The cursor reads a program as the parser does. -/
theorem exists_runs_program {stream : TokenStream}
    (hstream : ∀ token ∈ stream.tokens, token.kind ≠ .eof) {fuel : Nat}
    (hfuel : 2 * stream.tokens.length + 1 < fuel) :
    ∃ final : CursorState,
      Runs stream (program fuel) ⟨0, []⟩ ((Statement.ofStream stream).mapError .refused) final ∧
        final.Within stream := by
  have hwithin : CursorState.Within ⟨0, []⟩ stream := ⟨hstream, Nat.zero_le _, nofun⟩
  have hstatement := follows_statement hwithin hfuel
  have hahead : stream.ahead ⟨0, []⟩ = stream.tokens := List.drop_zero
  rw [hahead] at hstatement
  rw [Statement.ofStream]
  generalize parseStatement stream.eof stream.tokens = step at hstatement ⊢
  cases hstatement with
  | fails hrun hfinal => exact ⟨_, hrun.bind_error _, hfinal⟩
  | @reads statement _ middle hlt hrun hmiddle hsame =>
      subst hsame
      obtain ⟨again, hrun', hagain, hplace⟩ := moves_isAtEnd hmiddle
      have hleft := stream.ahead_eq hplace
      -- The result of the parser carries a proof about the tokens that are left.
      generalize stream.ahead middle = left at hlt hrun' hleft ⊢
      cases left with
      | nil => exact ⟨again, hrun.bind (hrun'.bind (runs_pure _)), hagain⟩
      | cons token rest =>
          obtain ⟨final, hlook, hfinal, -⟩ := moves_current_of_ahead hagain hleft
          exact ⟨final, hrun.bind (hrun'.bind (hlook.bind (runs_throw _))), hfinal⟩

/-! ## More fuel -/

/-- Every run of the one reading is a run of the other. -/
def Refines {α : Type} (reading other : Cursor α) : Prop :=
  ∀ tokens state found, reading.runFrom tokens state = some found →
    other.runFrom tokens state = some found

section

variable {α β : Type}

theorem Refines.refl (reading : Cursor α) : reading.Refines reading :=
  fun _ _ _ hrun => hrun

theorem exhausted_refines (other : Cursor α) : exhausted.Refines other :=
  fun _ _ _ hrun => nomatch hrun

theorem Refines.bind {first first' : Cursor α} {next next' : α → Cursor β}
    (hfirst : first.Refines first') (hnext : ∀ a, (next a).Refines (next' a)) :
    (first >>= next).Refines (first' >>= next') := by
  intro tokens state found hrun
  rw [runFrom_bind] at hrun ⊢
  cases hresult : first.runFrom tokens state with
  | none => rw [hresult] at hrun; cases hrun
  | some result =>
      obtain ⟨outcome, middle⟩ := result
      rw [hresult] at hrun
      rw [hfirst tokens state _ hresult]
      cases outcome with
      | error fault => exact hrun
      | ok a => exact hnext a tokens middle found hrun

theorem forLoop_refines {body body' : Cursor Statement} (hbody : body.Refines body') :
    (forLoop body).Refines (forLoop body') :=
  (Refines.refl _).bind fun _ => (Refines.refl _).bind fun _ => hbody.bind fun _ => Refines.refl _

/-- One more unit of fuel keeps every run. -/
theorem refines_succ (fuel : Nat) :
    (simple fuel).Refines (simple (fuel + 1)) ∧ (others fuel).Refines (others (fuel + 1)) ∧
      (statement fuel).Refines (statement (fuel + 1)) := by
  induction fuel with
  | zero => exact ⟨exhausted_refines _, exhausted_refines _, exhausted_refines _⟩
  | succ fuel ih =>
      obtain ⟨hsimple, hothers, hstatement⟩ := ih
      refine ⟨?_, ?_, ?_⟩
      · rw [simple, simple]
        refine (Refines.refl _).bind fun token => ?_
        cases token.kind with
        | word word =>
            by_cases hfor : word = "for"
            · subst hfor
              exact forLoop_refines hstatement
            · simp only [if_neg hfor]
              exact Refines.refl _
        | _ => exact Refines.refl _
      · rw [others, others]
        refine (Refines.refl _).bind fun more => ?_
        cases more with
        | false => exact Refines.refl _
        | true => exact hsimple.bind fun _ => hothers.bind fun _ => Refines.refl _
      · rw [statement, statement]
        exact hsimple.bind fun _ => hothers.bind fun _ => Refines.refl _

end

/-- A run of a program does not depend on the fuel. -/
theorem program_refines {fuel more : Nat} (hle : fuel ≤ more) :
    (program fuel).Refines (program more) := by
  induction hle with
  | refl => exact Refines.refl _
  | @step more _ ih =>
      have hnext : (program more).Refines (program (more + 1)) :=
        (refines_succ more).2.2.bind fun _ => Refines.refl _
      exact fun tokens state found hrun => hnext tokens state found (ih tokens state found hrun)

end Cursor

/-! ## Lists of tokens -/

namespace TokenStream

theorem ne_eof_of_mem_cut (last : Nat) (tokens : List Token) :
    ∀ token ∈ (cut last tokens).tokens, token.kind ≠ .eof := by
  induction tokens generalizing last with
  | nil => nofun
  | cons token rest ih =>
      by_cases heof : token.kind = .eof
      · simp [cut, heof]
      · simp only [cut, if_neg heof]
        exact List.forall_mem_cons.mpr ⟨heof, ih token.span.stop⟩

theorem length_cut_le (last : Nat) (tokens : List Token) :
    (cut last tokens).tokens.length ≤ tokens.length := by
  induction tokens generalizing last with
  | nil => exact Nat.le_refl 0
  | cons token rest ih =>
      by_cases heof : token.kind = .eof
      · simp [cut, heof]
      · simp only [cut, if_neg heof, List.length_cons]
        exact Nat.succ_le_succ (ih token.span.stop)

/-- A list with an end-of-text token goes on with one after the tokens of its stream. -/
theorem exists_eq_append_of_mem (last : Nat) {tokens : List Token}
    (hmem : ∃ token ∈ tokens, token.kind = .eof) :
    ∃ after, tokens = (cut last tokens).tokens ++ ⟨.eof, (cut last tokens).eof⟩ :: after := by
  induction tokens generalizing last with
  | nil => simp at hmem
  | cons token rest ih =>
      by_cases heof : token.kind = .eof
      · refine ⟨rest, ?_⟩
        obtain ⟨kind, span⟩ := token
        obtain rfl : kind = .eof := heof
        rfl
      · have hrest : ∃ token ∈ rest, token.kind = .eof := by simpa [heof] using hmem
        obtain ⟨after, hafter⟩ := ih token.span.stop hrest
        refine ⟨after, ?_⟩
        simp only [cut, if_neg heof, List.cons_append]
        rw [← hafter]

/-- Nothing after the first end-of-text token belongs to the stream. -/
theorem cut_take (last : Nat) (tokens : List Token) :
    cut last (tokens.take (tokens.findIdx (fun token => token.kind = .eof) + 1)) =
      cut last tokens := by
  induction tokens generalizing last with
  | nil => rfl
  | cons token rest ih =>
      by_cases heof : token.kind = .eof
      · simp [List.findIdx_cons, heof, cut]
      · simp [List.findIdx_cons, heof, cut, ih]

/-- An end-of-text token where the list ends changes nothing. -/
theorem cut_append_lastStop (last : Nat) (tokens : List Token) :
    cut last (tokens ++
        [⟨.eof, .empty ((tokens.getLast?.map fun token => token.span.stop).getD last)⟩]) =
      cut last tokens := by
  induction tokens generalizing last with
  | nil => rfl
  | cons token rest ih =>
      have hlast : ((token :: rest).getLast?.map fun token => token.span.stop).getD last =
          (rest.getLast?.map fun token => token.span.stop).getD token.span.stop := by
        cases hrest : rest.getLast? <;> simp [List.getLast?_cons, hrest]
      rw [hlast, List.cons_append, cut, cut, ih]

/-- The array of a list begins with its stream, which is that of the list. -/
theorem opens_closed (tokens : List Token) : (ofList tokens).Opens (Token.closed tokens) := by
  -- The stream is that of the array itself, which has an end-of-text token for sure.
  have hsame : ofList (Token.closed tokens).toList = ofList tokens := by
    unfold Token.closed
    split
    · rfl
    · rw [Array.toList_push]
      exact cut_append_lastStop 0 tokens
  have hmem : ∃ token ∈ (Token.closed tokens).toList, token.kind = .eof := by
    unfold Token.closed
    split
    next hlast =>
        obtain ⟨token, htoken, hkind⟩ := Option.map_eq_some_iff.mp hlast
        exact ⟨token, List.mem_of_getLast? htoken, hkind⟩
    next => exact ⟨⟨.eof, .empty (Token.lastStop tokens)⟩, by simp, rfl⟩
  rw [← hsame]
  exact exists_eq_append_of_mem 0 hmem

/-- The array of the list has a place for every index up to the end of the stream, and no
end-of-text token before that index. -/
theorem lt_size_closed {tokens : List Token} {index : Nat}
    (hindex : index ≤ (ofList tokens).tokens.length) :
    index < (Token.closed tokens).size ∧
      ∀ token ∈ (Token.closed tokens).toList.take index, token.kind ≠ .eof := by
  obtain ⟨after, hafter⟩ := opens_closed tokens
  constructor
  · have hlength := congrArg List.length hafter
    simp only [Array.length_toList, List.length_append, List.length_cons] at hlength
    omega
  · intro token htoken
    rw [hafter, List.take_append_of_le_length hindex] at htoken
    exact ne_eof_of_mem_cut 0 tokens token (List.mem_of_mem_take htoken)

end TokenStream

/-- The reading of a list comes to its end with two units of fuel for each token and two more.
The end is the same with any more fuel, and for any list with the same stream. -/
theorem Cursor.exists_readAll (tokens : List Token) :
    ∃ final : CursorState, final.Within (TokenStream.ofList tokens) ∧
      ∀ others, TokenStream.ofList others = TokenStream.ofList tokens → ∀ more,
        Cursor.readAll (2 * tokens.length + 2 + more) others =
          some ((Statement.ofTokens tokens).mapError .refused, final) := by
  have hlength := TokenStream.length_cut_le 0 tokens
  have hfuel : 2 * (TokenStream.ofList tokens).tokens.length + 1 < 2 * tokens.length + 2 := by
    simp only [TokenStream.ofList]
    omega
  obtain ⟨final, hrun, hfinal⟩ :=
    Cursor.exists_runs_program (TokenStream.ne_eof_of_mem_cut 0 tokens) hfuel
  refine ⟨final, hfinal, fun others hsame more => ?_⟩
  have hopens := TokenStream.opens_closed others
  rw [hsame] at hopens
  exact Cursor.program_refines (Nat.le_add_right _ more) _ _ _ (hrun _ hopens)

/-- The parser reads up to the first end-of-text token and never beyond it.  Read through a
cursor, a list of tokens gives the result of the parser, whatever its tokens and spans are; and
each index that is used on the way, also by a reading that fails, is one of the array and not
beyond its first end-of-text token.  So the result and the indices are the same for the list
cut right after its first end-of-text token, and for the list with such a token added where it
ends. -/
theorem Statement.ofTokens_reads_to_eof (tokens : List Token) :
    (∃ final : CursorState,
      (∀ more, Cursor.readAll (2 * tokens.length + 2 + more) tokens =
        some ((Statement.ofTokens tokens).mapError .refused, final)) ∧
      (∀ index ∈ final.used, index < (Token.closed tokens).size ∧
        ∀ token ∈ (Token.closed tokens).toList.take index, token.kind ≠ .eof) ∧
      (∀ more, Cursor.readAll (2 * tokens.length + 2 + more)
          (tokens.take (tokens.findIdx (fun token => token.kind = .eof) + 1)) =
        some ((Statement.ofTokens tokens).mapError .refused, final)) ∧
      ∀ more, Cursor.readAll (2 * tokens.length + 2 + more)
          (tokens ++ [⟨.eof, .empty (Token.lastStop tokens)⟩]) =
        some ((Statement.ofTokens tokens).mapError .refused, final)) ∧
    Statement.ofTokens (tokens.take (tokens.findIdx (fun token => token.kind = .eof) + 1)) =
      Statement.ofTokens tokens ∧
    Statement.ofTokens (tokens ++ [⟨.eof, .empty (Token.lastStop tokens)⟩]) =
      Statement.ofTokens tokens := by
  have hcut := TokenStream.cut_take 0 tokens
  have hadded := TokenStream.cut_append_lastStop 0 tokens
  obtain ⟨final, hfinal, hread⟩ := Cursor.exists_readAll tokens
  refine ⟨⟨final, hread tokens rfl, fun index hindex => ?_, hread _ hcut, hread _ hadded⟩,
    congrArg Statement.ofStream hcut, congrArg Statement.ofStream hadded⟩
  exact TokenStream.lt_size_closed (hfinal.used_le index hindex)

/-- The tokens of `for i = 1 to` with an end of the text in the middle, more tokens and another
end after it, and spans in no order. -/
def Token.brokenOff : List Token :=
  [⟨.word "for", ⟨7, 2⟩⟩, ⟨.word "i", ⟨0, 9⟩⟩, ⟨.equals, ⟨5, 5⟩⟩, ⟨.integer 1, ⟨3, 1⟩⟩,
    ⟨.word "to", ⟨8, 8⟩⟩, ⟨.eof, ⟨9, 4⟩⟩, ⟨.integer 2, ⟨0, 1⟩⟩, ⟨.eof, ⟨1, 1⟩⟩,
    ⟨.semicolon, ⟨2, 6⟩⟩]

/-- The reading fails at the first end of the text, at index 5, and that is the last index of
the list that it uses. -/
theorem Statement.brokenOff_ofTokens_reads_to_eof :
    Statement.ofTokens Token.brokenOff = .error (.unexpectedEnd .expression ⟨9, 4⟩) ∧
      ∃ final : CursorState,
        Cursor.readAll 20 Token.brokenOff =
          some (.error (.refused (.unexpectedEnd .expression ⟨9, 4⟩)), final) ∧
        5 ∈ final.used ∧ 5 < (Token.closed Token.brokenOff).size ∧
        Cursor.readAll 20 (Token.brokenOff.take 6) = Cursor.readAll 20 Token.brokenOff := by
  have herror : Statement.ofTokens Token.brokenOff =
      .error (.unexpectedEnd .expression ⟨9, 4⟩) := by cbv
  have hused : (Cursor.readAll 20 Token.brokenOff).map (fun found => found.2.used) =
      some [5, 5, 4, 3, 3, 3, 2, 1, 0, 0, 0, 0] := by decide +kernel
  obtain ⟨⟨final, hread, hindex, hcut, -⟩, -⟩ := Statement.ofTokens_reads_to_eof Token.brokenOff
  have hfinal : final.used = [5, 5, 4, 3, 3, 3, 2, 1, 0, 0, 0, 0] := by
    have hrun := congrArg (Option.map fun found => found.2.used) (hread 0)
    exact Option.some.inj (hrun.symm.trans hused)
  have hmem : 5 ∈ final.used := by
    rw [hfinal]
    decide
  rw [herror] at hread
  rw [herror] at hcut
  exact ⟨herror, final, hread 0, hmem, (hindex 5 hmem).1, (hcut 0).trans (hread 0).symm⟩

end SlotLang
