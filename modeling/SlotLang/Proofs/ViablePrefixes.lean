import Mathlib.Data.List.Forall2
import SlotLang.Proofs.ParsedPrograms
import SlotLang.Proofs.Results

/-!
# Parse errors are as early as they can be

A reading step that fails has read tokens that some program goes on with, and it has found
a token that none does.  For the parts of a statement this is a matter of classes: each
step asks for a token of a class, and every class has tokens.  For sequences and loops it
follows by recursion along the parser: what has been read of the inner phrase can be
completed, and then the outer one can.

* `TokenClass`, `Consumes` — steps that ask for one token after the other.
* `Stalled` — tokens that a phrase begins with, in front of a token that it cannot have.
* `stopsAt_of_parseStatement` — where the parser stops, it is stalled.
* `Statement.ofTokens_stops_earliest` — the same for whole programs.
-/

namespace SlotLang

/-! ## Classes of tokens -/

/-- What a reading step asks of the next token. -/
inductive TokenClass where
  /-- This kind and no other. -/
  | exactly (kind : TokenKind)
  /-- A word, whatever its spelling. -/
  | word
  /-- A literal or a word. -/
  | expression

namespace TokenClass

/-- Whether a kind of token is in the class. -/
def admits : TokenClass → TokenKind → Bool
  | exactly kind, found => found == kind
  | word, .word _ => true
  | word, _ => false
  | expression, .string _ => true
  | expression, .integer _ => true
  | expression, .word _ => true
  | expression, _ => false

/-- A token of the class. -/
def sample : TokenClass → Token
  | exactly kind => ⟨kind, .empty 0⟩
  | word => ⟨.word "x", .empty 0⟩
  | expression => ⟨.word "x", .empty 0⟩

theorem admits_sample (expected : TokenClass) : expected.admits expected.sample.kind = true := by
  cases expected with
  | exactly kind => exact beq_self_eq_true kind
  | word => rfl
  | expression => rfl

end TokenClass

/-- Each token is of the class at its place. -/
def OfClasses (tokens : List Token) (classes : List TokenClass) : Prop :=
  List.Forall₂ (fun token expected => expected.admits token.kind = true) tokens classes

theorem OfClasses.exists_token {tokens : List Token} {found others : List TokenClass}
    {next : TokenClass} (hclass : OfClasses tokens (found ++ next :: others)) :
    ∃ front token rest, tokens = front ++ token :: rest ∧ front.length = found.length ∧
      next.admits token.kind = true := by
  induction found generalizing tokens with
  | nil =>
      cases hclass with
      | cons hadmits hrest => exact ⟨[], _, _, rfl, rfl, hadmits⟩
  | cons expected found ih =>
      cases hclass with
      | @cons first _ _ _ hadmits hrest =>
          obtain ⟨front, token, rest, rfl, hlength, hnext⟩ := ih hrest
          exact ⟨first :: front, token, rest, rfl, congrArg Nat.succ hlength, hnext⟩

theorem ofClasses_samples (classes : List TokenClass) :
    OfClasses (classes.map TokenClass.sample) classes :=
  List.forall₂_map_left_iff.mpr (List.forall₂_same.mpr fun expected _ => expected.admits_sample)

/-- A step that asks for a token of each class in turn.  It has found them all, or it
stopped in front of a token that is not of the next class. -/
inductive Consumes {α : Type} {before : List Token} (eof : Span) (classes : List TokenClass)
    (tokens : List Token) (result : Except ParseError (Parsed α before)) : Prop
  | all {front rest : List Token} {a : α} (hfront : OfClasses front classes)
      (htokens : tokens = front ++ rest) (hresult : Yields result a rest)
  | stops {front rest : List Token} {found others : List TokenClass} {missing : TokenClass}
      {expected : Expectation} (hclasses : classes = found ++ missing :: others)
      (hfront : OfClasses front found) (htokens : tokens = front ++ rest)
      (hrest : ∀ token ∈ rest.head?, missing.admits token.kind = false)
      (hresult : result = .error (parseErrorAt eof expected rest))

section

variable {α β : Type} {before tokens : List Token} {eof : Span}

theorem consumes_pure {a : α} {hleft : tokens.length < before.length} :
    Consumes eof [] tokens (pure ⟨(a, tokens), hleft⟩ : Except ParseError (Parsed α before)) :=
  .all .nil rfl (yields_pure.mpr ⟨rfl, rfl⟩)

/-- The classes of two steps in a row. -/
theorem Consumes.bind {start : List Token} {classes others : List TokenClass}
    {first : Except ParseError (Parsed β start)}
    {next : Parsed β start → Except ParseError (Parsed α before)}
    (hfirst : Consumes eof classes tokens first)
    (hnext : ∀ b middle hmiddle, Consumes eof others middle (next ⟨(b, middle), hmiddle⟩)) :
    Consumes eof (classes ++ others) tokens (first >>= next) := by
  cases hfirst with
  | @all front rest b hfront htokens hresult =>
      obtain ⟨hrest, rfl⟩ := hresult
      cases hnext b rest hrest with
      | all hfront' htokens' hresult' =>
          exact .all (List.rel_append hfront hfront') (by rw [htokens, htokens', List.append_assoc])
            hresult'
      | stops hclasses hfront' htokens' hstop hresult' =>
          exact .stops (by rw [hclasses, List.append_assoc]) (List.rel_append hfront hfront')
            (by rw [htokens, htokens', List.append_assoc]) hstop hresult'
  | stops hclasses hfront htokens hstop hresult =>
      subst hresult
      exact .stops (by rw [hclasses, List.append_assoc]; rfl) hfront htokens hstop rfl

end

section

variable {eof start : Span} {tokens : List Token}

section

variable {α : Type} {before : List Token} {result : Except ParseError (Parsed α before)}
  {expected : TokenClass}

theorem Consumes.found {token : Token} {a : α} (hadmits : expected.admits token.kind = true)
    (hresult : Yields result a tokens) : Consumes eof [expected] (token :: tokens) result :=
  .all (.cons hadmits .nil) rfl hresult

theorem Consumes.missing {due : Expectation}
    (hstop : ∀ token ∈ tokens.head?, expected.admits token.kind = false)
    (hresult : result = .error (parseErrorAt eof due tokens)) :
    Consumes eof [expected] tokens result :=
  .stops (List.nil_append [expected]).symm .nil rfl hstop hresult

end

theorem consumes_parseToken (kind : TokenKind) (due : Expectation) :
    Consumes eof [.exactly kind] tokens (parseToken eof kind due tokens) := by
  cases tokens with
  | nil => exact .missing nofun rfl
  | cons token rest =>
      obtain ⟨found, place⟩ := token
      by_cases hkind : found = kind
      · subst hkind
        exact .found (beq_self_eq_true found) (yields_parseToken.mpr rfl)
      · refine .missing ?_ (if_neg hkind)
        simpa [TokenClass.admits] using hkind

theorem consumes_parseName (due : Expectation) :
    Consumes eof [.word] tokens (parseName eof due tokens) := by
  unfold parseName
  split
  next name place rest => exact .found rfl (yields_ok.mpr ⟨rfl, rfl⟩)
  next hword =>
      refine .missing ?_ rfl
      rintro ⟨kind, place⟩ htoken
      obtain ⟨rest, rfl⟩ := List.head?_eq_some_iff.mp htoken
      cases kind with
      | word name => exact absurd rfl (hword name place rest)
      | _ => rfl

theorem consumes_parseExpression :
    Consumes eof [.expression] tokens (parseExpression eof tokens) := by
  unfold parseExpression
  split
  next text place rest => exact .found rfl (yields_ok.mpr ⟨rfl, rfl⟩)
  next value place rest => exact .found rfl (yields_ok.mpr ⟨rfl, rfl⟩)
  next name place rest => exact .found rfl (yields_ok.mpr ⟨rfl, rfl⟩)
  next hstring hinteger hword =>
      refine .missing ?_ rfl
      rintro ⟨kind, place⟩ htoken
      obtain ⟨rest, rfl⟩ := List.head?_eq_some_iff.mp htoken
      cases kind with
      | string text => exact absurd rfl (hstring text place rest)
      | integer value => exact absurd rfl (hinteger value place rest)
      | word name => exact absurd rfl (hword name place rest)
      | _ => rfl

theorem consumes_parsePrint :
    Consumes eof [.expression] tokens (parsePrint eof start tokens) :=
  consumes_parseExpression.bind fun _ _ _ => consumes_pure

theorem consumes_parseDeclare :
    Consumes eof [.word, .exactly .equals, .expression] tokens (parseDeclare eof start tokens) :=
  (consumes_parseName _).bind fun _ _ _ => (consumes_parseToken _ _).bind fun _ _ _ =>
    consumes_parseExpression.bind fun _ _ _ => consumes_pure

theorem consumes_parseReadInt :
    Consumes eof [.word] tokens (parseReadInt eof start tokens) :=
  (consumes_parseName _).bind fun _ _ _ => consumes_pure

theorem consumes_parseAssign (name : String) :
    Consumes eof [.exactly .equals, .expression] tokens (parseAssign eof start name tokens) :=
  (consumes_parseToken _ _).bind fun _ _ _ => consumes_parseExpression.bind fun _ _ _ =>
    consumes_pure

theorem consumes_parseLoopHead :
    Consumes eof [.word, .exactly .equals, .expression, .exactly (.word "to"), .expression,
      .exactly (.word "do")] tokens (parseLoopHead eof tokens) :=
  (consumes_parseName _).bind fun _ _ _ => (consumes_parseToken _ _).bind fun _ _ _ =>
    consumes_parseExpression.bind fun _ _ _ => (consumes_parseToken _ _).bind fun _ _ _ =>
      consumes_parseExpression.bind fun _ _ _ => (consumes_parseToken _ _).bind fun _ _ _ =>
        consumes_pure

end

/-! ## What a step reads and what it refuses -/

section

variable {α : Type} {eof : Span} {classes found others : List TokenClass} {missing : TokenClass}
  {before front rest : List Token} {result : Except ParseError (Parsed α before)}

theorem Yields.unique {a b : α} {left : List Token} (hone : Yields result a rest)
    (hother : Yields result b left) : a = b ∧ rest = left := by
  obtain ⟨_, rfl⟩ := hone
  exact yields_ok.mp hother

/-- Tokens of all the classes are read, whatever follows them. -/
theorem Consumes.yields (hconsumes : Consumes eof classes (front ++ rest) result)
    (hclass : OfClasses front classes) : ∃ a, Yields result a rest := by
  cases hconsumes with
  | @all front' rest' a hfront htokens hresult =>
      have hlength : front.length = front'.length := by
        rw [hclass.length_eq, hfront.length_eq]
      obtain ⟨-, rfl⟩ := List.append_inj htokens hlength
      exact ⟨a, hresult⟩
  | stops hclasses hfront htokens hstop hresult =>
      subst hclasses
      obtain ⟨read, token, unread, rfl, hlength, hadmits⟩ := hclass.exists_token
      rw [List.append_assoc] at htokens
      obtain ⟨-, rfl⟩ := List.append_inj htokens (hlength.trans hfront.length_eq.symm)
      rw [hstop token rfl] at hadmits
      cases hadmits

/-- A token that is not of the next class is never read. -/
theorem Consumes.not_yields {token : Token} {a : α} {after : List Token}
    (hconsumes : Consumes eof (found ++ missing :: others) (front ++ token :: rest) result)
    (hclass : OfClasses front found) (htoken : missing.admits token.kind = false) :
    ¬ Yields result a after := by
  intro hyields
  cases hconsumes with
  | all hfront htokens hresult =>
      obtain ⟨read, next, unread, rfl, hlength, hadmits⟩ := hfront.exists_token
      rw [List.append_assoc] at htokens
      obtain ⟨-, heq⟩ := List.append_inj htokens (hclass.length_eq.trans hlength.symm)
      obtain ⟨rfl, -⟩ := List.cons.inj heq
      rw [htoken] at hadmits
      cases hadmits
  | stops hclasses hfront htokens hstop hresult =>
      subst hresult
      exact yields_error hyields

end

/-! ## Steps that fail -/

section

variable {eof start : Span} {tokens : List Token} {error : ParseError}

theorem parseToken_eq_error {kind : TokenKind} {due : Expectation}
    (herror : parseToken eof kind due tokens = .error error) :
    error = parseErrorAt eof due tokens ∧ ∀ token ∈ tokens.head?, token.kind ≠ kind := by
  cases tokens with
  | nil =>
      cases herror
      exact ⟨rfl, nofun⟩
  | cons token others =>
      simp only [parseToken] at herror
      by_cases hkind : token.kind = kind
      · rw [if_pos hkind] at herror
        cases herror
      · rw [if_neg hkind] at herror
        cases herror
        exact ⟨rfl, by simpa using hkind⟩

theorem map_eq_error {α β : Type} {result : Except ParseError α} {f : α → β}
    (herror : result.map f = .error error) : result = .error error := by
  cases result with
  | error found =>
      cases herror
      rfl
  | ok a => cases herror

/-- A loop that was not read lacks a head, a body or an end. -/
theorem parseSimple_forLoop_eq_error
    (herror : parseSimple eof (⟨.word "for", start⟩ :: tokens) = .error error) :
    parseLoopHead eof tokens = .error error ∨
      ∃ head afterHead, Yields (parseLoopHead eof tokens) head afterHead ∧
        (parseStatement eof afterHead = .error error ∨
          ∃ body afterBody, Yields (parseStatement eof afterHead) body afterBody ∧
            parseToken eof (.word "end") .endAfterBody afterBody = .error error) := by
  rw [parseSimple_word, if_neg (by decide), if_neg (by decide), if_neg (by decide),
    if_pos rfl] at herror
  rcases bind_eq_error.mp herror with hhead | ⟨⟨⟨head, afterHead⟩, hlt⟩, hhead, herror⟩
  · exact .inl hhead
  · refine .inr ⟨head, afterHead, ⟨hlt, hhead⟩, ?_⟩
    rcases bind_eq_error.mp herror with hbody | ⟨⟨⟨body, afterBody⟩, hlt'⟩, hbody, herror⟩
    · exact .inl hbody
    · refine .inr ⟨body, afterBody, ⟨hlt', hbody⟩, ?_⟩
      rcases bind_eq_error.mp herror with hend | ⟨_, -, herror⟩
      · exact hend
      · cases herror

/-- A sequence that was not read lacks its first statement or, after a semicolon, another
one. -/
theorem parseStatement_eq_error (herror : parseStatement eof tokens = .error error) :
    parseSimple eof tokens = .error error ∨
      ∃ first place others,
        Yields (parseSimple eof tokens) first (⟨.semicolon, place⟩ :: others) ∧
        atListEnd others = false ∧ parseStatement eof others = .error error := by
  rw [parseStatement] at herror
  split at herror
  next hsimple =>
      cases herror
      exact .inl hsimple
  next first afterFirst hfirst hsimple =>
      refine .inr ?_
      split at herror
      next => cases herror
      next others hothers hsome =>
          obtain ⟨place, rfl⟩ := afterSemicolon?_eq_some.mp hsome
          split at herror
          next => cases herror
          next hgoes =>
              split at herror
              next hsecond =>
                  cases herror
                  exact ⟨first, place, others, ⟨hfirst, hsimple⟩, Bool.eq_false_iff.mpr hgoes,
                    hsecond⟩
              next => cases herror

end

/-! ## Where the parser stops -/

/-- A reading of statements. -/
abbrev Reading : Type :=
  Span → (tokens : List Token) → Except ParseError (Parsed Statement tokens)

/-- The tokens in front are the beginning of a phrase, but not with the next token.  If
nothing was read so far then the phrase goes on with a word other than `end`. -/
structure Stalled (read : Reading) (front rest : List Token) : Prop where
  rejects : ∀ token ∈ rest.head?, ∀ eof others statement after,
    ¬ Yields (read eof (front ++ token :: others)) statement after
  completes : ∃ ending, (front = [] → atListEnd ending = false) ∧
    ∀ eof after, atListEnd after = true →
      ∃ statement, Yields (read eof (front ++ (ending ++ after))) statement after

/-- A reading failed at the place where it was stalled. -/
def StopsAt (read : Reading) (eof : Span) (tokens : List Token) (error : ParseError) : Prop :=
  ∃ front rest expected, tokens = front ++ rest ∧ error = parseErrorAt eof expected rest ∧
    Stalled read front rest

/-! ### Simple statements -/

section

variable {α : Type} {eof start : Span} {word : String} {classes : List TokenClass}
  {tokens : List Token} {step : Span → (tokens : List Token) → Except ParseError (Parsed α tokens)}

/-- What a step has read, it reads in front of any tokens. -/
theorem exists_front_of_consumes
    (hconsumes : ∀ eof tokens, Consumes eof classes tokens (step eof tokens)) {a : α}
    {rest : List Token} (hstep : Yields (step eof tokens) a rest) :
    ∃ front, tokens = front ++ rest ∧
      ∀ eof after, ∃ b, Yields (step eof (front ++ after)) b after := by
  cases hconsumes eof tokens with
  | @all front rest' b hfront htokens hresult =>
      obtain ⟨-, rfl⟩ := hresult.unique hstep
      exact ⟨front, htokens, fun eof after => (hconsumes eof (front ++ after)).yields hfront⟩
  | stops hclasses hfront htokens hstop hresult =>
      rw [hresult] at hstep
      exact absurd hstep yields_error

/-- The part of a statement after its first word.  If it is read and the given tokens
follow, the whole statement is. -/
theorem stopsAt_of_consumes {error : ParseError} (tail : List Token)
    (hconsumes : ∀ eof tokens, Consumes eof classes tokens (step eof tokens))
    (hneeds : ∀ eof tokens statement rest,
      Yields (parseSimple eof (⟨.word word, start⟩ :: tokens)) statement rest →
        ∃ a middle, Yields (step eof tokens) a middle)
    (hgoes : ∀ eof tokens a after, Yields (step eof tokens) a (tail ++ after) →
      ∃ statement, Yields (parseSimple eof (⟨.word word, start⟩ :: tokens)) statement after)
    (herror : step eof tokens = .error error) :
    StopsAt parseSimple eof (⟨.word word, start⟩ :: tokens) error := by
  cases hconsumes eof tokens with
  | all hfront htokens hresult =>
      rw [herror] at hresult
      exact absurd hresult yields_error
  | @stops front rest found others missing expected hclasses hfront htokens hstop hresult =>
      subst hclasses
      rw [herror, Except.error.injEq] at hresult
      refine ⟨⟨.word word, start⟩ :: front, rest, expected, by rw [htokens]; rfl, hresult, ?_, ?_⟩
      · intro token htoken eof others statement after hyields
        obtain ⟨a, middle, hstep⟩ := hneeds _ _ _ _ hyields
        exact (hconsumes eof _).not_yields hfront (hstop token htoken) hstep
      · refine ⟨(missing :: others).map TokenClass.sample ++ tail, nofun, fun eof after _ => ?_⟩
        have hclass : OfClasses (front ++ (missing :: others).map TokenClass.sample)
            (found ++ missing :: others) := List.rel_append hfront (ofClasses_samples _)
        have htokens := hconsumes eof
          ((front ++ (missing :: others).map TokenClass.sample) ++ (tail ++ after))
        obtain ⟨a, hstep⟩ := htokens.yields hclass
        obtain ⟨statement, hyields⟩ := hgoes _ _ _ _ hstep
        rw [List.append_assoc] at hyields
        rw [List.cons_append, List.append_assoc]
        exact ⟨statement, hyields⟩

end

/-- The tokens of a short statement. -/
def Token.printName : List Token :=
  [⟨.word "print", .empty 0⟩, ⟨.word "x", .empty 0⟩]

theorem derives_printName : Derives .simple (Token.printName.map Token.kind)
    (.print (.name "x" (.empty 0)) (.empty 0)) :=
  .print _ (.word "x" _)

/-- Where a statement is due, a token that is no word cannot stand. -/
theorem stalled_statement {rest : List Token}
    (hword : ∀ name place others, rest = ⟨.word name, place⟩ :: others → False) :
    Stalled parseSimple [] rest where
  rejects := by
    intro token htoken eof others statement after hyields
    obtain ⟨left, rfl⟩ := List.head?_eq_some_iff.mp htoken
    obtain ⟨name, place, tail, heq⟩ := exists_word_of_parseSimple hyields
    obtain ⟨rfl, -⟩ := List.cons.inj heq
    exact hword name place left rfl
  completes := by
    refine ⟨Token.printName, fun _ => rfl, fun eof after _ => ?_⟩
    obtain ⟨built, hbuilt, -⟩ := derives_printName.accepted eof Token.printName after rfl
    exact ⟨built, hbuilt⟩

/-! ### Success and the tokens that follow -/

section

variable {eof : Span} {tokens rest : List Token} {statement : Statement}

/-- A simple statement is read in front of any tokens. -/
theorem exists_front_of_parseSimple (hsimple : Yields (parseSimple eof tokens) statement rest) :
    ∃ front, tokens = front ++ rest ∧
      ∀ eof after, ∃ built, Yields (parseSimple eof (front ++ after)) built after := by
  obtain ⟨front, rfl, hbuilds⟩ := builds_of_parseSimple hsimple
  exact ⟨front, rfl, fun eof after => ⟨statement, hbuilds.reads eof after⟩⟩

/-- A sequence is read in front of any tokens in front of which it ends. -/
theorem exists_front_of_parseStatement
    (hstatement : Yields (parseStatement eof tokens) statement rest) :
    ∃ front trail, tokens = front ++ (trail ++ rest) ∧ Closes trail rest ∧
      ∀ eof after, Closes trail after →
        ∃ built, Yields (parseStatement eof (front ++ (trail ++ after))) built after := by
  obtain ⟨front, trail, rfl, hbuilds, hcloses⟩ := builds_of_parseStatement hstatement
  exact ⟨front, trail, List.append_assoc _ _ _, hcloses, fun eof after hafter =>
    ⟨statement, hbuilds.reads eof trail after hafter⟩⟩

/-- Whether a sequence ends is decided by the next token. -/
theorem Closes.congr {trail others : List Token} {token : Token}
    (hcloses : Closes trail (token :: rest)) : Closes trail (token :: others) := by
  cases hcloses with
  | plain hrest =>
      obtain ⟨kind, place⟩ := token
      cases kind with
      | semicolon => cases hrest
      | _ => exact .plain rfl
  | semicolon place hrest => exact .semicolon place hrest

/-- A sequence that ends somewhere ends at the end of a list as well. -/
theorem Closes.of_atListEnd {trail after : List Token} (hcloses : Closes trail rest)
    (hafter : atListEnd after = true) : Closes trail after :=
  hcloses.optionalSemicolon.closes hafter

end

/-! ### Loops and sequences -/

section

variable {eof start : Span} {tokens head front rest : List Token}

/-- A loop stops where its body or its end does. -/
theorem stalled_forLoop
    (hhead : ∀ eof after, ∃ found, Yields (parseLoopHead eof (head ++ after)) found after)
    (hrejects : ∀ token ∈ rest.head?, ∀ eof others body stop after,
      ¬ Yields (parseStatement eof (front ++ token :: others)) body (⟨.word "end", stop⟩ :: after))
    (hcompletes : ∃ ending, ∀ eof after, ∃ body stop,
      Yields (parseStatement eof (front ++ (ending ++ after))) body
        (⟨.word "end", stop⟩ :: after)) :
    Stalled parseSimple (⟨.word "for", start⟩ :: (head ++ front)) rest where
  rejects := by
    intro token htoken eof others statement after hyields
    rw [List.cons_append, List.append_assoc] at hyields
    obtain ⟨found, afterHead, body, stop, hfound, hbody, -⟩ :=
      yields_parseSimple_forLoop.mp hyields
    obtain ⟨found', hfound'⟩ := hhead eof (front ++ token :: others)
    obtain ⟨-, rfl⟩ := hfound.unique hfound'
    exact hrejects token htoken eof others body stop after hbody
  completes := by
    obtain ⟨ending, hending⟩ := hcompletes
    refine ⟨ending, nofun, fun eof after _ => ?_⟩
    obtain ⟨body, stop, hbody⟩ := hending eof after
    obtain ⟨found, hfound⟩ := hhead eof (front ++ (ending ++ after))
    rw [List.cons_append, List.append_assoc]
    exact ⟨_, yields_parseSimple_forLoop.mpr ⟨found, _, body, stop, hfound, hbody, rfl⟩⟩

/-- A loop whose head cannot be read stops there. -/
theorem stopsAt_parseLoopHead {error : ParseError}
    (herror : parseLoopHead eof tokens = .error error) :
    StopsAt parseSimple eof (⟨.word "for", start⟩ :: tokens) error := by
  refine stopsAt_of_consumes (Token.printName ++ [⟨.word "end", .empty 0⟩])
    (fun _ _ => consumes_parseLoopHead) (fun eof tokens statement rest hyields => ?_)
    (fun eof tokens found after hhead => ?_) herror
  · obtain ⟨found, afterHead, -, -, hhead, -⟩ := yields_parseSimple_forLoop.mp hyields
    exact ⟨found, afterHead, hhead⟩
  · obtain ⟨body, hbody, -⟩ := (Derives.single derives_printName).accepted eof Token.printName []
      (⟨.word "end", .empty 0⟩ :: after) rfl (.plain rfl)
    exact ⟨_, yields_parseSimple_forLoop.mpr ⟨found, _, body, .empty 0, hhead, hbody, rfl⟩⟩

/-- A loop stops where its body does. -/
theorem stopsAt_loopBody {error : ParseError}
    (hhead : ∀ eof after, ∃ found, Yields (parseLoopHead eof (head ++ after)) found after)
    (hbody : StopsAt parseStatement eof tokens error) :
    StopsAt parseSimple eof (⟨.word "for", start⟩ :: (head ++ tokens)) error := by
  obtain ⟨front, rest, expected, rfl, herror, hstalled⟩ := hbody
  refine ⟨⟨.word "for", start⟩ :: (head ++ front), rest, expected, by simp, herror, ?_⟩
  refine stalled_forLoop hhead (fun token htoken eof others body stop after => ?_) ?_
  · exact hstalled.rejects token htoken eof others body _
  · obtain ⟨ending, -, hending⟩ := hstalled.completes
    refine ⟨ending ++ [⟨.word "end", .empty 0⟩], fun eof after => ?_⟩
    obtain ⟨body, hbody⟩ := hending eof (⟨.word "end", .empty 0⟩ :: after) rfl
    rw [List.append_assoc]
    exact ⟨body, .empty 0, hbody⟩

/-- A loop whose body is not followed by `end` stops after the body. -/
theorem stopsAt_loopEnd {error : ParseError} {body : Statement}
    (hhead : ∀ eof after, ∃ found, Yields (parseLoopHead eof (head ++ after)) found after)
    (hbody : Yields (parseStatement eof tokens) body rest)
    (herror : parseToken eof (.word "end") .endAfterBody rest = .error error) :
    StopsAt parseSimple eof (⟨.word "for", start⟩ :: (head ++ tokens)) error := by
  obtain ⟨front, trail, rfl, hcloses, hread⟩ := exists_front_of_parseStatement hbody
  obtain ⟨herror, hend⟩ := parseToken_eq_error herror
  refine ⟨⟨.word "for", start⟩ :: (head ++ (front ++ trail)), rest, _, by simp, herror, ?_⟩
  refine stalled_forLoop hhead (fun token htoken eof others body stop after hyields => ?_) ?_
  · -- The body ends in front of this token too, and it is not the word `end`.
    obtain ⟨left, rfl⟩ := List.head?_eq_some_iff.mp htoken
    rw [List.append_assoc] at hyields
    obtain ⟨built, hbuilt⟩ := hread eof (token :: others) hcloses.congr
    obtain ⟨-, heq⟩ := hyields.unique hbuilt
    obtain ⟨rfl, -⟩ := List.cons.inj heq
    exact hend _ htoken rfl
  · refine ⟨[⟨.word "end", .empty 0⟩], fun eof after => ?_⟩
    obtain ⟨built, hbuilt⟩ := hread eof (⟨.word "end", .empty 0⟩ :: after)
      (hcloses.of_atListEnd rfl)
    rw [List.append_assoc]
    exact ⟨built, .empty 0, hbuilt⟩

/-- A sequence stops where its first statement does. -/
theorem stopsAt_first {error : ParseError} (hsimple : StopsAt parseSimple eof tokens error) :
    StopsAt parseStatement eof tokens error := by
  obtain ⟨front, rest, expected, htokens, herror, hstalled⟩ := hsimple
  refine ⟨front, rest, expected, htokens, herror, ?_, ?_⟩
  · intro token htoken eof others statement after hyields
    obtain ⟨first, afterFirst, hfirst, -⟩ := yields_parseStatement.mp hyields
    exact hstalled.rejects token htoken eof others first afterFirst hfirst
  · obtain ⟨ending, hbegins, hending⟩ := hstalled.completes
    refine ⟨ending, hbegins, fun eof after hafter => ?_⟩
    obtain ⟨first, hfirst⟩ := hending eof after hafter
    have hcloses : Closes [] after := OptionalSemicolon.closes .absent hafter
    cases hcloses with
    | plain hnone =>
        exact ⟨first, yields_parseStatement.mpr ⟨first, after, hfirst, .inl ⟨hnone, rfl, rfl⟩⟩⟩

/-- A sequence whose first statement was read stops where the others do. -/
theorem stopsAt_others {error : ParseError} {first : Statement} {place : Span}
    (hfirst : Yields (parseSimple eof tokens) first (⟨.semicolon, place⟩ :: rest))
    (hgoes : atListEnd rest = false) (hothers : StopsAt parseStatement eof rest error) :
    StopsAt parseStatement eof tokens error := by
  obtain ⟨head, rfl, hread⟩ := exists_front_of_parseSimple hfirst
  obtain ⟨front, left, expected, rfl, herror, hstalled⟩ := hothers
  refine ⟨head ++ ⟨.semicolon, place⟩ :: front, left, expected, by simp, herror, ?_, ?_⟩
  · intro token htoken eof others statement after hyields
    obtain ⟨unread, rfl⟩ := List.head?_eq_some_iff.mp htoken
    -- The semicolon does not end the list: what follows it is no `end`, as before.
    have hgoes' : atListEnd (front ++ token :: others) = false := by
      cases front with
      | nil => exact hgoes
      | cons first front => exact hgoes
    rw [List.append_assoc, List.cons_append] at hyields
    obtain ⟨found, left, hfound, hrest⟩ := yields_parseStatement.mp hyields
    obtain ⟨built, hbuilt⟩ := hread eof (⟨.semicolon, place⟩ :: (front ++ token :: others))
    obtain ⟨-, rfl⟩ := hfound.unique hbuilt
    rcases hrest with ⟨hnone, -⟩ | ⟨_, _, heq, ⟨hend, -⟩ | ⟨-, second, hsecond, -⟩⟩
    · cases hnone
    · obtain ⟨-, rfl⟩ := List.cons.inj heq
      rw [hgoes'] at hend
      cases hend
    · obtain ⟨-, rfl⟩ := List.cons.inj heq
      exact hstalled.rejects token htoken eof others second after hsecond
  · obtain ⟨ending, hbegins, hending⟩ := hstalled.completes
    refine ⟨ending, fun hnil => absurd hnil (by simp), fun eof after hafter => ?_⟩
    have hgoes' : atListEnd (front ++ (ending ++ after)) = false := by
      cases front with
      | nil =>
          cases ending with
          | nil => cases hbegins rfl
          | cons first ending => exact hbegins rfl
      | cons first front => exact hgoes
    obtain ⟨second, hsecond⟩ := hending eof after hafter
    obtain ⟨built, hbuilt⟩ := hread eof (⟨.semicolon, place⟩ :: (front ++ (ending ++ after)))
    rw [List.append_assoc, List.cons_append]
    exact ⟨_, yields_parseStatement.mpr ⟨built, _, hbuilt, .inr ⟨place, _, rfl, .inr ⟨hgoes',
      second, hsecond, rfl⟩⟩⟩⟩

end

mutual

/-- A simple statement that was not read stalls where the error is. -/
theorem stopsAt_of_parseSimple {eof : Span} {tokens : List Token} {error : ParseError}
    (herror : parseSimple eof tokens = .error error) : StopsAt parseSimple eof tokens error := by
  by_cases hfirst : ∃ word start others, tokens = ⟨.word word, start⟩ :: others
  · obtain ⟨word, start, others, rfl⟩ := hfirst
    by_cases hword : word ∈ leadingKeywords
    · simp only [leadingKeywords, List.mem_cons, List.not_mem_nil, or_false] at hword
      rcases hword with rfl | rfl | rfl | rfl
      · rw [parseSimple_word, if_pos rfl] at herror
        exact stopsAt_of_consumes [] (fun _ _ => consumes_parsePrint)
          (fun _ _ _ _ hyields => ⟨_, _, yields_parseSimple_print.mp hyields⟩)
          (fun _ _ _ _ hyields => ⟨_, yields_parseSimple_print.mpr hyields⟩) (map_eq_error herror)
      · rw [parseSimple_word, if_neg (by decide), if_pos rfl] at herror
        exact stopsAt_of_consumes [] (fun _ _ => consumes_parseDeclare)
          (fun _ _ _ _ hyields => ⟨_, _, yields_parseSimple_declare.mp hyields⟩)
          (fun _ _ _ _ hyields => ⟨_, yields_parseSimple_declare.mpr hyields⟩) (map_eq_error herror)
      · rw [parseSimple_word, if_neg (by decide), if_neg (by decide), if_pos rfl] at herror
        exact stopsAt_of_consumes [] (fun _ _ => consumes_parseReadInt)
          (fun _ _ _ _ hyields => ⟨_, _, yields_parseSimple_readInt.mp hyields⟩)
          (fun _ _ _ _ hyields => ⟨_, yields_parseSimple_readInt.mpr hyields⟩) (map_eq_error herror)
      · rcases parseSimple_forLoop_eq_error herror with hhead | ⟨head, afterHead, hhead, hrest⟩
        · exact stopsAt_parseLoopHead hhead
        · obtain ⟨front, rfl, hread⟩ :=
            exists_front_of_consumes (fun _ _ => consumes_parseLoopHead) hhead
          rcases hrest with hbody | ⟨body, afterBody, hbody, hend⟩
          · exact stopsAt_loopBody hread (stopsAt_of_parseStatement hbody)
          · exact stopsAt_loopEnd hread hbody hend
    · have hassign : parseAssign eof start word others = .error error := by
        simp only [leadingKeywords, List.mem_cons, List.not_mem_nil, or_false, not_or] at hword
        obtain ⟨hprint, hvar, hread, hfor⟩ := hword
        rw [parseSimple_word, if_neg hprint, if_neg hvar, if_neg hread, if_neg hfor] at herror
        exact map_eq_error herror
      exact stopsAt_of_consumes [] (fun _ _ => consumes_parseAssign word)
        (fun _ _ _ _ hyields => ⟨_, _, (yields_parseSimple_assign hword).mp hyields⟩)
        (fun _ _ _ _ hyields => ⟨_, (yields_parseSimple_assign hword).mpr hyields⟩) hassign
  · push Not at hfirst
    rw [parseSimple.eq_def] at herror
    split at herror
    next word start others => exact absurd rfl (hfirst word start others)
    next =>
        cases herror
        exact ⟨[], tokens, .statement, rfl, rfl, stalled_statement hfirst⟩
termination_by 2 * tokens.length

/-- A sequence that was not read stalls where the error is. -/
theorem stopsAt_of_parseStatement {eof : Span} {tokens : List Token} {error : ParseError}
    (herror : parseStatement eof tokens = .error error) :
    StopsAt parseStatement eof tokens error := by
  rcases parseStatement_eq_error herror with herror | ⟨first, place, others, hfirst, hgoes, herror⟩
  · exact stopsAt_first (stopsAt_of_parseSimple herror)
  · have hlt : others.length < tokens.length := by
      obtain ⟨hlt, -⟩ := hfirst
      exact Nat.lt_of_succ_lt hlt
    exact stopsAt_others hfirst hgoes (stopsAt_of_parseStatement herror)
termination_by 2 * tokens.length + 1

end

/-! ## Whole programs -/

/-- The tokens make up a program. -/
def Parses (tokens : List Token) : Prop :=
  ∃ program, Statement.ofTokens tokens = .ok program

/-- The token that an error reports, unless it is the end of the text. -/
def ParseError.found? : ParseError → Option Token
  | unexpected _ found span => some ⟨found, span⟩
  | unexpectedEnd _ _ => none
  | trailing found span => some ⟨found, span⟩

theorem found?_parseErrorAt (eof : Span) (expected : Expectation) (rest : List Token) :
    (parseErrorAt eof expected rest).found? = rest.head? := by
  cases rest <;> rfl

/-- What the parser reads to the end is a program. -/
theorem parses_of_yields {tokens : List Token}
    (hread : ∀ eof, ∃ program, Yields (parseStatement eof tokens) program []) : Parses tokens := by
  have heof : ∀ token ∈ tokens, token.kind ≠ .eof := by
    obtain ⟨program, hprogram⟩ := hread (.empty 0)
    obtain ⟨front, trail, rfl, hfront, hcloses⟩ := builds_of_parseStatement hprogram
    rw [List.append_nil]
    refine List.forall_mem_append.mpr ⟨hfront.ne_eof, fun token htoken => ?_⟩
    exact hcloses.optionalSemicolon.ne_eof _ (List.mem_map_of_mem htoken)
  obtain ⟨program, hprogram⟩ := hread (TokenStream.ofList tokens).eof
  refine ⟨program, Statement.ofStream_eq_ok.mpr ?_⟩
  rw [TokenStream.ofList, TokenStream.tokens_cut heof]
  exact hprogram

/-- A program that begins with the given tokens is read from them and some others. -/
theorem Parses.exists_yields {front others : List Token} (hparses : Parses (front ++ others))
    (heof : ∀ token ∈ front, token.kind ≠ .eof) :
    ∃ eof rest program, Yields (parseStatement eof (front ++ rest)) program [] := by
  obtain ⟨program, hprogram⟩ := hparses
  obtain ⟨place, hcut⟩ := TokenStream.tokens_cut_append heof others 0
  have hyields := Statement.ofStream_eq_ok.mp hprogram
  rw [TokenStream.ofList, hcut] at hyields
  exact ⟨_, _, program, hyields⟩

theorem Statement.ofStream_eq_error {stream : TokenStream} {error : ParseError}
    (herror : Statement.ofStream stream = .error error) :
    parseStatement stream.eof stream.tokens = .error error ∨
      ∃ program token rest,
        Yields (parseStatement stream.eof stream.tokens) program (token :: rest) ∧
        error = .trailing token.kind token.span := by
  unfold Statement.ofStream at herror
  split at herror
  next hstatement =>
      cases herror
      exact .inl hstatement
  next => cases herror
  next program token rest hlt hstatement =>
      cases herror
      exact .inr ⟨program, token, rest, ⟨hlt, hstatement⟩, rfl⟩

/-- Some program begins with the tokens in front, and none with these and the next one. -/
structure ViableUpTo (front rest : List Token) : Prop where
  rejects : ∀ token ∈ rest.head?, ∀ others, ¬ Parses (front ++ [token] ++ others)
  completes : ∃ others, Parses (front ++ others)

/-- A sequence that stalled is not part of a program. -/
theorem Stalled.viableUpTo {front rest : List Token} (hstalled : Stalled parseStatement front rest)
    (heof : ∀ token ∈ front ++ rest, token.kind ≠ .eof) : ViableUpTo front rest where
  rejects := by
    intro token htoken others hparses
    obtain ⟨left, rfl⟩ := List.head?_eq_some_iff.mp htoken
    rw [List.append_cons] at heof
    obtain ⟨eof, after, program, hprogram⟩ :=
      hparses.exists_yields (List.forall_mem_append.mp heof).1
    rw [List.append_assoc] at hprogram
    exact hstalled.rejects token htoken eof after program [] hprogram
  completes := by
    obtain ⟨ending, -, hending⟩ := hstalled.completes
    refine ⟨ending, parses_of_yields fun eof => ?_⟩
    obtain ⟨program, hprogram⟩ := hending eof [] rfl
    rw [List.append_nil] at hprogram
    exact ⟨program, hprogram⟩

/-- A token behind a complete program is not part of one. -/
theorem Closes.viableUpTo {front trail rest : List Token} {token : Token}
    (hcloses : Closes trail (token :: rest))
    (hread : ∀ eof after, Closes trail after →
      ∃ built, Yields (parseStatement eof (front ++ (trail ++ after))) built after)
    (heof : ∀ token' ∈ front ++ trail ++ token :: rest, token'.kind ≠ .eof) :
    ViableUpTo (front ++ trail) (token :: rest) where
  rejects := by
    intro other hother others hparses
    obtain rfl : token = other := by simpa using hother
    rw [List.append_cons] at heof
    obtain ⟨eof, after, program, hprogram⟩ :=
      hparses.exists_yields (List.forall_mem_append.mp heof).1
    rw [List.append_assoc, List.append_assoc] at hprogram
    -- The program ends in front of the token, as it did before.
    obtain ⟨built, hbuilt⟩ := hread eof (token :: after) hcloses.congr
    obtain ⟨-, heq⟩ := hprogram.unique hbuilt
    cases heq
  completes := by
    refine ⟨[], parses_of_yields fun eof => ?_⟩
    rw [List.append_assoc]
    exact hread eof [] (hcloses.of_atListEnd rfl)

/-- The parser stops as late as it can, and it reports the token that it stops at. -/
theorem Statement.exists_viableUpTo {tokens : List Token} {error : ParseError}
    (heof : ∀ token ∈ tokens, token.kind ≠ .eof)
    (herror : Statement.ofTokens tokens = .error error) :
    ∃ front rest, tokens = front ++ rest ∧ error.found? = rest.head? ∧ ViableUpTo front rest := by
  have htokens : (TokenStream.ofList tokens).tokens = tokens := TokenStream.tokens_cut heof 0
  have hfail := Statement.ofStream_eq_error herror
  rw [htokens] at hfail
  rcases hfail with hfail | ⟨program, token, rest, hread, rfl⟩
  · obtain ⟨front, rest, expected, rfl, rfl, hstalled⟩ := stopsAt_of_parseStatement hfail
    exact ⟨front, rest, rfl, found?_parseErrorAt _ _ _, hstalled.viableUpTo heof⟩
  · obtain ⟨front, trail, rfl, hcloses, hagain⟩ := exists_front_of_parseStatement hread
    rw [← List.append_assoc] at heof
    exact ⟨front ++ trail, token :: rest, (List.append_assoc _ _ _).symm, rfl,
      hcloses.viableUpTo hagain heof⟩

/-- The parser reports the end of the text just when more tokens could still make it a
program. -/
theorem Statement.unexpectedEnd_iff {tokens : List Token}
    (heof : ∀ token ∈ tokens, token.kind ≠ .eof) :
    (∃ expected place, Statement.ofTokens tokens = .error (.unexpectedEnd expected place)) ↔
      ¬ Parses tokens ∧ ∃ others, others ≠ [] ∧ Parses (tokens ++ others) := by
  constructor
  · rintro ⟨expected, place, herror⟩
    have hfails : ¬ Parses tokens := by
      rintro ⟨program, hprogram⟩
      cases herror.symm.trans hprogram
    obtain ⟨front, rest, rfl, hfound, -, others, hothers⟩ :=
      Statement.exists_viableUpTo heof herror
    obtain rfl : rest = [] := List.head?_eq_none_iff.mp hfound.symm
    rw [List.append_nil] at hfails ⊢
    refine ⟨hfails, others, ?_, hothers⟩
    rintro rfl
    rw [List.append_nil] at hothers
    exact hfails hothers
  · rintro ⟨hfails, others, -, hothers⟩
    rcases herror : Statement.ofTokens tokens with error | program
    · obtain ⟨front, rest, rfl, hfound, hrejects, -⟩ := Statement.exists_viableUpTo heof herror
      cases rest with
      | nil =>
          cases error with
          | unexpectedEnd expected place => exact ⟨expected, place, rfl⟩
          | unexpected => cases hfound
          | trailing => cases hfound
      | cons token rest =>
          refine absurd ?_ (hrejects token rfl (rest ++ others))
          simpa using hothers
    · exact absurd ⟨program, herror⟩ hfails

/-- Parse errors are as early as they can be.  An error at a token names one place among the
tokens: no program begins with the tokens up to that place, and some program begins with
those before it.  An error at the end of the text means that the tokens are no program and
begin one. -/
theorem Statement.ofTokens_stops_earliest {tokens : List Token}
    (heof : ∀ token ∈ tokens, token.kind ≠ .eof)
    (hstarts : tokens.Pairwise fun a b => a.span.start ≠ b.span.start) :
    (∀ error reported, Statement.ofTokens tokens = .error error →
      error.found? = some reported →
      ∃ k : Nat, tokens[k]? = some reported ∧
        (∀ (j : Nat) (token : Token), tokens[j]? = some token →
          token.span.start = reported.span.start → j = k) ∧
        (∀ others, ¬ Parses (tokens.take k ++ [reported] ++ others)) ∧
        ∃ others, Parses (tokens.take k ++ others)) ∧
    ((∃ expected place, Statement.ofTokens tokens = .error (.unexpectedEnd expected place)) ↔
      ¬ Parses tokens ∧ ∃ others, others ≠ [] ∧ Parses (tokens ++ others)) := by
  refine ⟨fun error reported herror hreported => ?_, Statement.unexpectedEnd_iff heof⟩
  obtain ⟨front, rest, rfl, hfound, hrejects, hcompletes⟩ :=
    Statement.exists_viableUpTo heof herror
  obtain ⟨left, rfl⟩ := List.head?_eq_some_iff.mp (hfound.symm.trans hreported)
  have hk : (front ++ reported :: left)[front.length]? = some reported := by simp
  refine ⟨front.length, hk, fun j token hj hstart => ?_, ?_, ?_⟩
  · have hnodup : ((front ++ reported :: left).map (·.span.start)).Nodup :=
      List.pairwise_map.mpr hstarts
    have hj' : j < (front ++ reported :: left).length :=
      (List.getElem?_eq_some_iff.mp hj).choose
    refine (List.getElem?_inj (by rwa [List.length_map]) hnodup).mp ?_
    rw [List.getElem?_map, List.getElem?_map, hj, hk, Option.map_some, Option.map_some, hstart]
  · rw [List.take_left]
    exact hrejects reported rfl
  · rw [List.take_left]
    exact hcompletes

/-- The tokens of `for i = 1 to 2 do end; print i`, a loop without a body: its `end` is the
name of a variable that is assigned to. -/
def Token.emptyLoop : List Token :=
  [⟨.word "for", ⟨0, 3⟩⟩, ⟨.word "i", ⟨4, 5⟩⟩, ⟨.equals, ⟨6, 7⟩⟩, ⟨.integer 1, ⟨8, 9⟩⟩,
    ⟨.word "to", ⟨10, 12⟩⟩, ⟨.integer 2, ⟨13, 14⟩⟩, ⟨.word "do", ⟨15, 17⟩⟩,
    ⟨.word "end", ⟨18, 21⟩⟩, ⟨.semicolon, ⟨21, 22⟩⟩, ⟨.word "print", ⟨23, 28⟩⟩,
    ⟨.word "i", ⟨29, 30⟩⟩]

theorem Statement.emptyLoop_ofTokens_stops_earliest :
    (∀ token ∈ Token.emptyLoop, token.kind ≠ .eof) ∧
    Token.emptyLoop.Pairwise (fun a b => a.span.start ≠ b.span.start) ∧
    Statement.ofTokens Token.emptyLoop =
      .error (.unexpected (.equalsAfterName "end") .semicolon ⟨21, 22⟩) ∧
    Statement.ofTokens (Token.emptyLoop.take 8) =
      .error (.unexpectedEnd (.equalsAfterName "end") (.empty 21)) ∧
    (∃ k : Nat, Token.emptyLoop[k]? = some ⟨.semicolon, ⟨21, 22⟩⟩ ∧
      (∀ others,
        ¬ Parses (Token.emptyLoop.take k ++ [⟨.semicolon, ⟨21, 22⟩⟩] ++ others)) ∧
      ∃ others, Parses (Token.emptyLoop.take k ++ others)) ∧
    ¬ Parses (Token.emptyLoop.take 8) ∧
    ∃ others, others ≠ [] ∧ Parses (Token.emptyLoop.take 8 ++ others) := by
  have heof : ∀ token ∈ Token.emptyLoop, token.kind ≠ .eof := by decide
  have hstarts : Token.emptyLoop.Pairwise (fun a b => a.span.start ≠ b.span.start) := by decide
  have herror : Statement.ofTokens Token.emptyLoop =
      .error (.unexpected (.equalsAfterName "end") .semicolon ⟨21, 22⟩) := by cbv
  have hend : Statement.ofTokens (Token.emptyLoop.take 8) =
      .error (.unexpectedEnd (.equalsAfterName "end") (.empty 21)) := by cbv
  obtain ⟨k, hk, -, hstops⟩ :=
    (Statement.ofTokens_stops_earliest heof hstarts).1 _ ⟨.semicolon, ⟨21, 22⟩⟩ herror rfl
  have heof' : ∀ token ∈ Token.emptyLoop.take 8, token.kind ≠ .eof := by decide
  have hstarts' : (Token.emptyLoop.take 8).Pairwise (fun a b => a.span.start ≠ b.span.start) := by
    decide
  exact ⟨heof, hstarts, herror, hend, ⟨k, hk, hstops⟩,
    (Statement.ofTokens_stops_earliest heof' hstarts').2.mp ⟨_, _, hend⟩⟩

end SlotLang
