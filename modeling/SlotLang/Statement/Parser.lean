import SlotLang.Statement.Basic
import SlotLang.Statement.Error

/-!
# From tokens to a program

The grammar has one token of lookahead.  A program is a nonempty list of
simple statements with semicolons between them; a semicolon may also stand
after the last one.  The body of a loop is such a list up to the word `end`.
Words are keywords only where the grammar asks for one, so every word can
name a variable.

The tokens before the end of the text are a list of their own, and the span of
the end is kept beside it.  Every reading step returns the tokens left over
together with the proof that they are fewer, and the recursion rests on that.

* `TokenStream` — the tokens of a program and the place where they end.
* `parseExpression`, `parseSimple`, `parseStatement` — the grammar.
* `Statement.ofTokens` — the program of a token list.
-/

namespace SlotLang

/-- Tokens up to the end of the text, and the span of that end. -/
structure TokenStream where
  /-- The tokens before the end. -/
  tokens : List Token
  /-- The span of the end. -/
  eof : Span
deriving DecidableEq, Repr

namespace TokenStream

/-- The tokens before the first end-of-text token.  A list without one ends
where its last token ends; `last` is that place. -/
def cut (last : Nat) : List Token → TokenStream
  | [] => ⟨[], .empty last⟩
  | token :: rest =>
      if token.kind = .eof then
        ⟨[], token.span⟩
      else
        let stream := cut token.span.stop rest
        ⟨token :: stream.tokens, stream.eof⟩

/-- The stream of a token list; an empty list ends at offset zero. -/
def ofList (tokens : List Token) : TokenStream :=
  cut 0 tokens

end TokenStream

/-- A result and the tokens after it, which are fewer than before. -/
abbrev Parsed (α : Type) (tokens : List Token) : Type :=
  { result : α × List Token // result.2.length < tokens.length }

/-- The error of finding the front of `tokens` where `expected` was due. -/
def parseErrorAt (eof : Span) (expected : Expectation) : List Token → ParseError
  | [] => .unexpectedEnd expected eof
  | token :: _ => .unexpected expected token.kind token.span

/-- Reads one token of exactly the given kind, and returns its span. -/
def parseToken (eof : Span) (kind : TokenKind) (expected : Expectation)
    (tokens : List Token) : Except ParseError (Parsed Span tokens) :=
  match tokens with
  | token :: rest =>
      if token.kind = kind then
        .ok ⟨(token.span, rest), Nat.lt_succ_self _⟩
      else
        .error (parseErrorAt eof expected (token :: rest))
  | [] => .error (parseErrorAt eof expected [])

/-- Reads one word of any spelling, and returns it with its span. -/
def parseName (eof : Span) (expected : Expectation)
    (tokens : List Token) : Except ParseError (Parsed (String × Span) tokens) :=
  match tokens with
  | ⟨.word name, span⟩ :: rest => .ok ⟨((name, span), rest), Nat.lt_succ_self _⟩
  | tokens => .error (parseErrorAt eof expected tokens)

/-- Reads an expression: a single literal or word. -/
def parseExpression (eof : Span)
    (tokens : List Token) : Except ParseError (Parsed Expression tokens) :=
  match tokens with
  | ⟨.string text, span⟩ :: rest => .ok ⟨(.string text span, rest), Nat.lt_succ_self _⟩
  | ⟨.integer value, span⟩ :: rest => .ok ⟨(.integer value span, rest), Nat.lt_succ_self _⟩
  | ⟨.word name, span⟩ :: rest => .ok ⟨(.name name span, rest), Nat.lt_succ_self _⟩
  | tokens => .error (parseErrorAt eof .expression tokens)

/-- Reads what follows the word `print`. -/
def parsePrint (eof start : Span)
    (tokens : List Token) : Except ParseError (Parsed Statement tokens) := do
  let ⟨(value, rest), hvalue⟩ ← parseExpression eof tokens
  return ⟨(.print value (start.hull value.span), rest), hvalue⟩

/-- Reads what follows the word `var`. -/
def parseDeclare (eof start : Span)
    (tokens : List Token) : Except ParseError (Parsed Statement tokens) := do
  let ⟨((name, _), afterName), hname⟩ ← parseName eof .nameAfterVar tokens
  let ⟨(_, afterEquals), hequals⟩ ← parseToken eof .equals .equalsAfterVar afterName
  let ⟨(value, rest), hvalue⟩ ← parseExpression eof afterEquals
  return ⟨(.declare name value (start.hull value.span), rest),
    Nat.lt_trans hvalue (Nat.lt_trans hequals hname)⟩

/-- Reads what follows the word `read_int`. -/
def parseReadInt (eof start : Span)
    (tokens : List Token) : Except ParseError (Parsed Statement tokens) := do
  let ⟨((name, span), rest), hname⟩ ← parseName eof .nameAfterReadInt tokens
  return ⟨(.readInt name (start.hull span), rest), hname⟩

/-- Reads what follows the name at the front of an assignment. -/
def parseAssign (eof start : Span) (name : String)
    (tokens : List Token) : Except ParseError (Parsed Statement tokens) := do
  let ⟨(_, afterEquals), hequals⟩ ← parseToken eof .equals (.equalsAfterName name) tokens
  let ⟨(value, rest), hvalue⟩ ← parseExpression eof afterEquals
  return ⟨(.assign name value (start.hull value.span), rest),
    Nat.lt_trans hvalue hequals⟩

/-- The part of a loop before its body. -/
structure LoopHead where
  /-- The name of the index. -/
  index : String
  /-- The first value of the index. -/
  lower : Expression
  /-- The bound at which the loop ends. -/
  upper : Expression

/-- Reads what follows the word `for`, up to and with the word `do`. -/
def parseLoopHead (eof : Span)
    (tokens : List Token) : Except ParseError (Parsed LoopHead tokens) := do
  let ⟨((index, _), afterName), hname⟩ ← parseName eof .nameAfterFor tokens
  let ⟨(_, afterEquals), hequals⟩ ← parseToken eof .equals .equalsAfterFor afterName
  let ⟨(lower, afterLower), hlower⟩ ← parseExpression eof afterEquals
  let ⟨(_, afterTo), hto⟩ ← parseToken eof (.word "to") .toAfterLower afterLower
  let ⟨(upper, afterUpper), hupper⟩ ← parseExpression eof afterTo
  let ⟨(_, rest), hdo⟩ ← parseToken eof (.word "do") .doAfterUpper afterUpper
  return ⟨(⟨index, lower, upper⟩, rest),
    by simp only at hname hequals hlower hto hupper hdo ⊢; omega⟩

/-- Whether a statement list ends here: no token is left, or a loop closes. -/
def atListEnd : List Token → Bool
  | [] => true
  | token :: _ => token.kind.spells "end"

/-- The tokens after a semicolon, if one stands in front. -/
def afterSemicolon? (tokens : List Token) :
    Option { rest : List Token // rest.length < tokens.length } :=
  match tokens with
  | ⟨.semicolon, _⟩ :: rest => some ⟨rest, Nat.lt_succ_self _⟩
  | _ => none

mutual

/-- Reads one simple statement. -/
def parseSimple (eof : Span)
    (tokens : List Token) : Except ParseError (Parsed Statement tokens) :=
  match tokens with
  | ⟨.word word, start⟩ :: rest =>
      if word = "print" then
        (parsePrint eof start rest).map fun ⟨result, h⟩ => ⟨result, Nat.lt_succ_of_lt h⟩
      else if word = "var" then
        (parseDeclare eof start rest).map fun ⟨result, h⟩ => ⟨result, Nat.lt_succ_of_lt h⟩
      else if word = "read_int" then
        (parseReadInt eof start rest).map fun ⟨result, h⟩ => ⟨result, Nat.lt_succ_of_lt h⟩
      else if word = "for" then do
        let ⟨(head, afterHead), hhead⟩ ← parseLoopHead eof rest
        let ⟨(body, afterBody), hbody⟩ ← parseStatement eof afterHead
        let ⟨(stop, remaining), hend⟩ ← parseToken eof (.word "end") .endAfterBody afterBody
        return ⟨(.forLoop head.index head.lower head.upper body (start.hull stop), remaining),
          Nat.lt_succ_of_lt (Nat.lt_trans hend (Nat.lt_trans hbody hhead))⟩
      else
        (parseAssign eof start word rest).map fun ⟨result, h⟩ => ⟨result, Nat.lt_succ_of_lt h⟩
  | tokens => .error (parseErrorAt eof .statement tokens)
termination_by 2 * tokens.length
decreasing_by
  simp only [List.length_cons] at hhead ⊢
  omega

/-- Reads a list of simple statements, up to the end of the text or the word
`end`, as one statement nested to the right. -/
def parseStatement (eof : Span)
    (tokens : List Token) : Except ParseError (Parsed Statement tokens) :=
  match parseSimple eof tokens with
  | .error error => .error error
  | .ok ⟨(first, afterFirst), hfirst⟩ =>
      match afterSemicolon? afterFirst with
      | none => .ok ⟨(first, afterFirst), hfirst⟩
      | some ⟨rest, hrest⟩ =>
          if atListEnd rest then
            .ok ⟨(first, rest), Nat.lt_trans hrest hfirst⟩
          else
            match parseStatement eof rest with
            | .error error => .error error
            | .ok ⟨(second, remaining), hsecond⟩ =>
                .ok ⟨(first.andThen second, remaining),
                  Nat.lt_trans hsecond (Nat.lt_trans hrest hfirst)⟩
termination_by 2 * tokens.length + 1
decreasing_by
  · omega
  · simp only at hfirst
    omega

end

/-- The program that a stream of tokens spells. -/
def Statement.ofStream (stream : TokenStream) : Except ParseError Statement :=
  match parseStatement stream.eof stream.tokens with
  | .error error => .error error
  | .ok ⟨(program, []), _⟩ => .ok program
  | .ok ⟨(_, token :: _), _⟩ => .error (.trailing token.kind token.span)

/-- The program that a list of tokens spells.  Nothing after the first
end-of-text token is looked at. -/
def Statement.ofTokens (tokens : List Token) : Except ParseError Statement :=
  Statement.ofStream (TokenStream.ofList tokens)

end SlotLang
