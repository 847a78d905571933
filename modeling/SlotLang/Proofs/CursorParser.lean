import SlotLang.Statement.Parser

/-!
# Reading tokens through a cursor

The parser takes tokens off the front of a list, so that it has no places to speak of.  Here
the same grammar is read from an array: a cursor stands at an index, every token is looked up
by its index, and every index that is looked up is noted.  Nothing keeps the cursor inside of
the array: that it stays there is a fact to be proved about a run.  The recursion is bounded by
fuel, and without fuel a reading has no run at all; so a run that there is does not depend on
the bound.

The array ends with an end-of-text token, which is added if the last token is another one.
Such tokens may also stand in the middle, and the cursor does not know where the first is.

* `Cursor` — readings that look tokens up, move the cursor, and may fail.
* `Cursor.look` — the only step that touches the array.
* `Cursor.simple`, `Cursor.statement`, `Cursor.program` — the grammar.
* `Token.closed` — the array that a list of tokens is read from.
* `Cursor.readAll` — the reading of a list of tokens from its first index on.
-/

namespace SlotLang

/-- Why a reading through a cursor fails. -/
inductive CursorFault where
  /-- The tokens are no program. -/
  | refused (error : ParseError)
  /-- An assignment does not begin with a name. -/
  | nameless (span : Span)
  /-- There is no token at an index that was looked up. -/
  | outside (index : Nat)
deriving DecidableEq, Repr

/-- The state of a reading. -/
structure CursorState where
  /-- The index at which the cursor stands. -/
  position : Nat
  /-- The indices that were looked up, the last one first. -/
  used : List Nat
deriving DecidableEq, Repr

/-- Readings of an array of tokens.  A reading that fails has a state as well, and a reading
that runs out of fuel has none. -/
abbrev Cursor : Type → Type :=
  ReaderT (Array Token) (ExceptT CursorFault (StateT CursorState Option))

namespace Cursor

/-- The run of a reading from a state; there is none if the fuel runs out. -/
def runFrom {α : Type} (reading : Cursor α) (tokens : Array Token) (state : CursorState) :
    Option (Except CursorFault α × CursorState) :=
  reading tokens state

/-! ## Tokens -/

/-- Looks a token up by its index. -/
def look (index : Nat) : Cursor Token := do
  modify fun state => { state with used := index :: state.used }
  ((← read)[index]?).elim (throw (.outside index)) pure

/-- The token at the cursor. -/
def current : Cursor Token := do
  look (← get).position

/-- The span of the token before the cursor. -/
def previousSpan : Cursor Span := do
  return (← look ((← get).position - 1)).span

/-- Moves the cursor on, whatever stands there. -/
def bump : Cursor Unit :=
  modify fun state => { state with position := state.position + 1 }

/-- Whether the text ends at the cursor. -/
def isAtEnd : Cursor Bool := do
  return (← current).kind == .eof

/-- The token at the cursor, which is passed unless the text ends there. -/
def advance : Cursor Token := do
  let token ← current
  if ← isAtEnd then
    return token
  bump
  return token

/-- Whether the word at the cursor has the given spelling. -/
def checkWord (spelling : String) : Cursor Bool := do
  return (← current).kind.spells spelling

/-- Whether a token of the given kind stands at the cursor, which is passed then. -/
def matchToken (kind : TokenKind) : Cursor Bool := do
  if (← current).kind = kind then
    bump
    return true
  return false

/-- Fails at the token where something else was due. -/
def refuse {α : Type} (expected : Expectation) : Cursor α := do
  let token ← current
  if token.kind = .eof then
    throw (.refused (.unexpectedEnd expected token.span))
  throw (.refused (.unexpected expected token.kind token.span))

/-- Passes a token of the given kind. -/
def expect (kind : TokenKind) (expected : Expectation) : Cursor Unit := do
  if ← matchToken kind then
    return
  refuse expected

/-- Passes the word with the given spelling. -/
def expectWord (spelling : String) (expected : Expectation) : Cursor Unit := do
  if ← checkWord spelling then
    bump
  else
    refuse expected

/-- Passes a word, and returns it. -/
def expectName (expected : Expectation) : Cursor String := do
  match (← current).kind with
  | .word name =>
      bump
      return name
  | _ => refuse expected

/-! ## Phrases -/

/-- Reads an expression. -/
def expression : Cursor Expression := do
  match (← current).kind with
  | .string text => return .string text (← advance).span
  | .integer value => return .integer value (← advance).span
  | .word name => return .name name (← advance).span
  | _ => refuse .expression

/-- Passes the word that a statement begins with, and returns its span. -/
def keyword : Cursor Span := do
  let start ← current
  let _ ← advance
  return start.span

/-- Reads a statement that begins with the word `print`. -/
def print : Cursor Statement := do
  let start ← keyword
  let value ← expression
  return .print value (start.hull value.span)

/-- Reads a statement that begins with the word `var`. -/
def declare : Cursor Statement := do
  let start ← keyword
  let name ← expectName .nameAfterVar
  expect .equals .equalsAfterVar
  let value ← expression
  return .declare name value (start.hull value.span)

/-- Reads a statement that begins with the word `read_int`. -/
def readInt : Cursor Statement := do
  let start ← keyword
  let name ← expectName .nameAfterReadInt
  return .readInt name (start.hull (← previousSpan))

/-- Reads an assignment. -/
def assign : Cursor Statement := do
  let start := (← current).span
  match (← current).kind with
  | .word name =>
      bump
      expect .equals (.equalsAfterName name)
      let value ← expression
      return .assign name value (start.hull value.span)
  | _ => throw (.nameless (← current).span)

/-- Reads what follows the word `for`, up to and with the word `do`. -/
def loopHead : Cursor LoopHead := do
  let index ← expectName .nameAfterFor
  expect .equals .equalsAfterFor
  let lower ← expression
  expectWord "to" .toAfterLower
  let upper ← expression
  expectWord "do" .doAfterUpper
  return ⟨index, lower, upper⟩

/-- Reads a statement that begins with the word `for`, with the given reading of its body. -/
def forLoop (body : Cursor Statement) : Cursor Statement := do
  let start ← keyword
  let head ← loopHead
  let body ← body
  expectWord "end" .endAfterBody
  return .forLoop head.index head.lower head.upper body (start.hull (← previousSpan))

/-- Passes a semicolon, and says whether another statement follows it. -/
def goesOn : Cursor Bool := do
  if ← matchToken .semicolon then
    if ← isAtEnd then
      return false
    return !(← checkWord "end")
  return false

/-- The statement of a list of statements, nested to the right. -/
def chain (first : Statement) : List Statement → Statement
  | [] => first
  | second :: rest => first.andThen (chain second rest)

/-- The fuel has run out. -/
def exhausted {α : Type} : Cursor α :=
  fun _ _ => none

mutual

/-- Reads one simple statement. -/
def simple : Nat → Cursor Statement
  | 0 => exhausted
  | fuel + 1 => do
      match (← current).kind with
      | .word word =>
          if word = "print" then
            print
          else if word = "var" then
            declare
          else if word = "read_int" then
            readInt
          else if word = "for" then
            forLoop (statement fuel)
          else
            assign
      | _ => refuse .statement

/-- Reads the statements after the first one, as long as there are any. -/
def others : Nat → Cursor (List Statement)
  | 0 => exhausted
  | fuel + 1 => do
      if ← goesOn then
        let next ← simple fuel
        return next :: (← others fuel)
      return []

/-- Reads a list of simple statements. -/
def statement : Nat → Cursor Statement
  | 0 => exhausted
  | fuel + 1 => do
      let first ← simple fuel
      return chain first (← others fuel)

end

/-- Reads a program, which is one statement up to the end of the text. -/
def program (fuel : Nat) : Cursor Statement := do
  let program ← statement fuel
  if ← isAtEnd then
    return program
  let token ← current
  throw (.refused (.trailing token.kind token.span))

end Cursor

namespace Token

/-- The place where the last token ends; a list without tokens ends at offset zero. -/
def lastStop (tokens : List Token) : Nat :=
  (tokens.getLast?.map fun token => token.span.stop).getD 0

/-- The array that a list of tokens is read from. -/
def closed (tokens : List Token) : Array Token :=
  if tokens.getLast?.map Token.kind = some .eof then
    tokens.toArray
  else
    tokens.toArray.push ⟨.eof, .empty (lastStop tokens)⟩

end Token

/-- The reading of a list of tokens. -/
def Cursor.readAll (fuel : Nat) (tokens : List Token) :
    Option (Except CursorFault Statement × CursorState) :=
  (Cursor.program fuel).runFrom (Token.closed tokens) ⟨0, []⟩

end SlotLang
