import SlotLang.Machine.Run
import SlotLang.Proofs.SymbolTable

/-!
# Structured interpreters

A program can be run on its tree, without code, positions or a stack.  What is
left open is how a variable is kept: the interpreter is given a memory, and
hands it, with every access to a name, the table of the names declared at that
access.  A memory may keep one value for each slot, one for each name, or
something else.

The table at an access is the one of the place where the access stands in the
order of lowering: the first value of a declaration comes after the declared
name, and the test and the increment of a loop come after its body.

Loops need not end.  The bound `fuel` is on the number of rounds of each loop,
and using it up is an outcome apart from the others.

* `Memory` — how variables are read and written.
* `Execution` — how the execution of a statement goes.
* `Statement.exec` — the interpreter.
-/

namespace SlotLang

/-! ## Memories -/

/-- A way to keep variables in states of type `μ`.  Both operations are given
the table at the access; they may fail. -/
structure Memory (μ : Type) where
  /-- The value of a name. -/
  read : SymbolTable → String → μ → Option Value
  /-- The state with another value for a name. -/
  write : SymbolTable → String → Value → μ → Option μ

namespace Memory

variable {μ : Type} (memory : Memory μ)

/-- The value of an expression. -/
def value (table : SymbolTable) (expression : Expression) (state : μ) : Option Value :=
  match expression with
  | .string text _ => some (.string text)
  | .integer n _ => some (.int n)
  | .name name _ => memory.read table name state
  | .binary _ _ _ _ => none

/-- The integer that an expression has for a value. -/
def integer (table : SymbolTable) (expression : Expression) (state : μ) : Option Int32 :=
  match memory.value table expression state with
  | some (.int n) => some n
  | _ => none

/-- The integer under a name. -/
def readInteger (table : SymbolTable) (name : String) (state : μ) : Option Int32 :=
  match memory.read table name state with
  | some (.int n) => some n
  | _ => none

/-- Stores the value of an expression under a name. -/
def assign (table : SymbolTable) (name : String) (expression : Expression) (state : μ) :
    Option μ :=
  (memory.value table expression state).bind fun value => memory.write table name value state

/-- Whether the index of a loop is less than the bound. -/
def test (table : SymbolTable) (index : String) (upper : Expression) (state : μ) :
    Option Bool :=
  match memory.readInteger table index state, memory.integer table upper state with
  | some n, some bound => some (n < bound)
  | _, _ => none

/-- Adds one to the index of a loop. -/
def increment (table : SymbolTable) (index : String) (state : μ) : Option μ :=
  (memory.readInteger table index state).bind fun n =>
    memory.write table index (.int (n + 1)) state

end Memory

/-! ## Executions -/

/-- How the execution of a statement goes, with variables in a state of type
`μ` and a host in a state of type `σ`. -/
inductive Execution (μ σ : Type) where
  /-- The statement was carried out. -/
  | done (memory : μ) (host : σ)
  /-- The run fails. -/
  | failed (error : RuntimeError) (host : σ)
  /-- An access to a variable failed, or its value is of the wrong type. -/
  | stuck (host : σ)
  /-- A loop used up the bound on the number of its rounds. -/
  | outOfFuel (host : σ)

namespace Execution

variable {μ σ : Type}

/-- The state of the host at the end. -/
def host : Execution μ σ → σ
  | done _ host => host
  | failed _ host => host
  | stuck host => host
  | outOfFuel host => host

/-- One execution, and if it was carried out the next one after it. -/
def andThen (first : Execution μ σ) (next : μ → σ → Execution μ σ) : Execution μ σ :=
  match first with
  | done memory host => next memory host
  | failed error host => failed error host
  | stuck host => stuck host
  | outOfFuel host => outOfFuel host

/-- An access to a variable, which leaves the host alone. -/
def access (host : σ) : Option μ → Execution μ σ
  | some memory => done memory host
  | none => stuck host

/-- What the answer of the host to a written line leads to. -/
def afterWrite (memory : μ) : Except String Unit × σ → Execution μ σ
  | (.ok (), host) => done memory host
  | (.error reason, host) => failed (.hostFailure reason) host

/-- What the answer of the host to a request for a line leads to: the integer
that the line spells is stored. -/
def afterRead (store : Int32 → Option μ) : Except String (Option String) × σ → Execution μ σ
  | (.ok (some line), host) =>
      match parseInteger line with
      | some n => access host (store n)
      | none => failed (.invalidInteger line) host
  | (.ok none, host) => failed .endOfInput host
  | (.error reason, host) => failed (.hostFailure reason) host

/-- The rounds of a loop, as long as the test holds. -/
def rounds (test : μ → Option Bool) (round : μ → σ → Execution μ σ) :
    (fuel : Nat) → μ → σ → Execution μ σ
  | fuel, memory, host =>
      match test memory with
      | none => stuck host
      | some false => done memory host
      | some true =>
          match fuel with
          | 0 => outOfFuel host
          | fuel + 1 => (round memory host).andThen (rounds test round fuel)

end Execution

/-- The line that is written for a value: a string as it is, an integer as its
decimal text. -/
def Value.line : Value → String
  | int n => Text.Decimal.ofInt32 n
  | string text => text

/-- The execution of a statement that begins with the given table. -/
def Statement.exec {μ σ : Type} (memory : Memory μ) (host : Host σ) (fuel : Nat) :
    Statement → SymbolTable → μ → σ → Execution μ σ
  | sequence first second _, table, state, h =>
      (first.exec memory host fuel table state h).andThen
        (second.exec memory host fuel (first.tableAfter table))
  | declare name value _, table, state, h =>
      .access h (memory.assign (table.declareValue name value) name value state)
  | assign name value _, table, state, h => .access h (memory.assign table name value state)
  | print value _, table, state, h =>
      match memory.value table value state with
      | some v => .afterWrite state (host.write v.line h)
      | none => .stuck h
  | readInt name _, table, state, h =>
      .afterRead (fun n => memory.write table name (.int n) state) (host.read h)
  | forLoop index lower upper body _, table, state, h =>
      let before := table.declareIndex index
      -- The test and the increment see what the body declares, also in the first round.
      let after := body.tableAfter before
      (Execution.access h (memory.assign before index lower state)).andThen
        (Execution.rounds (memory.test after index upper)
          (fun state h => (body.exec memory host fuel before state h).andThen
            fun state h => .access h (memory.increment after index state))
          fuel)

end SlotLang
