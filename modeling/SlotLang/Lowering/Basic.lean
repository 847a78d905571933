import SlotLang.Assembly.Directive
import SlotLang.Lowering.Error
import SlotLang.Statement.Basic

/-!
# From a program to directives

Lowering walks a program once, in text order, with a table of the names
declared so far.  There is one table for the whole program: a loop body is no
scope of its own, and a second declaration of a name gives it a new slot from
then on.  Types are checked on the way, so an error may come after directives
that were already emitted.

The order of the walk decides what a name means.  The value of a declaration
is lowered after its own slot exists, and the increment and the test of a loop
are lowered after the body.

* `Scope` — the table, and how many slots and labels exist.
* `Emission` — directives, and the scope after them or the error that ended them.
* `Statement.emission` — what a statement emits in a scope.
* `Statement.lower` — what a whole program emits.
-/

namespace SlotLang

/-- What is known of a declared name. -/
structure Symbol where
  /-- The slot that holds its value. -/
  slot : UInt32
  /-- The type of the slot. -/
  type : ValueType
deriving DecidableEq, Repr

/-- The state of the walk. -/
structure Scope where
  /-- The declared names, the latest declaration first. -/
  symbols : List (String × Symbol)
  /-- The number of slots declared so far. -/
  slots : Nat
  /-- The number of labels defined so far. -/
  labels : Nat
deriving DecidableEq, Repr

namespace Scope

/-- The scope at the start of a program. -/
def empty : Scope where
  symbols := []
  slots := 0
  labels := 0

/-- The symbol of a name, if the name is declared. -/
def find? (scope : Scope) (name : String) : Option Symbol :=
  scope.symbols.lookup name

/-- The symbol of a name used at a place. -/
def require (scope : Scope) (name : String) (span : Span) : Except LoweringError Symbol :=
  match scope.find? name with
  | some symbol => .ok symbol
  | none => .error (.undeclared name span)

/-- The type of an expression. -/
def infer (scope : Scope) : Expression → Except LoweringError ValueType
  | .string _ _ => .ok .string
  | .integer _ _ => .ok .int
  | .name name span => (scope.require name span).map Symbol.type
  | .binary _ _ _ span => .error (.unsupported .binaryType span)

end Scope

/-- What a part of a program emits: its directives, and the scope after them
or the error that ended the walk. -/
structure Emission where
  /-- The directives, in order. -/
  directives : List Directive
  /-- How the walk went on. -/
  result : Except LoweringError Scope

namespace Emission

/-- Directives that leave a scope behind. -/
def emit (directives : List Directive) (scope : Scope) : Emission :=
  ⟨directives, .ok scope⟩

/-- An error before any directive. -/
def fail (error : LoweringError) : Emission :=
  ⟨[], .error error⟩

/-- One emission, and if it went well the next one after it. -/
def andThen (first : Emission) (next : Scope → Emission) : Emission :=
  match first.result with
  | .error error => ⟨first.directives, .error error⟩
  | .ok scope =>
      let second := next scope
      ⟨first.directives ++ second.directives, second.result⟩

@[simp] theorem emit_andThen (directives : List Directive) (scope : Scope)
    (next : Scope → Emission) :
    (emit directives scope).andThen next =
      ⟨directives ++ (next scope).directives, (next scope).result⟩ := rfl

@[simp] theorem fail_andThen (error : LoweringError) (next : Scope → Emission) :
    (fail error).andThen next = fail error := rfl

/-- Emissions may be grouped in either way. -/
theorem andThen_assoc (first : Emission) (next after : Scope → Emission) :
    (first.andThen next).andThen after =
      first.andThen fun scope => (next scope).andThen after := by
  obtain ⟨directives, result⟩ := first
  cases result with
  | error error => rfl
  | ok scope =>
      cases hnext : (next scope).result with
      | error error => simp [andThen, hnext]
      | ok scope' => simp [andThen, hnext]

/-- A value from the scope, and if there is one what it leads to. -/
def given {α : Type} (value : Except LoweringError α) (next : α → Emission) : Emission :=
  match value with
  | .error error => fail error
  | .ok value => next value

end Emission

namespace Scope

/-- Gives a name a new slot. -/
def introduce (name : String) (type : ValueType) (scope : Scope) : Emission :=
  .emit [.declareLocal type]
    { scope with
      symbols := (name, ⟨UInt32.ofNat scope.slots, type⟩) :: scope.symbols
      slots := scope.slots + 1 }

/-- Converts a delivered value on the stack to the expected type. -/
def coerce (delivered expected : ValueType) (span : Span) (scope : Scope) : Emission :=
  if delivered = expected then
    .emit [] scope
  else if delivered.fits expected then
    .emit [.intToString] scope
  else
    .fail (.noCoercion delivered expected span)

/-- Pushes the value of an expression as a value of the expected type. -/
def push (expression : Expression) (expected : ValueType) (scope : Scope) : Emission :=
  match expression with
  | .string text span =>
      (Emission.emit [.loadConstant (.string text)] scope).andThen
        (coerce .string expected span)
  | .integer value span =>
      (Emission.emit [.loadConstant (.int value)] scope).andThen
        (coerce .int expected span)
  | .name name span =>
      Emission.given (scope.require name span) fun symbol =>
        (Emission.emit [.loadLocal symbol.slot] scope).andThen
          (coerce symbol.type expected span)
  | .binary _ _ _ span => .fail (.unsupported .binaryValue span)

/-- Pops a value of the given type into the slot of a name. -/
def popInto (name : String) (type : ValueType) (span : Span) (scope : Scope) : Emission :=
  Emission.given (scope.require name span) fun symbol =>
    if symbol.type = type then
      .emit [.storeLocal symbol.slot] scope
    else
      .fail (.typeMismatch name symbol.type type span)

/-- Stores the value of an expression under a name of the same type. -/
def assign (name : String) (value : Expression) (scope : Scope) : Emission :=
  Emission.given (scope.infer value) fun type =>
    (scope.push value type).andThen (popInto name type value.span)

/-- Gives the index of a loop a slot, if it has none. -/
def declareIndex (index : String) (lower : Expression) (scope : Scope) : Emission :=
  match scope.find? index with
  | some _ => .emit [] scope
  | none => Emission.given (scope.infer lower) fun _ => scope.introduce index .int

/-- The two labels of a loop and the jump to its test.  The test has the first
of the labels and the body the second. -/
def openLoop (scope : Scope) : Emission :=
  .emit
    [.defineLabel, .jump (UInt32.ofNat scope.labels),
      .defineLabel, .markLabel (UInt32.ofNat (scope.labels + 1))]
    { scope with labels := scope.labels + 2 }

/-- The increment of a loop index. -/
def increment (index : String) (span : Span) (scope : Scope) : Emission :=
  Emission.given (scope.require index span) fun symbol =>
    (Emission.emit [.loadLocal symbol.slot, .loadConstant (.int 1), .addInt] scope).andThen
      (popInto index .int span)

/-- The test of a loop, which goes back to the body while the index is less
than the bound.  `label` is the label of the test. -/
def test (label : Nat) (index : String) (upper : Expression) (span : Span)
    (scope : Scope) : Emission :=
  (Emission.emit [.markLabel (UInt32.ofNat label)] scope).andThen fun scope =>
    Emission.given (scope.require index span) fun symbol =>
      (Emission.emit [.loadLocal symbol.slot] scope).andThen fun scope =>
        (scope.push upper .int).andThen
          (Emission.emit [.branchIfLess (UInt32.ofNat (label + 1))])

/-- What a loop emits around its body. -/
def loop (index : String) (lower upper : Expression) (span : Span)
    (body : Scope → Emission) (scope : Scope) : Emission :=
  (scope.declareIndex index lower).andThen fun scope =>
    (scope.assign index lower).andThen fun scope =>
      let label := scope.labels
      scope.openLoop.andThen fun scope =>
        (body scope).andThen fun scope =>
          (scope.increment index span).andThen (test label index upper span)

end Scope

namespace Statement

/-- What a statement emits in a scope. -/
def emission : Statement → Scope → Emission
  | sequence first second _, scope =>
      (first.emission scope).andThen second.emission
  | declare name value _, scope =>
      Emission.given (scope.infer value) fun type =>
        (scope.introduce name type).andThen (Scope.assign name value)
  | assign name value _, scope => scope.assign name value
  | print value _, scope =>
      (scope.push value .string).andThen (Emission.emit [.callHost .writeLine])
  | readInt name span, scope =>
      (Emission.emit [.callHost .readLine, .callHost .parseInt] scope).andThen
        (Scope.popInto name .int span)
  | forLoop index lower upper body span, scope =>
      scope.loop index lower upper span body.emission

/-- What a whole program emits. -/
def lower (program : Statement) : Emission :=
  program.emission .empty

end Statement

end SlotLang
