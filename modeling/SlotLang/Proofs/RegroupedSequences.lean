import SlotLang.Compile
import SlotLang.Proofs.Results

/-!
# Sequences may be grouped in any way

A sequence has two parts, so a longer one can be nested in many ways.  None of this reaches
the code: lowering depends only on the statements in the order in which they are met, at
every depth of loops.  `Statement.flatten` lists them, with lists for the bodies of loops, and
drops the sequences with their spans.

* `FlatStatement` — statements without sequences.
* `Statement.flatten` — the statements of a program in order.
* `FlatStatement.emitAll` — what such a list emits.
* `Statement.emission_eq_emitAll` — a statement emits what its list emits.
* `Statement.compile_eq_of_flatten` — programs with equal lists are compiled alike.
-/

namespace SlotLang

/-- A statement that is no sequence; the body of a loop is a list of such statements. -/
inductive FlatStatement where
  /-- A new variable and its first value. -/
  | declare (name : String) (value : Expression) (span : Span)
  /-- A new value for a variable. -/
  | assign (name : String) (value : Expression) (span : Span)
  /-- A line written. -/
  | print (value : Expression) (span : Span)
  /-- A line read as an integer into a variable. -/
  | readInt (name : String) (span : Span)
  /-- A loop around the statements of its body. -/
  | forLoop (index : String) (lower upper : Expression) (body : List FlatStatement) (span : Span)

/-- The statements of a program in order, at every depth of its loops. -/
def Statement.flatten : Statement → List FlatStatement
  | sequence first second _ => first.flatten ++ second.flatten
  | declare name value span => [.declare name value span]
  | assign name value span => [.assign name value span]
  | print value span => [.print value span]
  | readInt name span => [.readInt name span]
  | forLoop index lower upper body span => [.forLoop index lower upper body.flatten span]

/-! ## What a list of statements emits -/

mutual

/-- What a statement of a list emits in a scope. -/
def FlatStatement.emission : FlatStatement → Scope → Emission
  | declare name value span => (Statement.declare name value span).emission
  | assign name value span => (Statement.assign name value span).emission
  | print value span => (Statement.print value span).emission
  | readInt name span => (Statement.readInt name span).emission
  | forLoop index lower upper body span =>
      Scope.loop index lower upper span (FlatStatement.emitAll body)

/-- What the statements of a list emit one after the other. -/
def FlatStatement.emitAll : List FlatStatement → Scope → Emission
  | [], scope => .emit [] scope
  | first :: rest, scope => (first.emission scope).andThen (FlatStatement.emitAll rest)

end

theorem Emission.andThen_emit_nil (emission : Emission) :
    emission.andThen (emit []) = emission := by
  obtain ⟨directives, result⟩ := emission
  cases result with
  | error error => rfl
  | ok scope => simp [andThen, emit]

namespace FlatStatement

theorem emitAll_singleton (statement : FlatStatement) :
    emitAll [statement] = statement.emission := by
  funext scope
  have hnil : emitAll [] = Emission.emit [] := by
    funext scope
    rw [emitAll]
  rw [emitAll, hnil, Emission.andThen_emit_nil]

/-- Two lists in a row emit what the first emits, and then the second. -/
theorem emitAll_append (first second : List FlatStatement) (scope : Scope) :
    emitAll (first ++ second) scope = (emitAll first scope).andThen (emitAll second) := by
  induction first generalizing scope with
  | nil =>
      rw [List.nil_append, emitAll, Emission.emit_andThen, List.nil_append]
  | cons statement rest ih =>
      rw [List.cons_append, emitAll, emitAll, Emission.andThen_assoc]
      exact congrArg _ (funext ih)

end FlatStatement

namespace Statement

/-- A statement emits what the list of its statements emits, so lowering sees nothing of how
sequences are nested. -/
theorem emission_eq_emitAll (statement : Statement) :
    statement.emission = FlatStatement.emitAll statement.flatten := by
  induction statement with
  | sequence first second span ihfirst ihsecond =>
      funext scope
      rw [flatten, FlatStatement.emitAll_append, ← ihfirst, ← ihsecond]
      rfl
  | declare name value span =>
      rw [flatten, FlatStatement.emitAll_singleton, FlatStatement.emission]
  | assign name value span =>
      rw [flatten, FlatStatement.emitAll_singleton, FlatStatement.emission]
  | print value span => rw [flatten, FlatStatement.emitAll_singleton, FlatStatement.emission]
  | readInt name span => rw [flatten, FlatStatement.emitAll_singleton, FlatStatement.emission]
  | forLoop index lower upper body span ih =>
      -- The body is met in a scope of its own, so its emissions are equal as functions.
      rw [flatten, FlatStatement.emitAll_singleton, FlatStatement.emission, ← ih]
      rfl

/-- Sequences may be grouped in any way.  Two programs that have the same statements in the
same order, at every depth of their loops, emit the same directives and end with the same
scope or the same error, at the same place; and they have the same module, or fail with the
same error. -/
theorem compile_eq_of_flatten {program other : Statement}
    (hflatten : program.flatten = other.flatten) (name : String) :
    program.lower.directives = other.lower.directives ∧
      program.lower.result = other.lower.result ∧ program.compile name = other.compile name := by
  have hlower : program.lower = other.lower := by
    unfold lower
    rw [emission_eq_emitAll, emission_eq_emitAll, hflatten]
  refine ⟨by rw [hlower], by rw [hlower], ?_⟩
  unfold compile
  rw [hlower]

/-- A declaration, a loop over three statements and a last statement, nested to the left. -/
def leftGrouped (last : Statement) : Statement :=
  .sequence
    (.sequence (.declare "x" (.integer 1 ⟨8, 9⟩) ⟨0, 9⟩)
      (.forLoop "i" (.integer 0 ⟨19, 20⟩) (.integer 2 ⟨24, 25⟩)
        (.sequence
          (.sequence (.print (.name "i" ⟨35, 36⟩) ⟨29, 36⟩) (.print (.name "x" ⟨44, 45⟩) ⟨38, 45⟩)
            ⟨29, 45⟩)
          (.assign "x" (.name "i" ⟨51, 52⟩) ⟨47, 52⟩) ⟨29, 52⟩) ⟨11, 56⟩) ⟨0, 56⟩)
    last ⟨0, 65⟩

/-- The same statements, nested to the right and without places for the sequences. -/
def rightGrouped (last : Statement) : Statement :=
  .sequence (.declare "x" (.integer 1 ⟨8, 9⟩) ⟨0, 9⟩)
    (.sequence
      (.forLoop "i" (.integer 0 ⟨19, 20⟩) (.integer 2 ⟨24, 25⟩)
        (.sequence (.print (.name "i" ⟨35, 36⟩) ⟨29, 36⟩)
          (.sequence (.print (.name "x" ⟨44, 45⟩) ⟨38, 45⟩)
            (.assign "x" (.name "i" ⟨51, 52⟩) ⟨47, 52⟩) (.empty 0)) (.empty 0)) ⟨11, 56⟩)
      last (.empty 0)) (.empty 0)

/-- Both have the same module, and both refuse a last statement with the same error. -/
theorem grouped_compile_eq :
    (∀ last, (leftGrouped last).flatten = (rightGrouped last).flatten) ∧
      (∃ m, (leftGrouped (.print (.name "x" ⟨64, 65⟩) ⟨58, 65⟩)).compile "test" = .ok m ∧
        (rightGrouped (.print (.name "x" ⟨64, 65⟩) ⟨58, 65⟩)).compile "test" = .ok m) ∧
      (rightGrouped (.print (.name "y" ⟨64, 65⟩) ⟨58, 65⟩)).compile "test" =
        .error (.lowering (.undeclared "y" ⟨64, 65⟩)) := by
  have hflatten : ∀ last, (leftGrouped last).flatten = (rightGrouped last).flatten := fun _ => rfl
  have hcompile : ∀ last, (rightGrouped last).compile "test" = (leftGrouped last).compile "test" :=
    fun last => (compile_eq_of_flatten (hflatten last) "test").2.2.symm
  obtain ⟨m, hm⟩ :
      ∃ m, (leftGrouped (.print (.name "x" ⟨64, 65⟩) ⟨58, 65⟩)).compile "test" = .ok m :=
    exists_eq_ok_of_toOption (by decide +kernel)
  refine ⟨hflatten, ⟨m, hm, ?_⟩, ?_⟩
  · rw [hcompile, hm]
  · rw [hcompile]
    rfl

end Statement

end SlotLang
