import SlotLang.Proofs.LoweredCode

/-!
# Programs under other names and at other places

Lowering asks of two names only whether they are the same, and of a span nothing at all.
So a program with other names and other spans is lowered in step with the first one: the
directives are the same, and so is the error, up to the names and spans in it.  Names may
change in any way that keeps distinct names distinct; spans may change in any way.

* `Statement.relabel` — the program with every name and every span replaced.
* `Emission.relabel` — what is emitted, with the names and spans behind it replaced.
* `Statement.emission_relabel` — a relabeled statement emits what the statement emits.
* `Statement.compile_rename` — a module does not depend on the names of variables.
-/

namespace SlotLang

/-! ## Relabeling -/

/-- The expression with its names and its spans replaced. -/
def Expression.relabel (names : String → String) (spans : Span → Span) : Expression → Expression
  | string text span => string text (spans span)
  | integer value span => integer value (spans span)
  | name text span => name (names text) (spans span)
  | binary operator left right span =>
      binary operator (left.relabel names spans) (right.relabel names spans) (spans span)

/-- The statement with its names and its spans replaced. -/
def Statement.relabel (names : String → String) (spans : Span → Span) : Statement → Statement
  | sequence first second span =>
      sequence (first.relabel names spans) (second.relabel names spans) (spans span)
  | declare name value span => declare (names name) (value.relabel names spans) (spans span)
  | assign name value span => assign (names name) (value.relabel names spans) (spans span)
  | print value span => print (value.relabel names spans) (spans span)
  | readInt name span => readInt (names name) (spans span)
  | forLoop index lower upper body span =>
      forLoop (names index) (lower.relabel names spans) (upper.relabel names spans)
        (body.relabel names spans) (spans span)

/-- The error with its name and its span replaced. -/
def LoweringError.relabel (names : String → String) (spans : Span → Span) :
    LoweringError → LoweringError
  | undeclared name span => undeclared (names name) (spans span)
  | typeMismatch name declared found span =>
      typeMismatch (names name) declared found (spans span)
  | noCoercion delivered expected span => noCoercion delivered expected (spans span)
  | unsupported construct span => unsupported construct (spans span)

/-- The error with its span replaced. -/
def LexError.mapSpan (spans : Span → Span) : LexError → LexError
  | unrecognized character span => unrecognized character (spans span)
  | unterminated span => unterminated (spans span)
  | overflow literal span => overflow literal (spans span)

/-- The error with its span replaced. -/
def ParseError.mapSpan (spans : Span → Span) : ParseError → ParseError
  | unexpected expected found span => unexpected expected found (spans span)
  | unexpectedEnd expected span => unexpectedEnd expected (spans span)
  | trailing found span => trailing found (spans span)

/-- The error with its name and its span replaced.  Only lowering knows of variables: what
the earlier stages report is text. -/
def CompileError.relabel (names : String → String) (spans : Span → Span) :
    CompileError → CompileError
  | lexical error => lexical (error.mapSpan spans)
  | parse error => parse (error.mapSpan spans)
  | lowering error => lowering (error.relabel names spans)
  | assembly error => assembly error

/-- The scope in which the declared names are replaced. -/
def Scope.relabel (names : String → String) (scope : Scope) : Scope :=
  { scope with symbols := scope.symbols.map fun entry => (names entry.1, entry.2) }

/-- The same directives, with the names and spans replaced in what follows them. -/
def Emission.relabel (names : String → String) (spans : Span → Span) (emission : Emission) :
    Emission where
  directives := emission.directives
  result := (emission.result.map (Scope.relabel names)).mapError
    (LoweringError.relabel names spans)

theorem Expression.span_relabel (names : String → String) (spans : Span → Span)
    (value : Expression) : (value.relabel names spans).span = spans value.span := by
  cases value <;> rfl

namespace Emission

variable {names : String → String} {spans : Span → Span}

theorem relabel_andThen {first : Emission} {next next' : Scope → Emission}
    (hnext : ∀ scope, next' (scope.relabel names) = (next scope).relabel names spans) :
    (first.relabel names spans).andThen next' = (first.andThen next).relabel names spans := by
  obtain ⟨directives, result⟩ := first
  cases result with
  | error error => rfl
  | ok scope =>
      simp only [relabel, andThen, Except.map, mapError_ok]
      rw [hnext]
      rfl

theorem relabel_emit_andThen {directives : List Directive} {scope : Scope}
    {next next' : Scope → Emission}
    (hnext : next' (scope.relabel names) = (next scope).relabel names spans) :
    (emit directives (scope.relabel names)).andThen next' =
      ((emit directives scope).andThen next).relabel names spans := by
  rw [emit_andThen, hnext]
  rfl

theorem relabel_given {α : Type} {value : Except LoweringError α} {next next' : α → Emission}
    (hnext : ∀ a, next' a = (next a).relabel names spans) :
    given (value.mapError (LoweringError.relabel names spans)) next' =
      (given value next).relabel names spans := by
  cases value with
  | error error => rfl
  | ok a => exact hnext a

end Emission

/-! ## Lowering in step -/

section

variable {names : String → String} (hnames : Function.Injective names) (spans : Span → Span)

namespace Scope

variable (scope : Scope)

include hnames in
/-- A name stands for the same slot in the relabeled table: no other name was taken to the
same one. -/
theorem find?_relabel (name : String) :
    (scope.relabel names).find? (names name) = scope.find? name := by
  obtain ⟨symbols, slots, labels⟩ := scope
  simp only [find?, relabel]
  induction symbols with
  | nil => rfl
  | cons entry rest ih =>
      obtain ⟨other, symbol⟩ := entry
      rw [List.map_cons, List.lookup_cons, List.lookup_cons, ih]
      by_cases hname : name = other
      · rw [hname, beq_self_eq_true, beq_self_eq_true]
      · have hne : names name ≠ names other := fun heq => hname (hnames heq)
        rw [beq_eq_false_iff_ne.mpr hname, beq_eq_false_iff_ne.mpr hne]

include hnames

theorem require_relabel (name : String) (span : Span) :
    (scope.relabel names).require (names name) (spans span) =
      (scope.require name span).mapError (LoweringError.relabel names spans) := by
  unfold require
  rw [find?_relabel hnames]
  cases scope.find? name <;> rfl

theorem infer_relabel (value : Expression) :
    (scope.relabel names).infer (value.relabel names spans) =
      (scope.infer value).mapError (LoweringError.relabel names spans) := by
  cases value with
  | string text span => rfl
  | integer n span => rfl
  | name name span =>
      simp only [Expression.relabel, infer]
      rw [require_relabel hnames]
      cases scope.require name span <;> rfl
  | binary operator left right span => rfl

omit hnames in
theorem coerce_relabel (delivered expected : ValueType) (span : Span) :
    coerce delivered expected (spans span) (scope.relabel names) =
      (coerce delivered expected span scope).relabel names spans := by
  unfold coerce
  split
  · rfl
  · split <;> rfl

theorem push_relabel (value : Expression) (expected : ValueType) :
    (scope.relabel names).push (value.relabel names spans) expected =
      (scope.push value expected).relabel names spans := by
  cases value with
  | string text span =>
      exact Emission.relabel_emit_andThen (coerce_relabel spans scope .string expected span)
  | integer n span =>
      exact Emission.relabel_emit_andThen (coerce_relabel spans scope .int expected span)
  | name name span =>
      simp only [Expression.relabel, push]
      rw [require_relabel hnames]
      refine Emission.relabel_given fun symbol => ?_
      exact Emission.relabel_emit_andThen (coerce_relabel spans scope symbol.type expected span)
  | binary operator left right span => rfl

theorem popInto_relabel (name : String) (type : ValueType) (span : Span) :
    (scope.relabel names).popInto (names name) type (spans span) =
      (scope.popInto name type span).relabel names spans := by
  unfold popInto
  rw [require_relabel hnames]
  refine Emission.relabel_given fun symbol => ?_
  split <;> rfl

theorem assign_relabel (name : String) (value : Expression) :
    (scope.relabel names).assign (names name) (value.relabel names spans) =
      (scope.assign name value).relabel names spans := by
  unfold assign
  rw [infer_relabel hnames, Expression.span_relabel]
  refine Emission.relabel_given fun type => ?_
  rw [push_relabel hnames]
  exact Emission.relabel_andThen fun scope =>
    popInto_relabel hnames spans scope name type value.span

omit hnames in
theorem introduce_relabel (name : String) (type : ValueType) :
    (scope.relabel names).introduce (names name) type =
      (scope.introduce name type).relabel names spans := rfl

theorem declareIndex_relabel (index : String) (lower : Expression) :
    (scope.relabel names).declareIndex (names index) (lower.relabel names spans) =
      (scope.declareIndex index lower).relabel names spans := by
  unfold declareIndex
  rw [find?_relabel hnames]
  cases scope.find? index with
  | some symbol => rfl
  | none =>
      simp only [infer_relabel hnames]
      exact Emission.relabel_given fun _ => introduce_relabel spans scope index .int

omit hnames in
theorem openLoop_relabel :
    (scope.relabel names).openLoop = scope.openLoop.relabel names spans := rfl

theorem increment_relabel (index : String) (span : Span) :
    (scope.relabel names).increment (names index) (spans span) =
      (scope.increment index span).relabel names spans := by
  unfold increment
  rw [require_relabel hnames]
  refine Emission.relabel_given fun symbol => ?_
  exact Emission.relabel_emit_andThen (popInto_relabel hnames spans scope index .int span)

theorem test_relabel (label : Nat) (index : String) (upper : Expression) (span : Span) :
    (scope.relabel names).test label (names index) (upper.relabel names spans) (spans span) =
      (scope.test label index upper span).relabel names spans := by
  refine Emission.relabel_emit_andThen ?_
  rw [require_relabel hnames]
  refine Emission.relabel_given fun symbol => ?_
  refine Emission.relabel_emit_andThen ?_
  rw [push_relabel hnames]
  exact Emission.relabel_andThen fun scope => rfl

end Scope

namespace Statement

include hnames

/-- A relabeled statement emits what the statement emits. -/
theorem emission_relabel (statement : Statement) (scope : Scope) :
    (statement.relabel names spans).emission (scope.relabel names) =
      (statement.emission scope).relabel names spans := by
  induction statement generalizing scope with
  | sequence first second span ihfirst ihsecond =>
      simp only [relabel, emission]
      rw [ihfirst]
      exact Emission.relabel_andThen ihsecond
  | declare name value span =>
      simp only [relabel, emission]
      rw [Scope.infer_relabel hnames]
      refine Emission.relabel_given fun type => ?_
      rw [Scope.introduce_relabel spans]
      exact Emission.relabel_andThen fun scope => scope.assign_relabel hnames spans name value
  | assign name value span => exact scope.assign_relabel hnames spans name value
  | print value span =>
      simp only [relabel, emission]
      rw [Scope.push_relabel hnames]
      exact Emission.relabel_andThen fun scope => rfl
  | readInt name span =>
      exact Emission.relabel_emit_andThen (scope.popInto_relabel hnames spans name .int span)
  | forLoop index lower upper body span ih =>
      -- The walk through a loop has five stages; each hands a relabeled scope to the next.
      simp only [relabel, emission, Scope.loop]
      rw [Scope.declareIndex_relabel hnames]
      refine Emission.relabel_andThen fun scope => ?_
      rw [Scope.assign_relabel hnames]
      refine Emission.relabel_andThen fun scope => ?_
      rw [Scope.openLoop_relabel spans]
      refine Emission.relabel_andThen fun inner => ?_
      rw [ih]
      refine Emission.relabel_andThen fun after => ?_
      rw [Scope.increment_relabel hnames]
      exact Emission.relabel_andThen fun last =>
        last.test_relabel hnames spans scope.labels index upper span

/-- A relabeled program has the same module, or the relabeled error. -/
theorem compile_relabel (program : Statement) (name : String) :
    (program.relabel names spans).compile name =
      (program.compile name).mapError (CompileError.relabel names spans) := by
  have hemission : (program.relabel names spans).lower = program.lower.relabel names spans :=
    program.emission_relabel hnames spans .empty
  unfold compile Emission.toModule
  rw [hemission]
  obtain ⟨directives, result⟩ := program.lower
  cases result with
  | error error => rfl
  | ok scope =>
      simp only [Emission.relabel, Except.map, mapError_ok]
      -- An error of assembly mentions labels only.
      cases assemble name entryPoint directives <;> rfl

end Statement

end

/-! ## Renaming -/

/-- The program with other names for its variables. -/
def Statement.rename (names : String → String) (program : Statement) : Statement :=
  program.relabel names id

/-- The error with another name for the variable that it is about. -/
def CompileError.rename (names : String → String) (error : CompileError) : CompileError :=
  error.relabel names id

/-- A module does not depend on the names of the variables.  If distinct names stay
distinct, the program emits the same directives, up to its end or up to the error, and has
the same module or the same error about the renamed variable. -/
theorem Statement.compile_rename {names : String → String} (hnames : Function.Injective names)
    (program : Statement) (name : String) :
    (program.rename names).lower.directives = program.lower.directives ∧
      (program.rename names).compile name =
        (program.compile name).mapError (CompileError.rename names) := by
  have hemission : (program.rename names).lower = program.lower.relabel names id :=
    program.emission_relabel hnames id .empty
  exact ⟨by rw [hemission]; rfl, program.compile_relabel hnames id name⟩

/-- The names `x` and `i` exchanged. -/
def exchange (name : String) : String :=
  if name = "x" then "i" else if name = "i" then "x" else name

theorem exchange_injective : Function.Injective exchange := by
  intro a b hab
  unfold exchange at hab
  grind

/-- The program `var x = 2; for i = 0 to x do var x = i end`. -/
def Statement.shrinking : Statement :=
  .sequence (.declare "x" (.integer 2 ⟨8, 9⟩) ⟨0, 9⟩)
    (.forLoop "i" (.integer 0 ⟨19, 20⟩) (.name "x" ⟨24, 25⟩)
      (.declare "x" (.name "i" ⟨37, 38⟩) ⟨29, 38⟩) ⟨11, 42⟩) ⟨0, 42⟩

/-- The program `var x = 2; for i = 0 to x do i = "s" end`. -/
def Statement.clashing : Statement :=
  .sequence (.declare "x" (.integer 2 ⟨8, 9⟩) ⟨0, 9⟩)
    (.forLoop "i" (.integer 0 ⟨19, 20⟩) (.name "x" ⟨24, 25⟩)
      (.assign "i" (.string "s" ⟨33, 36⟩) ⟨29, 36⟩) ⟨11, 40⟩) ⟨0, 40⟩

/-- The first program has the same module with `x` and `i` exchanged, and the error of the
second is about `x` in place of `i`. -/
theorem Statement.exchanged_compile_rename :
    Function.Injective exchange ∧
      (∃ m, shrinking.compile "test" = .ok m ∧
        (shrinking.rename exchange).compile "test" = .ok m) ∧
      clashing.compile "test" =
        .error (.lowering (.typeMismatch "i" .int .string ⟨33, 36⟩)) ∧
      (clashing.rename exchange).compile "test" =
        .error (.lowering (.typeMismatch "x" .int .string ⟨33, 36⟩)) := by
  obtain ⟨m, hshrinking⟩ : ∃ m, shrinking.compile "test" = .ok m :=
    exists_eq_ok_of_toOption (by decide +kernel)
  have hclashing : clashing.compile "test" =
      .error (.lowering (.typeMismatch "i" .int .string ⟨33, 36⟩)) := rfl
  refine ⟨exchange_injective, ⟨m, hshrinking, ?_⟩, hclashing, ?_⟩
  · rw [(compile_rename exchange_injective shrinking "test").2, hshrinking]
    rfl
  · rw [(compile_rename exchange_injective clashing "test").2, hclashing]
    rfl

end SlotLang
