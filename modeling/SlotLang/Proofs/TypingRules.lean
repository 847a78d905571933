import SlotLang.Lowering.Error
import SlotLang.Statement.Basic

/-!
# Typing rules

The rules take the types of the declared names before a statement to those after it.
They know of no slots, labels and constants, and the order of their premises is the
order in which a program is read, with one exception: the bound of a loop and the
second look at its index come after the body.

* `Expression.HasType`, `Statement.Typed` — the rules.
* `Expression.Untypable`, `Statement.Refused` — the first premise that fails, and the
  error that says so.
-/

namespace SlotLang

/-! ## The rules -/

/-- The types of the declared names. -/
abbrev TypeEnv := String → Option ValueType

namespace TypeEnv

/-- No name is declared. -/
def empty : TypeEnv := fun _ => none

/-- The environment in which a name has a type. -/
def bind (env : TypeEnv) (name : String) (type : ValueType) : TypeEnv :=
  fun other => if other = name then some type else env other

/-- The environment inside a loop: an index that is not declared is an integer. -/
def withIndex (env : TypeEnv) (index : String) : TypeEnv :=
  match env index with
  | some _ => env
  | none => env.bind index .int

/-- A name is not of the given type, with the error that says so. -/
inductive Denies (env : TypeEnv) (name : String) (type : ValueType) (span : Span) :
    LoweringError → Prop
  | undeclared (hname : env name = none) : Denies env name type span (.undeclared name span)
  | mismatch {declared : ValueType} (hname : env name = some declared) (hne : declared ≠ type) :
      Denies env name type span (.typeMismatch name declared type span)

end TypeEnv

/-- The types of expressions. -/
inductive Expression.HasType (env : TypeEnv) : Expression → ValueType → Prop
  | string (text : String) (span : Span) : HasType env (.string text span) .string
  | integer (value : Int32) (span : Span) : HasType env (.integer value span) .int
  | name {name : String} {type : ValueType} (span : Span) (hname : env name = some type) :
      HasType env (.name name span) type

/-- An expression has no type, with the error that says so.  The error names the use of the
expression: its type or its value. -/
inductive Expression.Untypable (env : TypeEnv) (use : Construct) : Expression → LoweringError → Prop
  | name {name : String} (span : Span) (hname : env name = none) :
      Untypable env use (.name name span) (.undeclared name span)
  | binary (operator : BinaryOperator) (left right : Expression) (span : Span) :
      Untypable env use (.binary operator left right span) (.unsupported use span)

/-- A statement is well typed in an environment and leaves another one behind. -/
inductive Statement.Typed : TypeEnv → Statement → TypeEnv → Prop
  | sequence {env middle after : TypeEnv} {first second : Statement} (span : Span)
      (hfirst : Typed env first middle) (hsecond : Typed middle second after) :
      Typed env (.sequence first second span) after
  | declare {env : TypeEnv} {name : String} {value : Expression} {type : ValueType} (span : Span)
      (hvalue : value.HasType env type) :
      Typed env (.declare name value span) (env.bind name type)
  | assign {env : TypeEnv} {name : String} {value : Expression} {type : ValueType} (span : Span)
      (hvalue : value.HasType env type) (hname : env name = some type) :
      Typed env (.assign name value span) env
  | print {env : TypeEnv} {value : Expression} {type : ValueType} (span : Span)
      (hvalue : value.HasType env type) : Typed env (.print value span) env
  | readInt {env : TypeEnv} {name : String} (span : Span) (hname : env name = some .int) :
      Typed env (.readInt name span) env
  | forLoop {env after : TypeEnv} {index : String} {lower upper : Expression} {body : Statement}
      {type : ValueType} (span : Span) (hlower : lower.HasType env type)
      (hindex : env.withIndex index index = some type)
      (hbody : Typed (env.withIndex index) body after) (hcounted : after index = some .int)
      (hupper : upper.HasType after .int) :
      Typed env (.forLoop index lower upper body span) after

/-- The first premise of the typing rules that fails in a statement, with its error: the
premises before it hold. -/
inductive Statement.Refused : TypeEnv → Statement → LoweringError → Prop
  | first {env : TypeEnv} {first second : Statement} {error : LoweringError} (span : Span)
      (hfirst : Refused env first error) : Refused env (.sequence first second span) error
  | second {env middle : TypeEnv} {first second : Statement} {error : LoweringError} (span : Span)
      (hfirst : Typed env first middle) (hsecond : Refused middle second error) :
      Refused env (.sequence first second span) error
  | declare {env : TypeEnv} {name : String} {value : Expression} {error : LoweringError}
      (span : Span) (hvalue : value.Untypable env .binaryType error) :
      Refused env (.declare name value span) error
  | assignValue {env : TypeEnv} {name : String} {value : Expression} {error : LoweringError}
      (span : Span) (hvalue : value.Untypable env .binaryType error) :
      Refused env (.assign name value span) error
  | assignName {env : TypeEnv} {name : String} {value : Expression} {type : ValueType}
      {error : LoweringError} (span : Span) (hvalue : value.HasType env type)
      (hname : env.Denies name type value.span error) :
      Refused env (.assign name value span) error
  | print {env : TypeEnv} {value : Expression} {error : LoweringError} (span : Span)
      (hvalue : value.Untypable env .binaryValue error) : Refused env (.print value span) error
  | readInt {env : TypeEnv} {name : String} {error : LoweringError} (span : Span)
      (hname : env.Denies name .int span error) : Refused env (.readInt name span) error
  | lower {env : TypeEnv} {index : String} {lower upper : Expression} {body : Statement}
      {error : LoweringError} (span : Span) (hlower : lower.Untypable env .binaryType error) :
      Refused env (.forLoop index lower upper body span) error
  | index {env : TypeEnv} {index : String} {lower upper : Expression} {body : Statement}
      {type : ValueType} {error : LoweringError} (span : Span) (hlower : lower.HasType env type)
      (hindex : (env.withIndex index).Denies index type lower.span error) :
      Refused env (.forLoop index lower upper body span) error
  | body {env : TypeEnv} {index : String} {lower upper : Expression} {body : Statement}
      {type : ValueType} {error : LoweringError} (span : Span) (hlower : lower.HasType env type)
      (hindex : env.withIndex index index = some type)
      (hbody : Refused (env.withIndex index) body error) :
      Refused env (.forLoop index lower upper body span) error
  | counted {env after : TypeEnv} {index : String} {lower upper : Expression} {body : Statement}
      {type : ValueType} {error : LoweringError} (span : Span) (hlower : lower.HasType env type)
      (hindex : env.withIndex index index = some type)
      (hbody : Typed (env.withIndex index) body after)
      (hcounted : after.Denies index .int span error) :
      Refused env (.forLoop index lower upper body span) error
  | upper {env after : TypeEnv} {index : String} {lower upper : Expression} {body : Statement}
      {type : ValueType} {error : LoweringError} (span : Span) (hlower : lower.HasType env type)
      (hindex : env.withIndex index index = some type)
      (hbody : Typed (env.withIndex index) body after) (hcounted : after index = some .int)
      (hupper : upper.Untypable after .binaryValue error) :
      Refused env (.forLoop index lower upper body span) error
  | upperString {env after : TypeEnv} {index : String} {lower upper : Expression}
      {body : Statement} {type : ValueType} (span : Span) (hlower : lower.HasType env type)
      (hindex : env.withIndex index index = some type)
      (hbody : Typed (env.withIndex index) body after) (hcounted : after index = some .int)
      (hupper : upper.HasType after .string) :
      Refused env (.forLoop index lower upper body span) (.noCoercion .string .int upper.span)

/-! ## Types of expressions -/

namespace Expression

variable {env : TypeEnv}

theorem HasType.unique {value : Expression} {type other : ValueType}
    (htype : value.HasType env type) (hother : value.HasType env other) : type = other := by
  cases htype with
  | string text span => cases hother; rfl
  | integer n span => cases hother; rfl
  | name span hname =>
      cases hother with
      | name _ hother => exact Option.some.inj (hname.symm.trans hother)

/-- The value of a declaration has the same type once its own name has it. -/
theorem HasType.bind {value : Expression} {type : ValueType} (htype : value.HasType env type)
    (name : String) : value.HasType (env.bind name type) type := by
  cases htype with
  | string text span => exact .string text span
  | integer n span => exact .integer n span
  | @name other _ span hother =>
      refine .name span ?_
      unfold TypeEnv.bind
      split
      · rfl
      · exact hother

/-- What has a type keeps it when the index of a loop is declared: an index that is
declared anew had none. -/
theorem HasType.withIndex {value : Expression} {type : ValueType} (htype : value.HasType env type)
    (index : String) : value.HasType (env.withIndex index) type := by
  unfold TypeEnv.withIndex
  split
  next => exact htype
  next hindex =>
      cases htype with
      | string text span => exact .string text span
      | integer n span => exact .integer n span
      | @name other _ span hother =>
          have hne : other ≠ index := by
            rintro rfl
            rw [hindex] at hother
            cases hother
          exact .name span (by rw [TypeEnv.bind, if_neg hne, hother])

/-- If a fresh index comes with a first value that has a type, the value means the same before
and after the index is declared. -/
theorem hasType_withIndex_iff {value : Expression} {index : String} {type : ValueType}
    (hguard : env index = none → ∃ type, value.HasType env type) :
    value.HasType (env.withIndex index) type ↔ value.HasType env type := by
  constructor
  · intro htype
    cases hindex : env index with
    | some declared => rwa [TypeEnv.withIndex, hindex] at htype
    | none =>
        obtain ⟨other, hother⟩ := hguard hindex
        rwa [htype.unique (hother.withIndex index)]
  · exact fun htype => htype.withIndex index

theorem Untypable.not_hasType {use : Construct} {value : Expression} {error : LoweringError}
    {type : ValueType} (huntypable : value.Untypable env use error) :
    ¬ value.HasType env type := by
  intro htype
  cases huntypable with
  | name span hname =>
      cases htype with
      | name _ hother => rw [hname] at hother; cases hother
  | binary => cases htype

theorem untypable_withIndex_iff {use : Construct} {value : Expression} {index : String}
    {error : LoweringError} (hguard : env index = none → ∃ type, value.HasType env type) :
    value.Untypable (env.withIndex index) use error ↔ value.Untypable env use error := by
  cases hindex : env index with
  | some declared => rw [TypeEnv.withIndex, hindex]
  | none =>
      -- The value has a type in both environments.
      obtain ⟨type, htype⟩ := hguard hindex
      constructor
      · exact fun huntypable => absurd (htype.withIndex index) huntypable.not_hasType
      · exact fun huntypable => absurd htype huntypable.not_hasType

end Expression
end SlotLang
