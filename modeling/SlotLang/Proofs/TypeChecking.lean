import SlotLang.Proofs.NestedLabels
import SlotLang.Proofs.TypingRules

/-!
# Lowering checks the typing rules

Lowering finds type errors while it emits code.  It looks up the type of a value twice
around a declaration, and the bound of a loop after the body; the programs that it
accepts are those that are typed, and its error is that of the first premise that fails.

* `Emission.Obeys` — an emission goes well or fails as a rule says.  There is one such
  fact for each part of the walk, and they are put together in the order of the walk.
* `Statement.obeys_emission` — a statement is lowered as the typing rules say.
* `Statement.compile_iff_typed` — a program compiles if and only if it is typed, and
  fails with the error of the first premise that does not hold.
-/

namespace SlotLang

/-! ## Walks that obey a rule -/

/-- The types of the names of a scope. -/
def Scope.env (scope : Scope) : TypeEnv :=
  fun name => (scope.table.lookup name).map Symbol.type

/-- The emission goes well with exactly the environments that are accepted, and fails with
exactly the errors that are refused with. -/
structure Emission.Obeys (emission : Emission) (accepts : TypeEnv → Prop)
    (refuses : LoweringError → Prop) : Prop where
  ok : ∀ env, (∃ scope, emission.result = .ok scope ∧ scope.env = env) ↔ accepts env
  error : ∀ error, emission.result = .error error ↔ refuses error

namespace Emission

variable {first : Emission} {next : Scope → Emission} {accepts : TypeEnv → Prop}
  {refuses : LoweringError → Prop}

theorem result_andThen : (first.andThen next).result =
    first.result >>= fun scope => (next scope).result := by
  obtain ⟨directives, result⟩ := first
  cases result with
  | error error => rfl
  | ok scope => rfl

theorem result_given {α : Type} {value : Except LoweringError α} {next : α → Emission} :
    (given value next).result = value >>= fun a => (next a).result := by
  cases value with
  | error error => rfl
  | ok a => rfl

theorem Obeys.congr {accepts' : TypeEnv → Prop} {refuses' : LoweringError → Prop}
    (hobeys : first.Obeys accepts refuses) (hok : ∀ env, accepts env ↔ accepts' env)
    (herror : ∀ error, refuses error ↔ refuses' error) : first.Obeys accepts' refuses' where
  ok env := (hobeys.ok env).trans (hok env)
  error error := (hobeys.error error).trans (herror error)

theorem obeys_emit {scope : Scope} {env : TypeEnv} (henv : scope.env = env)
    (directives : List Directive) :
    (emit directives scope).Obeys (· = env) fun _ => False where
  ok after := by
    constructor
    · rintro ⟨_, hscope, rfl⟩
      cases hscope
      exact henv
    · rintro rfl
      exact ⟨scope, rfl, henv⟩
  error error := ⟨nofun, nofun⟩

theorem obeys_fail (error : LoweringError) :
    (fail error).Obeys (fun _ => False) (· = error) where
  ok env := by
    constructor
    · rintro ⟨_, hscope, -⟩
      cases hscope
    · nofun
  error other := by
    constructor
    · intro herror
      cases herror
      rfl
    · rintro rfl
      rfl

theorem Obeys.andThen {accepts' : TypeEnv → TypeEnv → Prop}
    {refuses' : TypeEnv → LoweringError → Prop} (hfirst : first.Obeys accepts refuses)
    (hnext : ∀ scope env, scope.env = env → accepts env →
      (next scope).Obeys (accepts' env) (refuses' env)) :
    (first.andThen next).Obeys (fun env => ∃ middle, accepts middle ∧ accepts' middle env)
      fun error => refuses error ∨ ∃ middle, accepts middle ∧ refuses' middle error where
  ok env := by
    simp only [result_andThen, bind_eq_ok]
    constructor
    · rintro ⟨scope, ⟨middle, hmiddle, hscope⟩, rfl⟩
      have haccepts := (hfirst.ok _).mp ⟨middle, hmiddle, rfl⟩
      exact ⟨middle.env, haccepts, ((hnext middle _ rfl haccepts).ok _).mp ⟨scope, hscope, rfl⟩⟩
    · rintro ⟨_, haccepts, henv⟩
      obtain ⟨middle, hmiddle, rfl⟩ := (hfirst.ok _).mpr haccepts
      obtain ⟨scope, hscope, rfl⟩ := ((hnext middle _ rfl haccepts).ok _).mpr henv
      exact ⟨scope, ⟨middle, hmiddle, hscope⟩, rfl⟩
  error error := by
    simp only [result_andThen, bind_eq_error]
    constructor
    · rintro (herror | ⟨middle, hmiddle, herror⟩)
      · exact .inl ((hfirst.error _).mp herror)
      · have haccepts := (hfirst.ok _).mp ⟨middle, hmiddle, rfl⟩
        exact .inr ⟨middle.env, haccepts, ((hnext middle _ rfl haccepts).error _).mp herror⟩
    · rintro (herror | ⟨_, haccepts, herror⟩)
      · exact .inl ((hfirst.error _).mpr herror)
      · obtain ⟨middle, hmiddle, rfl⟩ := (hfirst.ok _).mpr haccepts
        exact .inr ⟨middle, hmiddle, ((hnext middle _ rfl haccepts).error _).mpr herror⟩

theorem Obeys.given {α : Type} {value : Except LoweringError α} {next : α → Emission}
    {holds : α → Prop} {accepts : α → TypeEnv → Prop} {refuses' : α → LoweringError → Prop}
    (hvalue : ∀ a, value = .ok a ↔ holds a) (herror : ∀ error, value = .error error ↔ refuses error)
    (hnext : ∀ a, holds a → (next a).Obeys (accepts a) (refuses' a)) :
    (given value next).Obeys (fun env => ∃ a, holds a ∧ accepts a env)
      fun error => refuses error ∨ ∃ a, holds a ∧ refuses' a error where
  ok env := by
    simp only [result_given, bind_eq_ok, hvalue]
    constructor
    · rintro ⟨scope, ⟨a, ha, hscope⟩, rfl⟩
      exact ⟨a, ha, ((hnext a ha).ok _).mp ⟨scope, hscope, rfl⟩⟩
    · rintro ⟨a, ha, henv⟩
      obtain ⟨scope, hscope, rfl⟩ := ((hnext a ha).ok _).mpr henv
      exact ⟨scope, ⟨a, ha, hscope⟩, rfl⟩
  error error := by
    simp only [result_given, bind_eq_error, hvalue, herror]
    refine or_congr_right (exists_congr fun a => and_congr_right fun ha => ?_)
    exact (hnext a ha).error error

end Emission

/-! ## The parts of the walk -/

theorem ValueType.fits_int_eq_true {type : ValueType} : type.fits .int = true ↔ type = .int := by
  cases type <;> simp [fits]

theorem ValueType.fits_int_eq_false {type : ValueType} :
    type.fits .int = false ↔ type = .string := by
  cases type <;> simp [fits]

theorem ValueType.fits_string (type : ValueType) : type.fits .string = true := by
  cases type <;> rfl

namespace Scope

variable {scope : Scope} {env : TypeEnv}

theorem env_eq_some {name : String} {type : ValueType} :
    scope.env name = some type ↔
      ∃ symbol, scope.table.lookup name = some symbol ∧ symbol.type = type :=
  Option.map_eq_some_iff

theorem env_eq_none {name : String} : scope.env name = none ↔ scope.table.lookup name = none :=
  Option.map_eq_none_iff

theorem require_eq_error {name : String} {span : Span} {error : LoweringError} :
    scope.require name span = .error error ↔
      scope.env name = none ∧ error = .undeclared name span := by
  rw [env_eq_none]
  unfold require find?
  cases scope.table.lookup name <;> simp [eq_comm]

theorem infer_eq_ok_iff {value : Expression} {type : ValueType} :
    scope.infer value = .ok type ↔ value.HasType scope.env type := by
  constructor
  · intro hinfer
    cases value with
    | string text span => cases hinfer; exact .string text span
    | integer n span => cases hinfer; exact .integer n span
    | binary operator left right span => cases hinfer
    | name name span =>
        cases hrequire : scope.require name span with
        | error error => rw [infer, hrequire] at hinfer; cases hinfer
        | ok symbol =>
            rw [infer, hrequire] at hinfer
            cases hinfer
            exact .name span (env_eq_some.mpr ⟨symbol, require_eq_ok.mp hrequire, rfl⟩)
  · intro htype
    cases htype with
    | string text span => rfl
    | integer n span => rfl
    | name span hname =>
        obtain ⟨symbol, hlookup, rfl⟩ := env_eq_some.mp hname
        rw [infer, require_eq_ok.mpr hlookup]
        rfl

theorem infer_eq_error_iff {value : Expression} {error : LoweringError} :
    scope.infer value = .error error ↔ value.Untypable scope.env .binaryType error := by
  constructor
  · intro hinfer
    cases value with
    | string text span => cases hinfer
    | integer n span => cases hinfer
    | binary operator left right span => cases hinfer; exact .binary operator left right span
    | name name span =>
        cases hrequire : scope.require name span with
        | ok symbol => rw [infer, hrequire] at hinfer; cases hinfer
        | error error =>
            rw [infer, hrequire] at hinfer
            cases hinfer
            obtain ⟨hname, rfl⟩ := require_eq_error.mp hrequire
            exact .name span hname
  · intro huntypable
    cases huntypable with
    | name span hname =>
        rw [infer, require_eq_error.mpr ⟨hname, rfl⟩]
        rfl
    | binary operator left right span => rfl

theorem obeys_coerce (henv : scope.env = env) (delivered expected : ValueType) (span : Span) :
    (scope.coerce delivered expected span).Obeys
      (fun after => after = env ∧ delivered.fits expected = true)
      fun error => delivered.fits expected = false ∧
        error = .noCoercion delivered expected span := by
  subst henv
  unfold coerce
  split
  next heq =>
      subst heq
      exact (Emission.obeys_emit rfl _).congr (by simp [ValueType.fits]) (by simp [ValueType.fits])
  next =>
      split
      next hfits => exact (Emission.obeys_emit rfl _).congr (by simp [hfits]) (by simp [hfits])
      next hfits => exact (Emission.obeys_fail _).congr (by simp [hfits]) (by simp [hfits])

/-- A value of a known type is pushed if the type fits. -/
theorem obeys_load (henv : scope.env = env) {value : Expression} {type : ValueType}
    (htype : value.HasType env type) (load : Directive) (expected : ValueType) :
    ((Emission.emit [load] scope).andThen (coerce type expected value.span)).Obeys
      (fun after => after = env ∧ ∃ type, value.HasType env type ∧ type.fits expected = true)
      fun error => value.Untypable env .binaryValue error ∨
        ∃ type, value.HasType env type ∧ type.fits expected = false ∧
          error = .noCoercion type expected value.span := by
  subst henv
  refine ((Emission.obeys_emit rfl [load]).andThen
    fun _ _ henv _ => obeys_coerce henv type expected value.span).congr (fun after => ?_)
    fun error => ?_
  · constructor
    · rintro ⟨_, rfl, rfl, hfits⟩
      exact ⟨rfl, type, htype, hfits⟩
    · rintro ⟨rfl, other, hother, hfits⟩
      obtain rfl := htype.unique hother
      exact ⟨_, rfl, rfl, hfits⟩
  · constructor
    · rintro (hfalse | ⟨_, rfl, hfits, rfl⟩)
      · exact hfalse.elim
      · exact .inr ⟨type, htype, hfits, rfl⟩
    · rintro (huntypable | ⟨other, hother, hfits, rfl⟩)
      · exact absurd htype huntypable.not_hasType
      · obtain rfl := htype.unique hother
        exact .inr ⟨_, rfl, hfits, rfl⟩

/-- A value is pushed if it has a type and the type fits. -/
theorem obeys_push (henv : scope.env = env) (value : Expression) (expected : ValueType) :
    (scope.push value expected).Obeys
      (fun after => after = env ∧ ∃ type, value.HasType env type ∧ type.fits expected = true)
      fun error => value.Untypable env .binaryValue error ∨
        ∃ type, value.HasType env type ∧ type.fits expected = false ∧
          error = .noCoercion type expected value.span := by
  cases value with
  | string text span => exact obeys_load henv (.string text span) _ expected
  | integer n span => exact obeys_load henv (.integer n span) _ expected
  | name name span =>
      subst henv
      refine (Emission.Obeys.given (fun _ => require_eq_ok) (fun _ => require_eq_error)
        fun symbol hlookup => obeys_load rfl (.name span (env_eq_some.mpr ⟨symbol, hlookup, rfl⟩))
          (.loadLocal symbol.slot) expected).congr (fun after => ?_) fun error => ?_
      · constructor
        · rintro ⟨symbol, -, haccepts⟩
          exact haccepts
        · rintro ⟨rfl, type, htype, hfits⟩
          cases htype with
          | name _ hname =>
              obtain ⟨symbol, hlookup, rfl⟩ := env_eq_some.mp hname
              exact ⟨symbol, hlookup, rfl, _, .name span hname, hfits⟩
      · constructor
        · rintro (⟨hname, rfl⟩ | ⟨symbol, -, hrefuses⟩)
          · exact .inl (.name span hname)
          · exact hrefuses
        · rintro (huntypable | ⟨type, htype, hfits, rfl⟩)
          · cases huntypable with
            | name _ hname => exact .inl ⟨hname, rfl⟩
          · cases htype with
            | name _ hname =>
                obtain ⟨symbol, hlookup, rfl⟩ := env_eq_some.mp hname
                exact .inr ⟨symbol, hlookup, .inr ⟨_, .name span hname, hfits, rfl⟩⟩
  | binary operator left right span =>
      refine (Emission.obeys_fail _).congr (fun after => ?_) fun error => ?_
      · constructor
        · exact False.elim
        · rintro ⟨-, _, htype, -⟩
          cases htype
      · constructor
        · rintro rfl
          exact .inl (.binary operator left right span)
        · rintro (huntypable | ⟨_, htype, -⟩)
          · cases huntypable
            rfl
          · cases htype

theorem obeys_popInto (henv : scope.env = env) (name : String) (type : ValueType) (span : Span) :
    (scope.popInto name type span).Obeys (fun after => after = env ∧ env name = some type)
      (env.Denies name type span) := by
  subst henv
  have hnext : ∀ symbol : Symbol, scope.table.lookup name = some symbol →
      (if symbol.type = type then Emission.emit [.storeLocal symbol.slot] scope
        else .fail (.typeMismatch name symbol.type type span)).Obeys
        (fun after => after = scope.env ∧ symbol.type = type)
        fun error => symbol.type ≠ type ∧ error = .typeMismatch name symbol.type type span := by
    intro symbol _
    split
    next htype => exact (Emission.obeys_emit rfl _).congr (by simp [htype]) (by simp [htype])
    next htype => exact (Emission.obeys_fail _).congr (by simp [htype]) (by simp [htype])
  refine (Emission.Obeys.given (fun _ => require_eq_ok) (fun _ => require_eq_error)
    hnext).congr (fun after => ?_) fun error => ?_
  · rw [env_eq_some]
    constructor
    · rintro ⟨symbol, hlookup, rfl, htype⟩
      exact ⟨rfl, symbol, hlookup, htype⟩
    · rintro ⟨rfl, symbol, hlookup, htype⟩
      exact ⟨symbol, hlookup, rfl, htype⟩
  · constructor
    · rintro (⟨hname, rfl⟩ | ⟨symbol, hlookup, hne, rfl⟩)
      · exact .undeclared hname
      · exact .mismatch (env_eq_some.mpr ⟨symbol, hlookup, rfl⟩) hne
    · intro hdenies
      cases hdenies with
      | undeclared hname => exact .inl ⟨hname, rfl⟩
      | mismatch hname hne =>
          obtain ⟨symbol, hlookup, rfl⟩ := env_eq_some.mp hname
          exact .inr ⟨symbol, hlookup, hne, rfl⟩

/-- A value is pushed with its own type, so only the name can refuse it then. -/
theorem obeys_assign (henv : scope.env = env) (name : String) (value : Expression) :
    (scope.assign name value).Obeys
      (fun after => after = env ∧ ∃ type, value.HasType env type ∧ env name = some type)
      fun error => value.Untypable env .binaryType error ∨
        ∃ type, value.HasType env type ∧ env.Denies name type value.span error := by
  have hnext : ∀ type, value.HasType env type →
      ((scope.push value type).andThen (popInto name type value.span)).Obeys
        (fun after => after = env ∧ env name = some type)
        (env.Denies name type value.span) := by
    intro type htype
    have hfits : type.fits type = true := by simp [ValueType.fits]
    refine ((obeys_push henv value type).andThen
      fun _ _ henv _ => obeys_popInto henv name type value.span).congr (fun after => ?_)
      fun error => ?_
    · constructor
      · rintro ⟨_, ⟨rfl, -⟩, haccepts⟩
        exact haccepts
      · intro haccepts
        exact ⟨env, ⟨rfl, type, htype, hfits⟩, haccepts⟩
    · constructor
      · rintro ((huntypable | ⟨other, hother, hmisfit, -⟩) | ⟨_, ⟨rfl, -⟩, hdenies⟩)
        · exact absurd htype huntypable.not_hasType
        · obtain rfl := htype.unique hother
          rw [hfits] at hmisfit
          cases hmisfit
        · exact hdenies
      · intro hdenies
        exact .inr ⟨env, ⟨rfl, type, htype, hfits⟩, hdenies⟩
  subst henv
  refine (Emission.Obeys.given (fun _ => infer_eq_ok_iff) (fun _ => infer_eq_error_iff)
    hnext).congr (fun after => ?_) fun error => Iff.rfl
  constructor
  · rintro ⟨type, htype, rfl, hname⟩
    exact ⟨rfl, type, htype, hname⟩
  · rintro ⟨rfl, type, htype, hname⟩
    exact ⟨type, htype, rfl, hname⟩

theorem obeys_introduce (henv : scope.env = env) (name : String) (type : ValueType) :
    (scope.introduce name type).Obeys (· = env.bind name type) fun _ => False := by
  subst henv
  have hbind : Scope.env
      { scope with
        symbols := (name, ⟨UInt32.ofNat scope.slots, type⟩) :: scope.symbols
        slots := scope.slots + 1 } = scope.env.bind name type := by
    funext other
    by_cases hother : other = name
    · simp [env, table, TypeEnv.bind, hother]
    · simp [env, table, TypeEnv.bind, hother, List.lookup_cons, beq_eq_false_iff_ne.mpr hother]
  exact Emission.obeys_emit hbind _

theorem obeys_declareIndex (henv : scope.env = env) (index : String) (lower : Expression) :
    (scope.declareIndex index lower).Obeys
      (fun after => after = env.withIndex index ∧
        (env index = none → ∃ type, lower.HasType env type))
      fun error => env index = none ∧ lower.Untypable env .binaryType error := by
  unfold declareIndex
  split
  next symbol hlookup =>
      have hindex : env index = some symbol.type :=
        henv ▸ env_eq_some.mpr ⟨symbol, hlookup, rfl⟩
      have hwith : env.withIndex index = env := by rw [TypeEnv.withIndex, hindex]
      exact (Emission.obeys_emit henv _).congr (by simp [hwith, hindex]) (by simp [hindex])
  next hlookup =>
      have hindex : env index = none := henv ▸ env_eq_none.mpr hlookup
      have hwith : env.withIndex index = env.bind index .int := by rw [TypeEnv.withIndex, hindex]
      refine (Emission.Obeys.given (fun _ => infer_eq_ok_iff) (fun _ => infer_eq_error_iff)
        fun _ _ => obeys_introduce henv index .int).congr ?_ ?_
      · simp [hwith, hindex, henv, and_comm]
      · simp [hindex, henv]

/-- The start of a loop: the index is declared and gets its first value. -/
theorem obeys_loopStart (henv : scope.env = env) (index : String) (lower : Expression) :
    ((scope.declareIndex index lower).andThen (assign index lower)).Obeys
      (fun after => after = env.withIndex index ∧
        ∃ type, lower.HasType env type ∧ env.withIndex index index = some type)
      fun error => lower.Untypable env .binaryType error ∨
        ∃ type, lower.HasType env type ∧
          (env.withIndex index).Denies index type lower.span error := by
  refine ((obeys_declareIndex henv index lower).andThen
    fun _ _ henv _ => obeys_assign henv index lower).congr (fun after => ?_) fun error => ?_
  · constructor
    · rintro ⟨_, ⟨rfl, hguard⟩, rfl, type, htype, hname⟩
      exact ⟨rfl, type, (Expression.hasType_withIndex_iff hguard).mp htype, hname⟩
    · rintro ⟨rfl, type, htype, hname⟩
      exact ⟨_, ⟨rfl, fun _ => ⟨type, htype⟩⟩, rfl, type, htype.withIndex index, hname⟩
  · constructor
    · rintro (⟨-, huntypable⟩ | ⟨_, ⟨rfl, hguard⟩, huntypable | ⟨type, htype, hdenies⟩⟩)
      · exact .inl huntypable
      · exact .inl ((Expression.untypable_withIndex_iff hguard).mp huntypable)
      · exact .inr ⟨type, (Expression.hasType_withIndex_iff hguard).mp htype, hdenies⟩
    · rintro (huntypable | ⟨type, htype, hdenies⟩)
      · by_cases hindex : env index = none
        · exact .inl ⟨hindex, huntypable⟩
        · have hguard : env index = none → ∃ type, lower.HasType env type :=
            fun hnone => absurd hnone hindex
          exact .inr ⟨_, ⟨rfl, hguard⟩,
            .inl ((Expression.untypable_withIndex_iff hguard).mpr huntypable)⟩
      · exact .inr ⟨_, ⟨rfl, fun _ => ⟨type, htype⟩⟩,
          .inr ⟨type, htype.withIndex index, hdenies⟩⟩

theorem obeys_openLoop (henv : scope.env = env) :
    scope.openLoop.Obeys (· = env) fun _ => False := by
  apply Emission.obeys_emit
  exact henv

theorem obeys_increment (henv : scope.env = env) (index : String) (span : Span) :
    (scope.increment index span).Obeys (fun after => after = env ∧ env index = some .int)
      (env.Denies index .int span) := by
  subst henv
  refine (Emission.Obeys.given (fun _ => require_eq_ok) (fun _ => require_eq_error)
    fun _ _ => (Emission.obeys_emit rfl _).andThen
      fun _ _ henv _ => obeys_popInto henv index .int span).congr (fun after => ?_) fun error => ?_
  · constructor
    · rintro ⟨_, -, _, rfl, haccepts⟩
      exact haccepts
    · rintro ⟨rfl, hindex⟩
      obtain ⟨symbol, hlookup, -⟩ := env_eq_some.mp hindex
      exact ⟨symbol, hlookup, _, rfl, rfl, hindex⟩
  · constructor
    · rintro (⟨hindex, rfl⟩ | ⟨_, -, hfalse | ⟨_, rfl, hdenies⟩⟩)
      · exact .undeclared hindex
      · exact hfalse.elim
      · exact hdenies
    · intro hdenies
      cases hdenies with
      | undeclared hindex => exact .inl ⟨hindex, rfl⟩
      | mismatch hindex hne =>
          obtain ⟨symbol, hlookup, -⟩ := env_eq_some.mp hindex
          exact .inr ⟨symbol, hlookup, .inr ⟨_, rfl, .mismatch hindex hne⟩⟩

/-- After the increment the index is declared, so only the bound can refuse the test. -/
theorem obeys_test (henv : scope.env = env) (label : Nat) {index : String}
    (hindex : env index = some .int) (upper : Expression) (span : Span) :
    (scope.test label index upper span).Obeys (fun after => after = env ∧ upper.HasType env .int)
      fun error => upper.Untypable env .binaryValue error ∨
        upper.HasType env .string ∧ error = .noCoercion .string .int upper.span := by
  subst henv
  obtain ⟨symbol, hlookup, -⟩ := env_eq_some.mp hindex
  have htest : scope.test label index upper span =
      (Emission.emit [.markLabel (UInt32.ofNat label), .loadLocal symbol.slot] scope).andThen
        fun scope => (scope.push upper .int).andThen
          (Emission.emit [.branchIfLess (UInt32.ofNat (label + 1))]) := by
    simp [test, require_eq_ok.mpr hlookup, Emission.given]
  rw [htest]
  refine ((Emission.obeys_emit rfl _).andThen fun _ _ henv _ =>
    (obeys_push henv upper .int).andThen
      fun _ _ henv _ => Emission.obeys_emit henv _).congr (fun after => ?_)
      fun error => ?_
  · constructor
    · rintro ⟨_, rfl, _, ⟨rfl, type, htype, hfits⟩, rfl⟩
      obtain rfl := ValueType.fits_int_eq_true.mp hfits
      exact ⟨rfl, htype⟩
    · rintro ⟨rfl, htype⟩
      exact ⟨_, rfl, _, ⟨rfl, .int, htype, rfl⟩, rfl⟩
  · constructor
    · rintro (hfalse | ⟨_, rfl, (huntypable | ⟨type, htype, hfits, rfl⟩) | ⟨_, -, hfalse⟩⟩)
      · exact hfalse.elim
      · exact .inl huntypable
      · obtain rfl := ValueType.fits_int_eq_false.mp hfits
        exact .inr ⟨htype, rfl⟩
      · exact hfalse.elim
    · rintro (huntypable | ⟨htype, rfl⟩)
      · exact .inr ⟨_, rfl, .inl (.inl huntypable)⟩
      · exact .inr ⟨_, rfl, .inl (.inr ⟨.string, htype, rfl, rfl⟩)⟩

end Scope

/-! ## Statements -/

namespace Statement

variable {scope : Scope} {env : TypeEnv}

/-- The value of a declaration is typed before its name is declared and lowered after it; the
second time nothing can go wrong. -/
theorem obeys_declare (henv : scope.env = env) (name : String) (value : Expression) (span : Span) :
    ((declare name value span).emission scope).Obeys (Typed env (declare name value span))
      (Refused env (declare name value span)) := by
  have hnext : ∀ type, value.HasType env type →
      ((scope.introduce name type).andThen (Scope.assign name value)).Obeys
        (· = env.bind name type) fun _ => False := by
    intro type htype
    have hname : env.bind name type name = some type := if_pos rfl
    refine ((Scope.obeys_introduce henv name type).andThen
      fun _ _ henv _ => Scope.obeys_assign henv name value).congr (fun after => ?_) fun error => ?_
    · constructor
      · rintro ⟨_, rfl, rfl, -⟩
        rfl
      · rintro rfl
        exact ⟨_, rfl, rfl, type, htype.bind name, hname⟩
    · constructor
      · rintro (hfalse | ⟨_, rfl, huntypable | ⟨other, hother, hdenies⟩⟩)
        · exact hfalse
        · exact huntypable.not_hasType (htype.bind name)
        · obtain rfl := (htype.bind name).unique hother
          cases hdenies with
          | undeclared hnone => rw [hname] at hnone; cases hnone
          | mismatch hdeclared hne =>
              rw [hname] at hdeclared
              exact hne (Option.some.inj hdeclared).symm
      · exact False.elim
  subst henv
  refine (Emission.Obeys.given (fun _ => Scope.infer_eq_ok_iff)
    (fun _ => Scope.infer_eq_error_iff) hnext).congr (fun after => ?_) fun error => ?_
  · constructor
    · rintro ⟨type, htype, rfl⟩
      exact .declare span htype
    · rintro ⟨⟩
      exact ⟨_, ‹_›, rfl⟩
  · constructor
    · rintro (huntypable | ⟨_, -, hfalse⟩)
      · exact .declare span huntypable
      · exact hfalse.elim
    · rintro ⟨⟩
      exact .inl ‹_›

theorem obeys_print (henv : scope.env = env) (value : Expression) (span : Span) :
    ((print value span).emission scope).Obeys (Typed env (print value span))
      (Refused env (print value span)) := by
  refine ((Scope.obeys_push henv value .string).andThen
    fun _ _ henv _ => Emission.obeys_emit henv _).congr (fun after => ?_) fun error => ?_
  · constructor
    · rintro ⟨_, ⟨rfl, type, htype, -⟩, rfl⟩
      exact .print span htype
    · intro htyped
      cases htyped with
      | print _ hvalue => exact ⟨_, ⟨rfl, _, hvalue, ValueType.fits_string _⟩, rfl⟩
  · constructor
    · rintro ((huntypable | ⟨type, -, hmisfit, -⟩) | ⟨_, -, hfalse⟩)
      · exact .print span huntypable
      · rw [ValueType.fits_string] at hmisfit
        cases hmisfit
      · exact hfalse.elim
    · intro hrefused
      cases hrefused with
      | print _ hvalue => exact .inl (.inl hvalue)

theorem obeys_assign (henv : scope.env = env) (name : String) (value : Expression) (span : Span) :
    ((assign name value span).emission scope).Obeys (Typed env (assign name value span))
      (Refused env (assign name value span)) := by
  refine (Scope.obeys_assign henv name value).congr (fun after => ?_) fun error => ?_
  · constructor
    · rintro ⟨rfl, type, htype, hname⟩
      exact .assign span htype hname
    · intro htyped
      cases htyped with
      | assign _ hvalue hname => exact ⟨rfl, _, hvalue, hname⟩
  · constructor
    · rintro (huntypable | ⟨type, htype, hdenies⟩)
      · exact .assignValue span huntypable
      · exact .assignName span htype hdenies
    · intro hrefused
      cases hrefused with
      | assignValue _ hvalue => exact .inl hvalue
      | assignName _ hvalue hname => exact .inr ⟨_, hvalue, hname⟩

theorem obeys_readInt (henv : scope.env = env) (name : String) (span : Span) :
    ((readInt name span).emission scope).Obeys (Typed env (readInt name span))
      (Refused env (readInt name span)) := by
  refine ((Emission.obeys_emit henv _).andThen
    fun _ _ henv _ => Scope.obeys_popInto henv name .int span).congr (fun after => ?_)
    fun error => ?_
  · constructor
    · rintro ⟨_, rfl, rfl, hname⟩
      exact .readInt span hname
    · intro htyped
      cases htyped with
      | readInt _ hname => exact ⟨_, rfl, rfl, hname⟩
  · constructor
    · rintro (hfalse | ⟨_, rfl, hdenies⟩)
      · exact hfalse.elim
      · exact .readInt span hdenies
    · intro hrefused
      cases hrefused with
      | readInt _ hname => exact .inr ⟨_, rfl, hname⟩

/-- A loop is its start, the labels, the body, the increment and the test, in this order. -/
theorem obeys_forLoop (henv : scope.env = env) (index : String) (lower upper : Expression)
    {body : Statement} (span : Span)
    (hbody : ∀ {scope env}, Scope.env scope = env →
      (body.emission scope).Obeys (Typed env body) (Refused env body)) :
    ((forLoop index lower upper body span).emission scope).Obeys
      (Typed env (forLoop index lower upper body span))
      (Refused env (forLoop index lower upper body span)) := by
  rw [emission, Scope.loop, ← Emission.andThen_assoc]
  refine ((Scope.obeys_loopStart henv index lower).andThen fun _ _ henv _ =>
    (Scope.obeys_openLoop henv).andThen fun _ _ henv _ =>
      (hbody henv).andThen fun _ _ henv _ =>
        (Scope.obeys_increment henv index span).andThen fun _ _ henv hcounted =>
          Scope.obeys_test (henv.trans hcounted.1) _ hcounted.2 upper span).congr (fun after => ?_)
    fun error => ?_
  · constructor
    · rintro ⟨_, ⟨rfl, type, hlower, hindex⟩, _, rfl, _, htyped, _, ⟨rfl, hcounted⟩, rfl, hupper⟩
      exact .forLoop span hlower hindex htyped hcounted hupper
    · intro htyped
      cases htyped with
      | forLoop _ hlower hindex hbody hcounted hupper =>
          exact ⟨_, ⟨rfl, _, hlower, hindex⟩, _, rfl, _, hbody, _, ⟨rfl, hcounted⟩, rfl, hupper⟩
  · constructor
    · rintro ((hlower | ⟨type, hlower, hindex⟩) | ⟨_, ⟨rfl, type, hlower, hindex⟩, hrest⟩)
      · exact .lower span hlower
      · exact .index span hlower hindex
      · rcases hrest with hfalse | ⟨_, rfl, hbody | ⟨_, htyped, hrest⟩⟩
        · exact hfalse.elim
        · exact .body span hlower hindex hbody
        · rcases hrest with hcounted | ⟨_, ⟨rfl, hcounted⟩, hupper | ⟨hupper, rfl⟩⟩
          · exact .counted span hlower hindex htyped hcounted
          · exact .upper span hlower hindex htyped hcounted hupper
          · exact .upperString span hlower hindex htyped hcounted hupper
    · intro hrefused
      cases hrefused with
      | lower _ hlower => exact .inl (.inl hlower)
      | index _ hlower hindex => exact .inl (.inr ⟨_, hlower, hindex⟩)
      | body _ hlower hindex hbody =>
          exact .inr ⟨_, ⟨rfl, _, hlower, hindex⟩, .inr ⟨_, rfl, .inl hbody⟩⟩
      | counted _ hlower hindex htyped hcounted =>
          exact .inr ⟨_, ⟨rfl, _, hlower, hindex⟩, .inr ⟨_, rfl, .inr ⟨_, htyped,
            .inl hcounted⟩⟩⟩
      | upper _ hlower hindex htyped hcounted hupper =>
          exact .inr ⟨_, ⟨rfl, _, hlower, hindex⟩, .inr ⟨_, rfl, .inr ⟨_, htyped,
            .inr ⟨_, ⟨rfl, hcounted⟩, .inl hupper⟩⟩⟩⟩
      | upperString _ hlower hindex htyped hcounted hupper =>
          exact .inr ⟨_, ⟨rfl, _, hlower, hindex⟩, .inr ⟨_, rfl, .inr ⟨_, htyped,
            .inr ⟨_, ⟨rfl, hcounted⟩, .inr ⟨hupper, rfl⟩⟩⟩⟩⟩

/-- Lowering accepts a statement in the environments that the typing rules give it, and
refuses it with the error of the first premise that fails. -/
theorem obeys_emission (statement : Statement) (henv : scope.env = env) :
    (statement.emission scope).Obeys (Typed env statement) (Refused env statement) := by
  induction statement generalizing scope env with
  | sequence first second span ihfirst ihsecond =>
      refine ((ihfirst henv).andThen fun _ _ henv _ => ihsecond henv).congr (fun after => ?_)
        fun error => ?_
      · constructor
        · rintro ⟨_, hfirst, hsecond⟩
          exact .sequence span hfirst hsecond
        · intro htyped
          cases htyped with
          | sequence _ hfirst hsecond => exact ⟨_, hfirst, hsecond⟩
      · constructor
        · rintro (hfirst | ⟨_, hfirst, hsecond⟩)
          · exact .first span hfirst
          · exact .second span hfirst hsecond
        · intro hrefused
          cases hrefused with
          | first _ hfirst => exact .inl hfirst
          | second _ hfirst hsecond => exact .inr ⟨_, hfirst, hsecond⟩
  | declare name value span => exact obeys_declare henv name value span
  | assign name value span => exact obeys_assign henv name value span
  | print value span => exact obeys_print henv value span
  | readInt name span => exact obeys_readInt henv name span
  | forLoop index lower upper body span ih => exact obeys_forLoop henv index lower upper span ih

end Statement

/-! ## Programs -/

namespace Statement

theorem typed_of_compile {program : Statement} {name : String} {m : CodeModule}
    (hcompile : program.compile name = .ok m) : ∃ env, Typed .empty program env := by
  obtain ⟨directives, scope, hemission, -⟩ := compile_eq_ok hcompile
  have hobeys := program.obeys_emission (show Scope.empty.env = .empty from rfl)
  exact ⟨scope.env, (hobeys.ok _).mp ⟨scope, by rw [hemission]; rfl, rfl⟩⟩

/-- The result of a compilation is that of lowering, as long as labels can be numbered:
then there is nothing left that could go wrong. -/
theorem compile_cases (program : Statement) (name : String)
    (hlabels : 2 * program.loops ≤ UInt32.size) :
    (∃ scope m, (program.emission .empty).result = .ok scope ∧ program.compile name = .ok m) ∨
      ∃ error, (program.emission .empty).result = .error error ∧
        program.compile name = .error (.lowering error) := by
  rcases program.compile_stages name with
    ⟨directives, error, hemission, hcompile⟩ | ⟨directives, scope, hemission, hcompile⟩
  · exact .inr ⟨error, by rw [hemission], hcompile⟩
  · obtain ⟨m, hassemble⟩ := exists_assemble hemission hlabels name entryPoint
    refine .inl ⟨scope, m, by rw [hemission]; rfl, ?_⟩
    rw [hcompile, hassemble, mapError_ok]

/-- A program compiles if and only if it is typed.  Otherwise the error is that of the
first premise that fails. -/
theorem compile_iff_typed (program : Statement) (name : String)
    (hlabels : 2 * program.loops ≤ UInt32.size) :
    ((∃ m, program.compile name = .ok m) ↔ ∃ env, Typed .empty program env) ∧
      ∀ error, program.compile name = .error error ↔
        ∃ reason, error = .lowering reason ∧ Refused .empty program reason := by
  have hobeys := program.obeys_emission (show Scope.empty.env = .empty from rfl)
  obtain ⟨scope, m, hresult, hcompile⟩ | ⟨reason, hresult, hcompile⟩ :=
    compile_cases program name hlabels
  · have htyped : Typed .empty program scope.env := (hobeys.ok _).mp ⟨scope, hresult, rfl⟩
    refine ⟨⟨fun _ => ⟨_, htyped⟩, fun _ => ⟨m, hcompile⟩⟩, fun error => ?_⟩
    constructor
    · intro herror
      rw [hcompile] at herror
      cases herror
    · rintro ⟨reason, -, hrefused⟩
      rw [← hobeys.error, hresult] at hrefused
      cases hrefused
  · have hrefused : Refused .empty program reason := (hobeys.error _).mp hresult
    refine ⟨⟨?_, ?_⟩, fun error => ?_⟩
    · rintro ⟨m, hcompiled⟩
      rw [hcompile] at hcompiled
      cases hcompiled
    · rintro ⟨env, htyped⟩
      obtain ⟨scope, hscope, -⟩ := (hobeys.ok env).mpr htyped
      rw [hresult] at hscope
      cases hscope
    · rw [hcompile]
      constructor
      · rintro ⟨⟩
        exact ⟨reason, rfl, hrefused⟩
      · rintro ⟨other, rfl, hother⟩
        rw [← hobeys.error, hresult] at hother
        cases hother
        rfl

/-- The program `var x = "s"; for i = 0 to x do var x = 5 end`. -/
def reboundBound : Statement :=
  .sequence (.declare "x" (.string "s" ⟨8, 11⟩) ⟨0, 11⟩)
    (.forLoop "i" (.integer 0 ⟨21, 22⟩) (.name "x" ⟨26, 27⟩)
      (.declare "x" (.integer 5 ⟨39, 40⟩) ⟨31, 40⟩) ⟨13, 44⟩) ⟨0, 44⟩

/-- The program `var x = "s"; for i = 0 to 3 do var i = x end`. -/
def reboundIndex : Statement :=
  .sequence (.declare "x" (.string "s" ⟨8, 11⟩) ⟨0, 11⟩)
    (.forLoop "i" (.integer 0 ⟨21, 22⟩) (.integer 3 ⟨26, 27⟩)
      (.declare "i" (.name "x" ⟨39, 40⟩) ⟨31, 40⟩) ⟨13, 44⟩) ⟨0, 44⟩

/-- The bound and the index of a loop are typed after its body: the first of the programs
compiles, and the second fails at its loop. -/
theorem rebound_compile_iff_typed :
    (2 * reboundBound.loops ≤ UInt32.size ∧ ∃ m, reboundBound.compile "test" = .ok m) ∧
      2 * reboundIndex.loops ≤ UInt32.size ∧ reboundIndex.compile "test" =
        .error (.lowering (.typeMismatch "i" .string .int ⟨13, 44⟩)) := by
  have hbound : 2 * reboundBound.loops ≤ UInt32.size := by decide
  have hindex : 2 * reboundIndex.loops ≤ UInt32.size := by decide
  refine ⟨⟨hbound, ?_⟩, hindex, ?_⟩
  · refine (compile_iff_typed _ _ hbound).1.mpr
      ⟨((TypeEnv.empty.bind "x" .string).withIndex "i").bind "x" .int, ?_⟩
    refine .sequence _ (.declare _ (.string _ _)) ?_
    refine .forLoop _ (.integer _ _) ?_ (.declare _ (.integer _ _)) ?_ (.name _ ?_)
    all_goals simp [TypeEnv.withIndex, TypeEnv.bind, TypeEnv.empty]
  · have hname : (TypeEnv.empty.bind "x" .string).withIndex "i" "x" = some .string := by
      simp [TypeEnv.withIndex, TypeEnv.bind, TypeEnv.empty]
    refine ((compile_iff_typed _ _ hindex).2 _).mpr ⟨_, rfl, ?_⟩
    refine .second _ (.declare _ (.string _ _)) ?_
    refine .counted _ (.integer _ _) ?_ (.declare _ (.name _ hname)) (.mismatch ?_ ?_)
    all_goals simp [TypeEnv.withIndex, TypeEnv.bind, TypeEnv.empty]

end Statement

end SlotLang