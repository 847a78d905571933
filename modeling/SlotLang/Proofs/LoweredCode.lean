import SlotLang.Compile
import SlotLang.Proofs.AssembledCode
import SlotLang.Proofs.Results
import SlotLang.Proofs.SymbolTable

/-!
# The code of a statement in a module

Lowering and assembling together put the code of every statement at a place of
the module.  The judgement `Placed` says which code that is, with positions in
place of labels and with the table of names in place of the state of the walk.
It is all that later modules need to know about the two passes.

* `Loads`, `Stores` — the instruction that pushes an expression, and the one
  that pops into a name.
* `Placed` — the code of a statement between two positions.
* `Statement.placed_of_compile` — the code of a compiled program is placed in
  its module, from the first position to the final return.
-/

namespace SlotLang

/-! ## The judgement -/

/-- The instruction at a position pushes the value of an expression of the
given type. -/
inductive Loads (m : CodeModule) (table : SymbolTable) (position : Nat) :
    Expression → ValueType → Prop
  | string (text : String) (span : Span) (index : UInt32)
      (hcode : m.code[position]? = some (.constant index))
      (hconstant : m.constants[index.toNat]? = some (.string text)) :
      Loads m table position (.string text span) .string
  | integer (n : Int32) (span : Span) (index : UInt32)
      (hcode : m.code[position]? = some (.constant index))
      (hconstant : m.constants[index.toNat]? = some (.int n)) :
      Loads m table position (.integer n span) .int
  | name (name : String) (span : Span) (symbol : Symbol)
      (hlookup : table.lookup name = some symbol)
      (hslot : m.locals[symbol.slot.toNat]? = some symbol.type)
      (hcode : m.code[position]? = some (.loadLocal symbol.slot)) :
      Loads m table position (.name name span) symbol.type

/-- The instruction at a position pops a value of the given type into a name. -/
def Stores (m : CodeModule) (table : SymbolTable) (position : Nat) (name : String)
    (type : ValueType) : Prop :=
  ∃ symbol, table.lookup name = some symbol ∧ symbol.type = type ∧
    m.locals[symbol.slot.toNat]? = some type ∧
    m.code[position]? = some (.storeLocal symbol.slot)

/-- The code of a statement stands in a module between two positions, where
`table` has the names declared before it. -/
inductive Placed (m : CodeModule) : Statement → SymbolTable → Nat → Nat → Prop
  | sequence {first second : Statement} {span : Span} {table : SymbolTable}
      {start middle stop : Nat}
      (hfirst : Placed m first table start middle)
      (hsecond : Placed m second (first.tableAfter table) middle stop) :
      Placed m (.sequence first second span) table start stop
  | declare {name : String} {value : Expression} {span : Span} {table : SymbolTable}
      {start : Nat} {type : ValueType}
      (hload : Loads m (table.declareValue name value) start value type)
      (hstore : Stores m (table.declareValue name value) (start + 1) name type) :
      Placed m (.declare name value span) table start (start + 2)
  | assign {name : String} {value : Expression} {span : Span} {table : SymbolTable}
      {start : Nat} {type : ValueType}
      (hload : Loads m table start value type)
      (hstore : Stores m table (start + 1) name type) :
      Placed m (.assign name value span) table start (start + 2)
  | printString {value : Expression} {span : Span} {table : SymbolTable} {start : Nat}
      (hload : Loads m table start value .string)
      (hcall : m.code[start + 1]? = some (.callHost .writeLine)) :
      Placed m (.print value span) table start (start + 2)
  | printInteger {value : Expression} {span : Span} {table : SymbolTable} {start : Nat}
      (hload : Loads m table start value .int)
      (hconvert : m.code[start + 1]? = some .intToString)
      (hcall : m.code[start + 2]? = some (.callHost .writeLine)) :
      Placed m (.print value span) table start (start + 3)
  | readInt {name : String} {span : Span} {table : SymbolTable} {start : Nat}
      (hread : m.code[start]? = some (.callHost .readLine))
      (hparse : m.code[start + 1]? = some (.callHost .parseInt))
      (hstore : Stores m table (start + 2) name .int) :
      Placed m (.readInt name span) table start (start + 3)
  | forLoop {index : String} {lower upper : Expression} {body : Statement} {span : Span}
      {table : SymbolTable} {start middle : Nat} {type : ValueType} {entry back : UInt32}
      (hlower : Loads m (table.declareIndex index) start lower type)
      (hinit : Stores m (table.declareIndex index) (start + 1) index type)
      (hjump : m.code[start + 2]? = some (.jump entry))
      (hentry : entry.toNat = middle + 4)
      (hbody : Placed m body (table.declareIndex index) (start + 3) middle)
      (hindex : Loads m (body.tableAfter (table.declareIndex index)) middle
        (.name index span) .int)
      (hone : Loads m (body.tableAfter (table.declareIndex index)) (middle + 1)
        (.integer 1 span) .int)
      (hadd : m.code[middle + 2]? = some .addInt)
      (hnext : Stores m (body.tableAfter (table.declareIndex index)) (middle + 3) index .int)
      (htest : Loads m (body.tableAfter (table.declareIndex index)) (middle + 4)
        (.name index span) .int)
      (hupper : Loads m (body.tableAfter (table.declareIndex index)) (middle + 5) upper .int)
      (hbranch : m.code[middle + 6]? = some (.branchIfLess back))
      (hback : back.toNat = start + 3) :
      Placed m (.forLoop index lower upper body span) table start (middle + 7)

theorem Loads.lt_size {m : CodeModule} {table : SymbolTable} {position : Nat}
    {value : Expression} {type : ValueType} (hload : Loads m table position value type) :
    position < m.code.size := by
  cases hload with
  | string text span index hcode => exact (Array.getElem?_eq_some_iff.mp hcode).choose
  | integer n span index hcode => exact (Array.getElem?_eq_some_iff.mp hcode).choose
  | name name span symbol hlookup hslot hcode =>
      exact (Array.getElem?_eq_some_iff.mp hcode).choose

/-- Every statement has code. -/
theorem Placed.lt {m : CodeModule} {statement : Statement} {table : SymbolTable}
    {start stop : Nat} (hplaced : Placed m statement table start stop) : start < stop := by
  induction hplaced with
  | sequence hfirst hsecond ihfirst ihsecond => exact Nat.lt_trans ihfirst ihsecond
  | declare => omega
  | assign => omega
  | printString => omega
  | printInteger => omega
  | readInt => omega
  | forLoop => omega

/-! ## Emissions that went well -/

namespace Emission

@[simp] theorem emit_eq_emit {first second : List Directive} {scope scope' : Scope} :
    emit first scope = emit second scope' ↔ first = second ∧ scope = scope' := by
  simp [emit]

@[simp] theorem fail_ne_emit {error : LoweringError} {directives : List Directive}
    {scope : Scope} : fail error ≠ emit directives scope := by
  simp [fail, emit]

/-- An emission that went well came from two that did. -/
theorem andThen_eq_emit {first : Emission} {next : Scope → Emission}
    {directives : List Directive} {scope : Scope} :
    first.andThen next = emit directives scope ↔
      ∃ scope' before after, first = emit before scope' ∧ next scope' = emit after scope ∧
        directives = before ++ after := by
  obtain ⟨before, result⟩ := first
  cases result with
  | error error => simp [andThen, emit]
  | ok scope' =>
      cases hnext : next scope' with
      | mk after result =>
          constructor
          · intro h
            simp only [andThen, hnext, emit, mk.injEq] at h
            exact ⟨scope', before, after, rfl, by rw [hnext, h.2, emit], h.1.symm⟩
          · rintro ⟨_, _, _, hfirst, hsecond, rfl⟩
            simp only [emit, mk.injEq, Except.ok.injEq] at hfirst
            obtain ⟨rfl, rfl⟩ := hfirst
            simp only [andThen]
            rw [hsecond]
            rfl

theorem given_eq_emit {α : Type} {value : Except LoweringError α} {next : α → Emission}
    {directives : List Directive} {scope : Scope} :
    given value next = emit directives scope ↔
      ∃ found, value = .ok found ∧ next found = emit directives scope := by
  cases value with
  | error error => simp [given]
  | ok found => simp [given]

end Emission

/-! ## What each part of the walk emits -/

/-- The directive that pushes the value of an expression, and its type. -/
inductive LoadedBy (table : SymbolTable) : Expression → Directive → ValueType → Prop
  | string (text : String) (span : Span) :
      LoadedBy table (.string text span) (.loadConstant (.string text)) .string
  | integer (n : Int32) (span : Span) :
      LoadedBy table (.integer n span) (.loadConstant (.int n)) .int
  | name (name : String) (span : Span) (symbol : Symbol)
      (hlookup : table.lookup name = some symbol) :
      LoadedBy table (.name name span) (.loadLocal symbol.slot) symbol.type

/-- What a loop emits between the declaration of its index and its body. -/
def loopHead (load : Directive) (slot : UInt32) (label : Nat) : List Directive :=
  [load, .storeLocal slot, .defineLabel, .jump (UInt32.ofNat label), .defineLabel,
    .markLabel (UInt32.ofNat (label + 1))]

/-- What a loop emits after its body. -/
def loopTail (slot : UInt32) (load : Directive) (label : Nat) : List Directive :=
  [.loadLocal slot, .loadConstant (.int 1), .addInt, .storeLocal slot,
    .markLabel (UInt32.ofNat label), .loadLocal slot, load,
    .branchIfLess (UInt32.ofNat (label + 1))]

namespace LoadedBy

variable {table : SymbolTable} {value : Expression} {load : Directive} {type : ValueType}

theorem typeOf?_eq (hloaded : LoadedBy table value load type) :
    table.typeOf? value = some type := by
  cases hloaded with
  | string text span => rfl
  | integer n span => rfl
  | name name span symbol hlookup => simp [SymbolTable.typeOf?, hlookup]

theorem extent_cons (hloaded : LoadedBy table value load type) (rest : List Directive) :
    Directives.extent (load :: rest) = 1 + Directives.extent rest := by
  cases hloaded <;> rfl

theorem declaredTypes_cons (hloaded : LoadedBy table value load type)
    (rest : List Directive) :
    Directives.declaredTypes (load :: rest) = Directives.declaredTypes rest := by
  cases hloaded <;> rfl

theorem stand_cons {m : CodeModule} {place : UInt32 → Option UInt32} {position : Nat}
    (hloaded : LoadedBy table value load type) {rest : List Directive} :
    Directives.Stand m place position (load :: rest) ↔
      load.Stands m place position ∧ Directives.Stand m place (position + 1) rest := by
  cases hloaded <;> exact Iff.rfl

theorem extent_loopHead (hloaded : LoadedBy table value load type) (slot : UInt32)
    (label : Nat) : Directives.extent (loopHead load slot label) = 3 := by
  cases hloaded <;> rfl

theorem declaredTypes_loopHead (hloaded : LoadedBy table value load type) (slot : UInt32)
    (label : Nat) : Directives.declaredTypes (loopHead load slot label) = [] := by
  cases hloaded <;> rfl

theorem extent_loopTail (hloaded : LoadedBy table value load type) (slot : UInt32)
    (label : Nat) : Directives.extent (loopTail slot load label) = 7 := by
  cases hloaded <;> rfl

theorem declaredTypes_loopTail (hloaded : LoadedBy table value load type) (slot : UInt32)
    (label : Nat) : Directives.declaredTypes (loopTail slot load label) = [] := by
  cases hloaded <;> rfl

end LoadedBy

namespace Scope

variable {scope scope' : Scope} {directives : List Directive}

theorem require_eq_ok {name : String} {span : Span} {symbol : Symbol} :
    scope.require name span = .ok symbol ↔ scope.table.lookup name = some symbol := by
  unfold require find?
  cases scope.table.lookup name <;> simp

theorem infer_eq_ok {value : Expression} {type : ValueType}
    (hinfer : scope.infer value = .ok type) : scope.table.typeOf? value = some type := by
  cases value with
  | string text span => cases hinfer; rfl
  | integer n span => cases hinfer; rfl
  | binary operator left right span => cases hinfer
  | name name span =>
      cases hrequire : scope.require name span with
      | error error => simp [infer, hrequire, Except.map] at hinfer
      | ok symbol =>
          simp only [infer, hrequire, Except.map, Except.ok.injEq] at hinfer
          simp [SymbolTable.typeOf?, require_eq_ok.mp hrequire, hinfer]

/-- The only conversion is from an integer to its text. -/
theorem coerce_eq_emit {delivered expected : ValueType} {span : Span}
    (hcoerce : scope.coerce delivered expected span = .emit directives scope') :
    scope' = scope ∧
      (delivered = expected ∧ directives = [] ∨
        delivered = .int ∧ expected = .string ∧ directives = [.intToString]) := by
  unfold coerce at hcoerce
  split at hcoerce
  next heq =>
      simp only [Emission.emit_eq_emit] at hcoerce
      exact ⟨hcoerce.2.symm, .inl ⟨heq, hcoerce.1.symm⟩⟩
  next hne =>
      split at hcoerce
      next hfits =>
          simp only [Emission.emit_eq_emit] at hcoerce
          have htypes : delivered = .int ∧ expected = .string := by
            simpa [ValueType.fits, hne] using hfits
          exact ⟨hcoerce.2.symm, .inr ⟨htypes.1, htypes.2, hcoerce.1.symm⟩⟩
      next => exact absurd hcoerce Emission.fail_ne_emit

theorem push_eq_emit {value : Expression} {expected : ValueType}
    (hpush : scope.push value expected = .emit directives scope') :
    scope' = scope ∧ ∃ load delivered, LoadedBy scope.table value load delivered ∧
      (delivered = expected ∧ directives = [load] ∨
        delivered = .int ∧ expected = .string ∧ directives = [load, .intToString]) := by
  -- All three kinds of value are one load and then the conversion.
  have hload : ∀ {load : Directive} {delivered : ValueType} {span : Span},
      LoadedBy scope.table value load delivered →
      (Emission.emit [load] scope).andThen (coerce delivered expected span) =
        .emit directives scope' →
      scope' = scope ∧ ∃ load delivered, LoadedBy scope.table value load delivered ∧
        (delivered = expected ∧ directives = [load] ∨
          delivered = .int ∧ expected = .string ∧ directives = [load, .intToString]) := by
    intro load delivered span hloaded hemit
    obtain ⟨_, before, after, hfirst, hcoerce, rfl⟩ := Emission.andThen_eq_emit.mp hemit
    obtain ⟨rfl, rfl⟩ := Emission.emit_eq_emit.mp hfirst
    obtain ⟨hscope, htypes⟩ := coerce_eq_emit hcoerce
    refine ⟨hscope, load, delivered, hloaded, ?_⟩
    rcases htypes with ⟨htype, rfl⟩ | ⟨hint, hstring, rfl⟩
    · exact .inl ⟨htype, rfl⟩
    · exact .inr ⟨hint, hstring, rfl⟩
  cases value with
  | string text span => exact hload (.string text span) hpush
  | integer n span => exact hload (.integer n span) hpush
  | name name span =>
      obtain ⟨symbol, hrequire, hemit⟩ := Emission.given_eq_emit.mp hpush
      exact hload (.name name span symbol (require_eq_ok.mp hrequire)) hemit
  | binary operator left right span => exact absurd hpush Emission.fail_ne_emit

theorem popInto_eq_emit {name : String} {type : ValueType} {span : Span}
    (hpop : scope.popInto name type span = .emit directives scope') :
    scope' = scope ∧ ∃ symbol, scope.table.lookup name = some symbol ∧ symbol.type = type ∧
      directives = [.storeLocal symbol.slot] := by
  obtain ⟨symbol, hrequire, hemit⟩ := Emission.given_eq_emit.mp hpop
  split at hemit
  next htype =>
      obtain ⟨rfl, rfl⟩ := Emission.emit_eq_emit.mp hemit
      exact ⟨rfl, symbol, require_eq_ok.mp hrequire, htype, rfl⟩
  next => exact absurd hemit Emission.fail_ne_emit

/-- An expression is pushed with the type it is inferred to have, so an
assignment is one load and one store. -/
theorem assign_eq_emit {name : String} {value : Expression}
    (hassign : scope.assign name value = .emit directives scope') :
    scope' = scope ∧ ∃ load symbol, LoadedBy scope.table value load symbol.type ∧
      scope.table.lookup name = some symbol ∧
      directives = [load, .storeLocal symbol.slot] := by
  obtain ⟨type, hinfer, hemit⟩ := Emission.given_eq_emit.mp hassign
  obtain ⟨_, before, after, hpush, hpop, rfl⟩ := Emission.andThen_eq_emit.mp hemit
  obtain ⟨rfl, load, delivered, hloaded, htypes⟩ := push_eq_emit hpush
  obtain ⟨rfl, symbol, hlookup, rfl, rfl⟩ := popInto_eq_emit hpop
  have htype : delivered = symbol.type := by
    have hinferred := infer_eq_ok hinfer
    rw [hloaded.typeOf?_eq] at hinferred
    exact Option.some.inj hinferred
  rcases htypes with ⟨rfl, rfl⟩ | ⟨hint, hstring, -⟩
  · exact ⟨rfl, load, symbol, hloaded, hlookup, rfl⟩
  · rw [← htype, hint] at hstring
    cases hstring

theorem introduce_eq_emit {name : String} {type : ValueType}
    (hslots : scope.slots = scope.table.length)
    (hintroduce : scope.introduce name type = .emit directives scope') :
    scope'.table = scope.table.declare name type ∧ scope'.slots = scope'.table.length ∧
      directives = [.declareLocal type] := by
  obtain ⟨rfl, rfl⟩ := Emission.emit_eq_emit.mp hintroduce
  exact ⟨by simp only [SymbolTable.declare, hslots], by simp [Scope.table, hslots], rfl⟩

theorem declareIndex_eq_emit {index : String} {lower : Expression}
    (hslots : scope.slots = scope.table.length)
    (hdeclare : scope.declareIndex index lower = .emit directives scope') :
    scope'.table = scope.table.declareIndex index ∧
      scope'.slots = scope'.table.length ∧
      (scope'.table = scope.table ∧ directives = [] ∨
        scope'.table = scope.table.declare index .int ∧
          directives = [.declareLocal .int]) := by
  unfold declareIndex at hdeclare
  split at hdeclare
  next symbol hfind =>
      obtain ⟨rfl, rfl⟩ := Emission.emit_eq_emit.mp hdeclare
      have hlookup : scope.table.lookup index = some symbol := hfind
      refine ⟨?_, hslots, .inl ⟨rfl, rfl⟩⟩
      rw [SymbolTable.declareIndex, hlookup]
  next hfind =>
      obtain ⟨_, -, hemit⟩ := Emission.given_eq_emit.mp hdeclare
      obtain ⟨htable, hslots', rfl⟩ := introduce_eq_emit hslots hemit
      have hlookup : scope.table.lookup index = none := hfind
      refine ⟨?_, hslots', .inr ⟨htable, rfl⟩⟩
      rw [htable, SymbolTable.declareIndex, hlookup]

theorem increment_eq_emit {index : String} {span : Span}
    (hincrement : scope.increment index span = .emit directives scope') :
    scope' = scope ∧ ∃ symbol, scope.table.lookup index = some symbol ∧ symbol.type = .int ∧
      directives = [.loadLocal symbol.slot, .loadConstant (.int 1), .addInt,
        .storeLocal symbol.slot] := by
  obtain ⟨symbol, hrequire, hemit⟩ := Emission.given_eq_emit.mp hincrement
  obtain ⟨_, before, after, hload, hpop, rfl⟩ := Emission.andThen_eq_emit.mp hemit
  obtain ⟨rfl, rfl⟩ := Emission.emit_eq_emit.mp hload
  obtain ⟨rfl, stored, hlookup, htype, rfl⟩ := popInto_eq_emit hpop
  rw [require_eq_ok.mp hrequire] at hlookup
  obtain rfl := Option.some.inj hlookup
  exact ⟨rfl, symbol, require_eq_ok.mp hrequire, htype, rfl⟩

theorem test_eq_emit {label : Nat} {index : String} {upper : Expression} {span : Span}
    (htest : scope.test label index upper span = .emit directives scope') :
    scope' = scope ∧ ∃ symbol load, scope.table.lookup index = some symbol ∧
      LoadedBy scope.table upper load .int ∧
      directives = [.markLabel (UInt32.ofNat label), .loadLocal symbol.slot, load,
        .branchIfLess (UInt32.ofNat (label + 1))] := by
  obtain ⟨_, before, after, hmark, hemit, rfl⟩ := Emission.andThen_eq_emit.mp htest
  obtain ⟨rfl, rfl⟩ := Emission.emit_eq_emit.mp hmark
  obtain ⟨symbol, hrequire, hemit⟩ := Emission.given_eq_emit.mp hemit
  obtain ⟨_, before, after, hload, hemit, rfl⟩ := Emission.andThen_eq_emit.mp hemit
  obtain ⟨rfl, rfl⟩ := Emission.emit_eq_emit.mp hload
  obtain ⟨_, before, after, hpush, hbranch, rfl⟩ := Emission.andThen_eq_emit.mp hemit
  obtain ⟨rfl, rfl⟩ := Emission.emit_eq_emit.mp hbranch
  obtain ⟨rfl, load, delivered, hloaded, htypes⟩ := push_eq_emit hpush
  rcases htypes with ⟨rfl, rfl⟩ | ⟨-, hstring, -⟩
  · exact ⟨rfl, symbol, load, require_eq_ok.mp hrequire, hloaded, rfl⟩
  · cases hstring

end Scope

namespace Statement

variable {scope scope' : Scope} {directives : List Directive}

theorem emission_declare_eq_emit {name : String} {value : Expression} {span : Span}
    (hslots : scope.slots = scope.table.length)
    (hemission : (declare name value span).emission scope = .emit directives scope') :
    ∃ type load symbol, scope.table.declareValue name value = scope.table.declare name type ∧
      scope'.table = scope.table.declare name type ∧ scope'.slots = scope'.table.length ∧
      LoadedBy scope'.table value load symbol.type ∧
      scope'.table.lookup name = some symbol ∧
      directives = [.declareLocal type, load, .storeLocal symbol.slot] := by
  obtain ⟨type, hinfer, hemit⟩ := Emission.given_eq_emit.mp hemission
  obtain ⟨_, before, after, hintroduce, hassign, rfl⟩ := Emission.andThen_eq_emit.mp hemit
  obtain ⟨htable, hslots', rfl⟩ := Scope.introduce_eq_emit hslots hintroduce
  obtain ⟨rfl, load, symbol, hloaded, hlookup, rfl⟩ := Scope.assign_eq_emit hassign
  refine ⟨type, load, symbol, ?_, htable, hslots', hloaded, hlookup, rfl⟩
  rw [SymbolTable.declareValue, Scope.infer_eq_ok hinfer]

theorem emission_print_eq_emit {value : Expression} {span : Span}
    (hemission : (print value span).emission scope = .emit directives scope') :
    scope' = scope ∧ ∃ load,
      (LoadedBy scope.table value load .string ∧ directives = [load, .callHost .writeLine] ∨
        LoadedBy scope.table value load .int ∧
          directives = [load, .intToString, .callHost .writeLine]) := by
  obtain ⟨_, before, after, hpush, hcall, rfl⟩ := Emission.andThen_eq_emit.mp hemission
  obtain ⟨rfl, rfl⟩ := Emission.emit_eq_emit.mp hcall
  obtain ⟨rfl, load, delivered, hloaded, htypes⟩ := Scope.push_eq_emit hpush
  refine ⟨rfl, load, ?_⟩
  rcases htypes with ⟨rfl, rfl⟩ | ⟨rfl, -, rfl⟩
  · exact .inl ⟨hloaded, rfl⟩
  · exact .inr ⟨hloaded, rfl⟩

theorem emission_readInt_eq_emit {name : String} {span : Span}
    (hemission : (readInt name span).emission scope = .emit directives scope') :
    scope' = scope ∧ ∃ symbol, scope.table.lookup name = some symbol ∧ symbol.type = .int ∧
      directives = [.callHost .readLine, .callHost .parseInt, .storeLocal symbol.slot] := by
  obtain ⟨_, before, after, hcalls, hpop, rfl⟩ := Emission.andThen_eq_emit.mp hemission
  obtain ⟨rfl, rfl⟩ := Emission.emit_eq_emit.mp hcalls
  obtain ⟨rfl, symbol, hlookup, htype, rfl⟩ := Scope.popInto_eq_emit hpop
  exact ⟨rfl, symbol, hlookup, htype, rfl⟩

/-- The parts of a loop: the declaration of the index, its first value, the
jump to the test, the body, the increment, and the test. -/
theorem emission_forLoop_eq_emit {index : String} {lower upper : Expression} {body : Statement}
    {span : Span} (hslots : scope.slots = scope.table.length)
    (hemission : (forLoop index lower upper body span).emission scope =
      .emit directives scope') :
    ∃ (scope₁ scope₂ : Scope) (declaration inner : List Directive) (load load' : Directive)
      (symbol symbol' : Symbol) (label : Nat),
      scope₁.table = scope.table.declareIndex index ∧ scope₁.slots = scope₁.table.length ∧
      (scope₁.table = scope.table ∧ declaration = [] ∨
        scope₁.table = scope.table.declare index .int ∧ declaration = [.declareLocal .int]) ∧
      LoadedBy scope₁.table lower load symbol.type ∧
      scope₁.table.lookup index = some symbol ∧
      scope₂.table = scope₁.table ∧ scope₂.slots = scope₁.slots ∧
      body.emission scope₂ = .emit inner scope' ∧
      scope'.table.lookup index = some symbol' ∧ symbol'.type = .int ∧
      LoadedBy scope'.table upper load' .int ∧
      directives = declaration ++ loopHead load symbol.slot label ++ inner ++
        loopTail symbol'.slot load' label := by
  obtain ⟨_, declaration, _, hdeclare, hemit₁, rfl⟩ :=
    Emission.andThen_eq_emit.mp hemission
  obtain ⟨scope₁, _, _, hassign, hemit₂, rfl⟩ := Emission.andThen_eq_emit.mp hemit₁
  obtain ⟨_, _, _, hopen, hemit₃, rfl⟩ := Emission.andThen_eq_emit.mp hemit₂
  obtain ⟨_, inner, _, hbody, hemit₄, rfl⟩ := Emission.andThen_eq_emit.mp hemit₃
  obtain ⟨_, _, _, hincrement, htest, rfl⟩ := Emission.andThen_eq_emit.mp hemit₄
  obtain ⟨htable, hslots₁, hdeclaration⟩ := Scope.declareIndex_eq_emit hslots hdeclare
  obtain ⟨rfl, load, symbol, hloaded, hlookup, rfl⟩ := Scope.assign_eq_emit hassign
  obtain ⟨rfl, rfl⟩ := Emission.emit_eq_emit.mp hopen
  obtain ⟨rfl, symbol', hlookup', htype', rfl⟩ := Scope.increment_eq_emit hincrement
  obtain ⟨rfl, found, load', hfound, hloaded', rfl⟩ := Scope.test_eq_emit htest
  rw [hlookup'] at hfound
  obtain rfl := Option.some.inj hfound
  exact ⟨scope₁, { scope₁ with labels := scope₁.labels + 2 }, declaration, inner, load, load',
    symbol, symbol', scope₁.labels, htable, hslots₁, hdeclaration, hloaded, hlookup, rfl, rfl,
    hbody, hlookup', htype', hloaded', by simp [loopHead, loopTail]⟩

/-- Lowering keeps the table of the statement, gives out its slots in order, and
emits at least one instruction for each of them. -/
theorem emission_table {statement : Statement} (hslots : scope.slots = scope.table.length)
    (hemission : statement.emission scope = .emit directives scope') :
    scope'.table = statement.tableAfter scope.table ∧ scope'.slots = scope'.table.length ∧
      scope'.table.types = scope.table.types ++ Directives.declaredTypes directives ∧
      (Directives.declaredTypes directives).length ≤ Directives.extent directives := by
  induction statement generalizing scope scope' directives with
  | sequence first second span ihfirst ihsecond =>
      obtain ⟨middle, before, after, hfirst, hsecond, rfl⟩ :=
        Emission.andThen_eq_emit.mp hemission
      obtain ⟨htable₁, hslots₁, htypes₁, hcount₁⟩ := ihfirst hslots hfirst
      obtain ⟨htable₂, hslots₂, htypes₂, hcount₂⟩ := ihsecond hslots₁ hsecond
      refine ⟨?_, hslots₂, ?_, ?_⟩
      · rw [htable₂, htable₁, tableAfter]
      · rw [htypes₂, htypes₁, Directives.declaredTypes_append, List.append_assoc]
      · rw [Directives.declaredTypes_append, Directives.extent_append, List.length_append]
        omega
  | declare name value span =>
      obtain ⟨type, load, symbol, hvalue, htable, hslots', hloaded, -, rfl⟩ :=
        emission_declare_eq_emit hslots hemission
      have htypes : Directives.declaredTypes [.declareLocal type, load, .storeLocal symbol.slot] =
          [type] :=
        congrArg (type :: ·) (hloaded.declaredTypes_cons [.storeLocal symbol.slot])
      have hextent : Directives.extent [.declareLocal type, load, .storeLocal symbol.slot] = 2 :=
        congrArg (0 + ·) (hloaded.extent_cons [.storeLocal symbol.slot])
      refine ⟨?_, hslots', ?_, ?_⟩
      · rw [htable, tableAfter, hvalue]
      · rw [htable, SymbolTable.types_declare, htypes]
      · rw [htypes, hextent]
        exact Nat.le_succ 1
  | assign name value span =>
      obtain ⟨rfl, load, symbol, hloaded, -, rfl⟩ := Scope.assign_eq_emit hemission
      refine ⟨rfl, hslots, ?_, ?_⟩
      · rw [hloaded.declaredTypes_cons]
        exact (List.append_nil _).symm
      · rw [hloaded.declaredTypes_cons]
        exact Nat.zero_le _
  | print value span =>
      obtain ⟨rfl, load, ⟨hloaded, rfl⟩ | ⟨hloaded, rfl⟩⟩ := emission_print_eq_emit hemission
      all_goals
        refine ⟨rfl, hslots, ?_, ?_⟩
        · rw [hloaded.declaredTypes_cons]
          exact (List.append_nil _).symm
        · rw [hloaded.declaredTypes_cons]
          exact Nat.zero_le _
  | readInt name span =>
      obtain ⟨rfl, symbol, -, -, rfl⟩ := emission_readInt_eq_emit hemission
      exact ⟨rfl, hslots, (List.append_nil _).symm, Nat.zero_le _⟩
  | forLoop index lower upper body span ih =>
      obtain ⟨scope₁, scope₂, declaration, inner, load, load', symbol, symbol', label, htable₁,
        hslots₁, hdeclaration, hloaded, -, htable₂, hslots₂, hbody, -, -, hloaded', rfl⟩ :=
        emission_forLoop_eq_emit hslots hemission
      obtain ⟨htable, hslots', htypes, hcount⟩ := ih (by rw [hslots₂, htable₂, hslots₁]) hbody
      -- The index adds at most one slot, and the loop has instructions of its own.
      have hdeclared : scope₁.table.types =
          scope.table.types ++ Directives.declaredTypes declaration ∧
          (Directives.declaredTypes declaration).length ≤ 1 := by
        rcases hdeclaration with ⟨hsame, rfl⟩ | ⟨hnew, rfl⟩
        · rw [hsame]
          exact ⟨(List.append_nil _).symm, Nat.zero_le _⟩
        · rw [hnew, SymbolTable.types_declare]
          exact ⟨rfl, Nat.le_refl 1⟩
      refine ⟨?_, hslots', ?_, ?_⟩
      · rw [htable, htable₂, htable₁, tableAfter]
      · rw [htypes, htable₂, hdeclared.1]
        simp only [Directives.declaredTypes_append, hloaded.declaredTypes_loopHead,
          hloaded'.declaredTypes_loopTail, List.append_nil, List.nil_append, List.append_assoc]
      · simp only [Directives.declaredTypes_append, hloaded.declaredTypes_loopHead,
          hloaded'.declaredTypes_loopTail, List.append_nil, List.length_append,
          Directives.extent_append, hloaded.extent_loopHead, hloaded'.extent_loopTail]
        omega

end Statement

/-! ## From directives to code -/

/-- What makes the numbers in the code of a module good: every index fits into
32 bits, and the slots of the table have the types that the module declares. -/
structure Fits (m : CodeModule) (table : SymbolTable) : Prop where
  code : m.code.size ≤ UInt32.size
  constants : m.constants.size ≤ UInt32.size
  slots : ∀ entry ∈ table, m.locals[entry.2.slot.toNat]? = some entry.2.type

section

variable {m : CodeModule} {table : SymbolTable} {place : UInt32 → Option UInt32}
  {position : Nat}

theorem Fits.of_suffix {larger : SymbolTable} (hfits : Fits m larger)
    (hsuffix : table <:+ larger) : Fits m table where
  code := hfits.code
  constants := hfits.constants
  slots entry hentry := hfits.slots entry (hsuffix.subset hentry)

/-- A place up to which the code reaches fits into a jump. -/
theorem Fits.toNat_ofNat_of_code (hfits : Fits m table) {instruction : Instruction}
    {target : Nat} (hcode : m.code[position]? = some instruction) (hle : target ≤ position) :
    (UInt32.ofNat target).toNat = target := by
  obtain ⟨hlt, -⟩ := Array.getElem?_eq_some_iff.mp hcode
  have hsize := hfits.code
  exact UInt32.toNat_ofNat_of_lt' (by omega)

/-- The index of a constant in the code is its index in the pool. -/
theorem Fits.exists_constant (hfits : Fits m table) {constant : Value}
    (hstands : (Directive.loadConstant constant).Stands m place position) :
    ∃ index, m.code[position]? = some (.constant index) ∧
      m.constants[index.toNat]? = some constant := by
  obtain ⟨index, hcode, hconstant⟩ := hstands
  obtain ⟨hlt, -⟩ := Array.getElem?_eq_some_iff.mp hconstant
  refine ⟨UInt32.ofNat index, hcode, ?_⟩
  rw [UInt32.toNat_ofNat_of_lt' (Nat.lt_of_lt_of_le hlt hfits.constants), hconstant]

theorem LoadedBy.loads {value : Expression} {load : Directive} {type : ValueType}
    (hloaded : LoadedBy table value load type) (hfits : Fits m table)
    (hstands : load.Stands m place position) : Loads m table position value type := by
  cases hloaded with
  | string text span =>
      obtain ⟨index, hcode, hconstant⟩ := hfits.exists_constant hstands
      exact .string text span index hcode hconstant
  | integer n span =>
      obtain ⟨index, hcode, hconstant⟩ := hfits.exists_constant hstands
      exact .integer n span index hcode hconstant
  | name name span symbol hlookup =>
      exact .name name span symbol hlookup
        (hfits.slots (name, symbol) (SymbolTable.mem_of_lookup hlookup)) hstands

theorem Fits.stores (hfits : Fits m table) {name : String} {symbol : Symbol}
    (hlookup : table.lookup name = some symbol)
    (hstands : (Directive.storeLocal symbol.slot).Stands m place position) :
    Stores m table position name symbol.type :=
  ⟨symbol, hlookup, rfl, hfits.slots (name, symbol) (SymbolTable.mem_of_lookup hlookup), hstands⟩

end

/-- The code of a loop around the code of its body. -/
theorem placed_forLoop {m : CodeModule} {place : UInt32 → Option UInt32} {table : SymbolTable}
    {index : String} {lower upper : Expression} {body : Statement} {span : Span}
    {position middle label : Nat} {load load' : Directive} {symbol symbol' : Symbol}
    (hfits : Fits m (body.tableAfter (table.declareIndex index)))
    (hloaded : LoadedBy (table.declareIndex index) lower load symbol.type)
    (hlookup : (table.declareIndex index).lookup index = some symbol)
    (hbody : Placed m body (table.declareIndex index) (position + 3) middle)
    (hlookup' : (body.tableAfter (table.declareIndex index)).lookup index = some symbol')
    (htype' : symbol'.type = .int)
    (hloaded' : LoadedBy (body.tableAfter (table.declareIndex index)) upper load' .int)
    (hhead : Directives.Stand m place position (loopHead load symbol.slot label))
    (htail : Directives.Stand m place middle (loopTail symbol'.slot load' label)) :
    Placed m (.forLoop index lower upper body span) table position (middle + 7) := by
  have hfitsBefore : Fits m (table.declareIndex index) :=
    hfits.of_suffix (body.suffix_tableAfter (table.declareIndex index))
  have hmiddle := hbody.lt
  -- Both labels are marked where the code of the loop says they are.
  obtain ⟨hload, hstore, -, ⟨entry, hjump, hentry⟩, -, hmarked, -⟩ :=
    hloaded.stand_cons.mp hhead
  obtain ⟨hindex, hone, hadd, hnext, hmarked', htest, hrest⟩ := htail
  obtain ⟨hupper, ⟨back, hbranch, hback⟩, -⟩ := hloaded'.stand_cons.mp hrest
  rw [hmarked'] at hentry
  obtain rfl := Option.some.inj hentry
  rw [hmarked] at hback
  obtain rfl := Option.some.inj hback
  have hloadedIndex : LoadedBy (body.tableAfter (table.declareIndex index)) (.name index span)
      (.loadLocal symbol'.slot) symbol'.type := .name index span symbol' hlookup'
  have hloadedOne : LoadedBy (body.tableAfter (table.declareIndex index)) (.integer 1 span)
      (.loadConstant (.int 1)) .int := .integer 1 span
  have hplacedIndex := hloadedIndex.loads hfits hindex
  have hplacedTest := hloadedIndex.loads hfits htest
  have hplacedNext := hfits.stores hlookup' hnext
  rw [htype'] at hplacedIndex hplacedTest hplacedNext
  have htestCode : m.code[middle + 4]? = some (.loadLocal symbol'.slot) := htest
  have htestPlace : (UInt32.ofNat (middle + 4)).toNat = middle + 4 :=
    hfits.toNat_ofNat_of_code htestCode (Nat.le_refl _)
  have hbodyPlace : (UInt32.ofNat (position + 3)).toNat = position + 3 :=
    hfits.toNat_ofNat_of_code htestCode (by omega)
  exact .forLoop (hloaded.loads hfitsBefore hload) (hfitsBefore.stores hlookup hstore) hjump
    htestPlace hbody hplacedIndex (hloadedOne.loads hfits hone) hadd hplacedNext hplacedTest
    (hloaded'.loads hfits hupper) hbranch hbodyPlace

/-- The directives of a statement that stand in a module are its code there. -/
theorem Statement.placed_of_stand {statement : Statement} {scope scope' : Scope}
    {directives : List Directive} {m : CodeModule} {place : UInt32 → Option UInt32}
    {position : Nat} (hslots : scope.slots = scope.table.length)
    (hemission : statement.emission scope = .emit directives scope')
    (hfits : Fits m (statement.tableAfter scope.table))
    (hstand : Directives.Stand m place position directives) :
    Placed m statement scope.table position (position + Directives.extent directives) := by
  induction statement generalizing scope scope' directives position with
  | sequence first second span ihfirst ihsecond =>
      obtain ⟨middle, before, after, hfirst, hsecond, rfl⟩ :=
        Emission.andThen_eq_emit.mp hemission
      obtain ⟨hbefore, hafter⟩ := Directives.stand_append.mp hstand
      obtain ⟨htable, hslots', -, -⟩ := emission_table hslots hfirst
      have hplacedFirst := ihfirst hslots hfirst
        (hfits.of_suffix (second.suffix_tableAfter (first.tableAfter scope.table))) hbefore
      have hplacedSecond := ihsecond hslots' hsecond (by rw [htable]; exact hfits) hafter
      rw [htable, Nat.add_assoc, ← Directives.extent_append] at hplacedSecond
      exact .sequence hplacedFirst hplacedSecond
  | declare name value span =>
      obtain ⟨type, load, symbol, hvalue, htable, -, hloaded, hlookup, rfl⟩ :=
        emission_declare_eq_emit hslots hemission
      rw [tableAfter, hvalue, ← htable] at hfits
      obtain ⟨-, hrest⟩ := hstand
      obtain ⟨hload, hstore, -⟩ := hloaded.stand_cons.mp hrest
      have hextent : Directives.extent [.declareLocal type, load, .storeLocal symbol.slot] = 2 :=
        congrArg (0 + ·) (hloaded.extent_cons [.storeLocal symbol.slot])
      have hplacedLoad := hloaded.loads hfits hload
      have hplacedStore := hfits.stores hlookup hstore
      rw [htable, ← hvalue] at hplacedLoad hplacedStore
      rw [hextent]
      exact .declare hplacedLoad hplacedStore
  | assign name value span =>
      obtain ⟨rfl, load, symbol, hloaded, hlookup, rfl⟩ := Scope.assign_eq_emit hemission
      obtain ⟨hload, hstore, -⟩ := hloaded.stand_cons.mp hstand
      rw [hloaded.extent_cons]
      exact .assign (hloaded.loads hfits hload) (hfits.stores hlookup hstore)
  | print value span =>
      obtain ⟨rfl, load, ⟨hloaded, rfl⟩ | ⟨hloaded, rfl⟩⟩ := emission_print_eq_emit hemission
      · obtain ⟨hload, hcall, -⟩ := hloaded.stand_cons.mp hstand
        rw [hloaded.extent_cons]
        exact .printString (hloaded.loads hfits hload) hcall
      · obtain ⟨hload, hconvert, hcall, -⟩ := hloaded.stand_cons.mp hstand
        rw [hloaded.extent_cons]
        exact .printInteger (hloaded.loads hfits hload) hconvert hcall
  | readInt name span =>
      obtain ⟨rfl, symbol, hlookup, htype, rfl⟩ := emission_readInt_eq_emit hemission
      obtain ⟨hread, hparse, hstore, -⟩ := hstand
      have hplacedStore := hfits.stores hlookup hstore
      rw [htype] at hplacedStore
      exact .readInt hread hparse hplacedStore
  | forLoop index lower upper body span ih =>
      obtain ⟨scope₁, scope₂, declaration, inner, load, load', symbol, symbol', label, htable₁,
        hslots₁, hdeclaration, hloaded, hlookup, htable₂, hslots₂, hbody, hlookup', htype',
        hloaded', rfl⟩ := emission_forLoop_eq_emit hslots hemission
      have hslots' : scope₂.slots = scope₂.table.length := by rw [hslots₂, htable₂, hslots₁]
      obtain ⟨htable', -, -, -⟩ := emission_table hslots' hbody
      rw [htable₂, htable₁] at htable'
      rw [tableAfter] at hfits
      have hdeclaration : Directives.extent declaration = 0 := by
        rcases hdeclaration with ⟨-, rfl⟩ | ⟨-, rfl⟩ <;> rfl
      simp only [Directives.stand_append, Directives.extent_append, hdeclaration,
        hloaded.extent_loopHead, Nat.zero_add, Nat.add_zero] at hstand
      obtain ⟨⟨⟨-, hhead⟩, hinner⟩, htail⟩ := hstand
      have hplacedBody := ih hslots' hbody (by rw [htable₂, htable₁]; exact hfits) hinner
      rw [htable₂, htable₁] at hplacedBody
      have hstop : position + Directives.extent (declaration ++
          loopHead load symbol.slot label ++ inner ++ loopTail symbol'.slot load' label) =
          position + 3 + Directives.extent inner + 7 := by
        simp only [Directives.extent_append, hdeclaration, hloaded.extent_loopHead,
          hloaded'.extent_loopTail]
        omega
      rw [← Nat.add_assoc] at htail
      rw [htable₁] at hloaded hlookup
      rw [htable'] at hloaded' hlookup'
      rw [hstop]
      exact placed_forLoop hfits hloaded hlookup hplacedBody hlookup' htype' hloaded' hhead htail

/-! ## Compiled programs -/

/-- A compiled program went through both passes. -/
theorem Statement.compile_eq_ok {program : Statement} {name : String} {m : CodeModule}
    (hcompile : program.compile name = .ok m) :
    ∃ directives scope, program.emission .empty = .emit directives scope ∧
      assemble name entryPoint directives = .ok m := by
  rcases program.compile_stages name with
    ⟨directives, error, -, hfailed⟩ | ⟨directives, scope, hemission, hassembled⟩
  · rw [hfailed] at hcompile
    cases hcompile
  · rw [hassembled] at hcompile
    exact ⟨directives, scope, hemission, mapError_eq_ok.mp hcompile⟩

/-- The whole program stands in its module, from the first position to the
final return, and the slots of the module are those of the program. -/
theorem Statement.placed_of_compile {program : Statement} {name : String} {m : CodeModule}
    (hcompile : program.compile name = .ok m) (hsize : m.code.size ≤ UInt32.size) :
    ∃ stop, Placed m program [] 0 stop ∧ m.code[stop]? = some .ret ∧
      m.locals.toList = (program.tableAfter []).types ∧
      (program.tableAfter []).length ≤ UInt32.size := by
  obtain ⟨directives, scope, hemission, hassemble⟩ := compile_eq_ok hcompile
  obtain ⟨⟨place, hstand⟩, hcode, hret, hlocals, hconstants⟩ := assemble_stands hassemble
  have hempty : Scope.empty.table = [] := rfl
  obtain ⟨htable, -, htypes, hcount⟩ := emission_table rfl hemission
  rw [htable, hempty, show SymbolTable.types [] = [] from rfl, List.nil_append] at htypes
  have hlength : (program.tableAfter []).length ≤ UInt32.size := by
    rw [← SymbolTable.length_types, htypes]
    omega
  have hstart : SymbolTable.Numbered [] := trivial
  have hnumbered : (program.tableAfter []).Numbered := hstart.tableAfter program
  have hfits : Fits m (program.tableAfter Scope.empty.table) := by
    refine ⟨hsize, Nat.le_trans hconstants hsize, fun entry hentry => ?_⟩
    rw [← Array.getElem?_toList, hlocals, ← htypes]
    exact hnumbered.getElem?_types hlength hentry
  have hplaced := placed_of_stand rfl hemission hfits hstand
  rw [Nat.zero_add] at hplaced
  exact ⟨_, hplaced, hret, by rw [hlocals, htypes], hlength⟩

end SlotLang
