import SlotLang.Proofs.LoopTermination
import SlotLang.Proofs.NodeSources
import SlotLang.Proofs.StackSafety

/-!
# Statements that a run comes to

The code of every statement of a program has a place in the module, and the names declared
before the statement are known there.  Both depend on the program alone.  So one can say of
any run when it comes to a statement, also in a loop and for the second time, and what the
statement then does to the slots.

A declaration stores the value that its expression has when the run comes to it, with the
names as they were before the declaration.  The one exception is a declaration that has its
own name for its first value.  The name already stands for the new slot then, which keeps
what is in it.

* `Statement.places` — the statements of a program, with their tables and positions.
* `Statement.holds_of_compile` — their code stands there.
* `Statement.types_of_run` — in every run the slots have values of their types.
* `Statement.run_declares` — what a declaration stores.
-/

namespace SlotLang

/-! ## Places -/

/-- The number of instructions of a statement. -/
def Statement.codeLength : Statement → SymbolTable → Nat
  | sequence first second _, table =>
      first.codeLength table + second.codeLength (first.tableAfter table)
  | declare _ _ _, _ => 2
  | assign _ _ _, _ => 2
  | print value _, table => if table.typeOf? value = some .int then 3 else 2
  | readInt _ _, _ => 3
  | forLoop index _ _ body _, table => 3 + body.codeLength (table.declareIndex index) + 7

/-- A statement, the names declared before it, and the position of its first instruction. -/
structure Place where
  node : Statement
  table : SymbolTable
  start : Nat

/-- The number of instructions at a place. -/
def Place.length (place : Place) : Nat :=
  place.node.codeLength place.table

/-- The places of a statement and of the statements that it is made up of. -/
def Statement.places : Statement → SymbolTable → Nat → List Place
  | sequence first second span, table, start =>
      ⟨sequence first second span, table, start⟩ :: (first.places table start ++
        second.places (first.tableAfter table) (start + first.codeLength table))
  | forLoop index lower upper body span, table, start =>
      ⟨forLoop index lower upper body span, table, start⟩ ::
        body.places (table.declareIndex index) (start + 3)
  | declare name value span, table, start => [⟨declare name value span, table, start⟩]
  | assign name value span, table, start => [⟨assign name value span, table, start⟩]
  | print value span, table, start => [⟨print value span, table, start⟩]
  | readInt name span, table, start => [⟨readInt name span, table, start⟩]

/-- Every statement of a program has a place. -/
theorem Statement.map_node_places (statement : Statement) (table : SymbolTable) (start : Nat) :
    (statement.places table start).map Place.node = statement.nodes := by
  induction statement generalizing table start with
  | sequence first second span ihfirst ihsecond =>
      rw [places, nodes, List.map_cons, List.map_append, ihfirst, ihsecond]
  | declare name value span => rfl
  | assign name value span => rfl
  | print value span => rfl
  | readInt name span => rfl
  | forLoop index lower upper body span ih => rw [places, nodes, List.map_cons, ih]

/-- What passes from a statement to its parts holds at every place. -/
theorem Statement.forall_places {motive : Place → Prop}
    (hsequence : ∀ first second span table start,
      motive ⟨.sequence first second span, table, start⟩ → motive ⟨first, table, start⟩ ∧
        motive ⟨second, first.tableAfter table, start + first.codeLength table⟩)
    (hloop : ∀ index lower upper body span table start,
      motive ⟨.forLoop index lower upper body span, table, start⟩ →
        motive ⟨body, table.declareIndex index, start + 3⟩)
    {statement : Statement} {table : SymbolTable} {start : Nat}
    (hstatement : motive ⟨statement, table, start⟩) :
    ∀ place ∈ statement.places table start, motive place := by
  induction statement generalizing table start with
  | sequence first second span ihfirst ihsecond =>
      obtain ⟨hfirst, hsecond⟩ := hsequence first second span table start hstatement
      rw [places, List.forall_mem_cons, List.forall_mem_append]
      exact ⟨hstatement, ihfirst hfirst, ihsecond hsecond⟩
  | declare name value span => exact List.forall_mem_singleton.mpr hstatement
  | assign name value span => exact List.forall_mem_singleton.mpr hstatement
  | print value span => exact List.forall_mem_singleton.mpr hstatement
  | readInt name span => exact List.forall_mem_singleton.mpr hstatement
  | forLoop index lower upper body span ih =>
      rw [places, List.forall_mem_cons]
      exact ⟨hstatement, ih (hloop index lower upper body span table start hstatement)⟩

/-! ## Code at places -/

theorem Loads.typeOf?_eq {m : CodeModule} {table : SymbolTable} {position : Nat}
    {value : Expression} {type : ValueType} (hload : Loads m table position value type) :
    table.typeOf? value = some type := by
  cases hload with
  | string text span index hcode hconstant => rfl
  | integer n span index hcode hconstant => rfl
  | name name span symbol hlookup hslot hcode => simp [SymbolTable.typeOf?, hlookup]

/-- The code of a statement has the length of the statement. -/
theorem Placed.stop_eq {m : CodeModule} {statement : Statement} {table : SymbolTable}
    {start stop : Nat} (hplaced : Placed m statement table start stop) :
    stop = start + statement.codeLength table := by
  induction hplaced with
  | sequence hfirst hsecond ihfirst ihsecond =>
      rw [Statement.codeLength]
      omega
  | declare hload hstore => rfl
  | assign hload hstore => rfl
  | printString hload hcall => rw [Statement.codeLength, hload.typeOf?_eq, if_neg (by decide)]
  | printInteger hload hconvert hcall => rw [Statement.codeLength, hload.typeOf?_eq, if_pos rfl]
  | readInt hread hparse hstore => rfl
  | forLoop hlower hinit hjump hentry hbody hindex hone hadd hnext htest hupper hbranch hback ih =>
      rw [Statement.codeLength]
      omega

/-- The code of the statement stands at its place, and there are slots enough for the names
that are declared up to its end. -/
structure CodeModule.Holds (m : CodeModule) (place : Place) : Prop where
  placed : Placed m place.node place.table place.start (place.start + place.length)
  numbered : place.table.Numbered
  length_le : (place.node.tableAfter place.table).length ≤ UInt32.size

section

variable {program : Statement} {name : String} {m : CodeModule}

/-- The code of a compiled program stands at the places of its statements. -/
theorem Statement.holds_of_compile (hcompile : program.compile name = .ok m)
    (hsize : m.code.size ≤ UInt32.size) : ∀ place ∈ program.places [] 0, m.Holds place := by
  obtain ⟨stop, hplaced, -, -, hlength⟩ := program.placed_of_compile hcompile hsize
  refine forall_places ?_ ?_ ⟨hplaced.stop_eq ▸ hplaced, trivial, hlength⟩
  · rintro first second span table start ⟨hplaced, hnumbered, hlength⟩
    have hgrows := (second.suffix_tableAfter (first.tableAfter table)).length_le
    cases hplaced with
    | sequence hfirst hsecond =>
        have hmiddle := hfirst.stop_eq
        subst hmiddle
        exact ⟨⟨hfirst, hnumbered, Nat.le_trans hgrows hlength⟩,
          ⟨hsecond.stop_eq ▸ hsecond, hnumbered.tableAfter first, hlength⟩⟩
  · rintro index lower upper body span table start ⟨hplaced, hnumbered, hlength⟩
    generalize Place.start _ + Place.length _ = stop at hplaced
    cases hplaced with
    | forLoop hlower hinit hjump hentry hbody =>
        exact ⟨hbody.stop_eq ▸ hbody, hnumbered.declareIndex index, hlength⟩

/-- In every state of a run of a compiled program the slots have values of their types. -/
theorem Statement.types_of_run (hcompile : program.compile name = .ok m)
    (hsize : m.code.size ≤ UInt32.size) {σ : Type} {host : Host σ} {steps : Nat} {h h' : σ}
    {state : MachineState} (hrun : m.run host steps h = .outOfFuel state h') :
    m.Types state.locals := by
  obtain ⟨inside, hstart, hinside⟩ := program.flows_of_compile hcompile hsize
  have hstep : ∀ state : MachineState, state.StandsIn m inside →
      m.Keeps (·.StandsIn m inside) (m.step state) := by
    intro state hstands
    obtain ⟨-, instruction, hcode, hallows⟩ := hinside state.point hstands.point
    exact (hallows.mono fun _ hnext => hnext.resolve_right id).keeps hcode hstands.point
      hstands.types
  have hzero : (MachineState.start m).StandsIn m inside := ⟨hstart, m.types_zero⟩
  have hkeeps : m.KeepsTo (·.StandsIn m inside) (m.run host steps h) :=
    CodeModule.runFrom_of_step hstep host steps hzero h
  rw [hrun] at hkeeps
  exact MachineState.StandsIn.types hkeeps

/-! ## Declarations -/

namespace SymbolTable

variable {table : SymbolTable} {name : String} {value : Expression} {type : ValueType}

/-- A declared name has the next slot. -/
theorem lookup_declareValue_self (htype : table.typeOf? value = some type) :
    (table.declareValue name value).lookup name =
      some ⟨UInt32.ofNat table.length, type⟩ := by
  rw [declareValue, htype]
  exact List.lookup_cons_self

/-- The first value of a declaration that is good after it was good before it. -/
theorem exists_typeOf?_of_declareValue
    (htype : (table.declareValue name value).typeOf? value = some type) :
    ∃ type', table.typeOf? value = some type' := by
  cases hbefore : table.typeOf? value with
  | none =>
      simp only [declareValue, hbefore] at htype
      cases htype
  | some type' => exact ⟨type', rfl⟩

/-- No other name has the slot of a declared name. -/
theorem Numbered.slot_ne_of_declareValue (hnumbered : table.Numbered)
    (htype : table.typeOf? value = some type)
    (hlength : (table.declareValue name value).length ≤ UInt32.size)
    {entry : String × Symbol} (hentry : entry ∈ table) :
    entry.2.slot ≠ UInt32.ofNat table.length := by
  simp only [SymbolTable.declareValue, htype, SymbolTable.declare, List.length_cons] at hlength
  have hlt := hnumbered.slot_lt (by omega) hentry
  intro heq
  rw [heq, UInt32.toNat_ofNat_of_lt' (by omega)] at hlt
  exact Nat.lt_irrefl _ hlt

end SymbolTable

/-- An expression does not see the declaration of another name. -/
theorem Memory.value_slots_declareValue {table : SymbolTable} {name : String}
    {value first : Expression} (hother : ∀ place, value ≠ .name name place)
    (store : Array Value) :
    slots.value (table.declareValue name first) value store = slots.value table value store := by
  cases value with
  | string text span => rfl
  | integer n span => rfl
  | name other span =>
      have hne : other ≠ name := fun heq => hother span (heq ▸ rfl)
      exact read_slots_congr (table.lookup_declareValue_of_ne first hne) store
  | binary operator left right span => rfl

/-- Every statement of a program has a place, and a declaration that a run comes to stores a
value in a slot that no other name has, and does nothing else.  The value is the one that the
expression of the declaration has at that time, with the names declared before; but if the
expression is the declared name itself, it is the value that is in the slot already. -/
theorem Statement.run_declares (program : Statement) :
    (program.places [] 0).map Place.node = program.nodes ∧
    ∀ {name : String} {m : CodeModule}, program.compile name = .ok m →
      m.code.size ≤ UInt32.size → ∀ {target : String} {value : Expression} {span : Span}
      {table : SymbolTable} {start : Nat},
      ⟨.declare target value span, table, start⟩ ∈ program.places [] 0 → ∀ {σ : Type}
      {host : Host σ} {steps : Nat} {h h' : σ} {stack : List Value} {store : Array Value},
      m.run host steps h = .outOfFuel ⟨start, stack, store⟩ h' →
      ∃ symbol v, (table.declareValue target value).lookup target = some symbol ∧
        (∀ entry ∈ table, entry.2.slot ≠ symbol.slot) ∧ symbol.slot.toNat < store.size ∧
        m.run host (steps + 2) h =
          .outOfFuel ⟨start + 2, stack, store.setIfInBounds symbol.slot.toNat v⟩ h' ∧
        ((∀ place, value ≠ .name target place) → Memory.slots.value table value store = some v) ∧
        (∀ place, value = .name target place → store[symbol.slot.toNat]? = some v) := by
  refine ⟨program.map_node_places [] 0, ?_⟩
  intro name m hcompile hsize target value span table start hplace σ host steps h h' stack store
    hrun
  obtain ⟨hplaced, hnumbered, hlength⟩ := program.holds_of_compile hcompile hsize _ hplace
  have htypes : m.Types store := types_of_run hcompile hsize hrun
  have hleads : m.Leads host steps (.start m, h) (⟨start, stack, store⟩, h') := hrun
  cases hplaced with
  | @declare _ _ _ _ _ type hload hstore =>
      obtain ⟨v, hvalue, -, hpush⟩ := hload.step htypes
      obtain ⟨symbol, hlookup, -, hslot, hcode⟩ := hstore
      obtain ⟨old, hold, -⟩ := htypes.exists_value hslot
      have hlt : symbol.slot.toNat < store.size := (Array.getElem?_eq_some_iff.mp hold).choose
      refine ⟨symbol, v, hlookup, fun entry hentry => ?_, hlt, ?_, fun hother => ?_, ?_⟩
      · obtain ⟨type', htype⟩ := SymbolTable.exists_typeOf?_of_declareValue hload.typeOf?_eq
        cases (SymbolTable.lookup_declareValue_self htype).symm.trans hlookup
        exact hnumbered.slot_ne_of_declareValue htype hlength hentry
      · exact hleads.trans ((CodeModule.Leads.of_next (hpush stack) h').trans
          (.of_next (CodeModule.step_storeLocal hcode hlt) h'))
      · exact (Memory.value_slots_declareValue hother store).symm.trans hvalue
      · rintro place rfl
        have hread : Memory.slots.read (table.declareValue target (.name target place)) target
            store = some v := hvalue
        simpa only [Memory.slots, hlookup, Option.bind_some] using hread

/-- The program `var x = 4; for i = 0 to 2 do var y = i; var x = x; x = 9 end`. -/
def Statement.renewing : Statement :=
  .sequence (.declare "x" (.integer 4 ⟨8, 9⟩) ⟨0, 9⟩)
    (.forLoop "i" (.integer 0 ⟨19, 20⟩) (.integer 2 ⟨24, 25⟩)
      (.sequence (.declare "y" (.name "i" ⟨37, 38⟩) ⟨29, 38⟩)
        (.sequence (.declare "x" (.name "x" ⟨48, 49⟩) ⟨40, 49⟩)
          (.assign "x" (.integer 9 ⟨55, 56⟩) ⟨51, 56⟩) ⟨40, 56⟩) ⟨29, 56⟩) ⟨11, 60⟩) ⟨0, 60⟩

/-- The module of that program. -/
def CodeModule.renewing : CodeModule where
  name := "renewing"
  entry := "main"
  locals := #[.int, .int, .int, .int]
  constants := #[.int 4, .int 0, .int 9, .int 1, .int 2]
  code := #[.constant 0, .storeLocal 0, .constant 1, .storeLocal 1, .jump 15, .loadLocal 1,
    .storeLocal 2, .loadLocal 3, .storeLocal 3, .constant 2, .storeLocal 3, .loadLocal 1,
    .constant 3, .addInt, .storeLocal 1, .loadLocal 1, .constant 4, .branchIfLess 5, .ret]

/-- In the second round the declaration of `y` stores the index, and that of `x` keeps the 9
that the first round has left in its slot, whatever the `x` in front of the loop holds. -/
theorem Statement.renewing_run_declares :
    Statement.renewing.compile "renewing" = .ok CodeModule.renewing ∧
      CodeModule.renewing.code.size ≤ UInt32.size ∧
      (⟨.declare "y" (.name "i" ⟨37, 38⟩) ⟨29, 38⟩, [("i", ⟨1, .int⟩), ("x", ⟨0, .int⟩)], 5⟩ ∈
          Statement.renewing.places [] 0 ∧
        CodeModule.renewing.run Script.host 21 (Script.start [] none none) =
          .outOfFuel ⟨5, [], #[.int 4, .int 1, .int 0, .int 9]⟩ (Script.start [] none none) ∧
        CodeModule.renewing.run Script.host (21 + 2) (Script.start [] none none) =
          .outOfFuel ⟨5 + 2, [], #[.int 4, .int 1, .int 1, .int 9]⟩
            (Script.start [] none none)) ∧
      ⟨.declare "x" (.name "x" ⟨48, 49⟩) ⟨40, 49⟩,
          [("y", ⟨2, .int⟩), ("i", ⟨1, .int⟩), ("x", ⟨0, .int⟩)], 7⟩ ∈
        Statement.renewing.places [] 0 ∧
      CodeModule.renewing.run Script.host (23 + 2) (Script.start [] none none) =
        .outOfFuel ⟨7 + 2, [], #[.int 4, .int 1, .int 1, .int 9]⟩ (Script.start [] none none) := by
  have hcompile : Statement.renewing.compile "renewing" = .ok CodeModule.renewing :=
    eq_ok_of_toOption (by decide +kernel)
  have hsize : CodeModule.renewing.code.size ≤ UInt32.size := by decide
  have hplace : ⟨.declare "y" (.name "i" ⟨37, 38⟩) ⟨29, 38⟩,
      [("i", ⟨1, .int⟩), ("x", ⟨0, .int⟩)], 5⟩ ∈ Statement.renewing.places [] 0 :=
    List.mem_of_getElem? (i := 4) rfl
  have hself : ⟨.declare "x" (.name "x" ⟨48, 49⟩) ⟨40, 49⟩,
      [("y", ⟨2, .int⟩), ("i", ⟨1, .int⟩), ("x", ⟨0, .int⟩)], 7⟩ ∈
        Statement.renewing.places [] 0 := List.mem_of_getElem? (i := 6) rfl
  have hrun : CodeModule.renewing.run Script.host 21 (Script.start [] none none) =
      .outOfFuel ⟨5, [], #[.int 4, .int 1, .int 0, .int 9]⟩ (Script.start [] none none) := by
    with_unfolding_all rfl
  obtain ⟨-, hdeclares⟩ := Statement.renewing.run_declares
  obtain ⟨symbol, v, hlookup, -, -, hafter, hvalue, -⟩ := hdeclares hcompile hsize hplace hrun
  cases hlookup
  cases hvalue (by simp)
  obtain ⟨symbol, v, hlookup, -, -, hkept, -, hvalue⟩ := hdeclares hcompile hsize hself hafter
  cases hlookup
  cases hvalue _ rfl
  exact ⟨hcompile, hsize, ⟨hplace, hrun, hafter⟩, hself, hkept⟩

/-- A declaration that has the name declared before it for its first value. -/
def Statement.selfDeclaring : Statement :=
  .sequence (.declare "x" (.integer 1 ⟨8, 9⟩) ⟨0, 9⟩)
    (.sequence (.declare "x" (.name "x" ⟨19, 20⟩) ⟨11, 20⟩)
      (.print (.name "x" ⟨28, 29⟩) ⟨22, 29⟩) ⟨11, 29⟩) ⟨0, 29⟩

/-- The module of that program. -/
def CodeModule.selfDeclaring : CodeModule where
  name := "selfDeclaring"
  entry := "main"
  locals := #[.int, .int]
  constants := #[.int 1]
  code := #[.constant 0, .storeLocal 0, .loadLocal 1, .storeLocal 1, .loadLocal 1, .intToString,
    .callHost .writeLine, .ret]

/-- The names in the first value of a declaration need not be those declared before it: in
`var x = 1; var x = x; print x` the second declaration stores 0. -/
theorem Statement.run_stores_later_value :
    ¬ ∀ (program : Statement) (name : String) (m : CodeModule) (target : String)
        (value : Expression) (span : Span) (table : SymbolTable) (start steps : Nat)
        (stack : List Value) (store : Array Value) (h h' : Script),
      program.compile name = .ok m → m.code.size ≤ UInt32.size →
      ⟨.declare target value span, table, start⟩ ∈ program.places [] 0 →
      m.run Script.host steps h = .outOfFuel ⟨start, stack, store⟩ h' →
      ∃ symbol v store', (table.declareValue target value).lookup target = some symbol ∧
        Memory.slots.value table value store = some v ∧
        m.run Script.host (steps + 2) h = .outOfFuel ⟨start + 2, stack, store'⟩ h' ∧
        store'[symbol.slot.toNat]? = some v := by
  intro hall
  have hcompile : Statement.selfDeclaring.compile "selfDeclaring" =
      .ok CodeModule.selfDeclaring := eq_ok_of_toOption (by decide +kernel)
  have hplace : ⟨.declare "x" (.name "x" ⟨19, 20⟩) ⟨11, 20⟩, [("x", ⟨0, .int⟩)], 2⟩ ∈
      Statement.selfDeclaring.places [] 0 := List.mem_of_getElem? (i := 3) rfl
  obtain ⟨symbol, v, store, hlookup, hvalue, hrun, hstored⟩ :=
    hall _ _ _ _ _ _ _ _ 2 [] #[.int 1, .int 0] (Script.start [] none none) _ hcompile (by decide)
      hplace (by with_unfolding_all rfl)
  have hother : CodeModule.selfDeclaring.run Script.host (2 + 2) (Script.start [] none none) =
      .outOfFuel ⟨2 + 2, [], #[.int 1, .int 0]⟩ (Script.start [] none none) := by
    with_unfolding_all rfl
  rw [hother] at hrun
  cases hlookup
  cases hvalue
  cases hrun
  cases hstored

end

end SlotLang
