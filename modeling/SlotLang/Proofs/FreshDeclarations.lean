import SlotLang.Proofs.NamedVariables

/-!
# Declarations that leave no stale use

Two conditions on the text of a program rule out stale uses.  No declaration has
its own name for its first value, and inside a loop only names are declared that
the table does not have yet.  Outside of loops names may be declared again, with
another type if need be, and a name that was first declared in a loop may be used
after it.

A loop is compiled once and carried out many times, so a round begins with bindings
that were made further down in its body.  They do no harm: all of them go through
the slots that the table after the loop gives, and as no name of the table is
declared again, every table inside the loop gives the same slots.

* `Statement.NoSelfDeclaration`, `Statement.FreshInLoops` — the two conditions.
* `SymbolTable.Keeps` — a later table gives the same slots.
* `SymbolTable.Current` — every bound name is bound through its slot.
* `Statement.matches_exec_of_freshInLoops` — under the conditions no use is stale.
-/

namespace SlotLang

/-! ## The conditions -/

/-- No declaration has its own name for its first value. -/
def Statement.NoSelfDeclaration : Statement → Prop
  | sequence first second _ => first.NoSelfDeclaration ∧ second.NoSelfDeclaration
  | declare name value _ => ∀ span, value ≠ .name name span
  | assign _ _ _ => True
  | print _ _ => True
  | readInt _ _ => True
  | forLoop _ _ _ body _ => body.NoSelfDeclaration

/-- Every declaration in the body of a loop is of a name that the table does not have
there.  The flag says whether the statement itself is in a loop. -/
def Statement.FreshInLoops : Statement → Bool → SymbolTable → Prop
  | sequence first second _, inLoop, table =>
      first.FreshInLoops inLoop table ∧ second.FreshInLoops inLoop (first.tableAfter table)
  | declare name _ _, inLoop, table => inLoop = true → table.lookup name = none
  | assign _ _ _, _, _ => True
  | print _ _, _, _ => True
  | readInt _ _, _, _ => True
  | forLoop index _ _ body _, _, table => body.FreshInLoops true (table.declareIndex index)

/-! ## Tables that keep their slots -/

namespace SymbolTable

/-- What a table has for a name, a later one has as well. -/
def Keeps (table later : SymbolTable) : Prop :=
  ∀ name symbol, table.lookup name = some symbol → later.lookup name = some symbol

theorem Keeps.refl (table : SymbolTable) : table.Keeps table :=
  fun _ _ hlookup => hlookup

theorem Keeps.trans {table later latest : SymbolTable} (hfirst : table.Keeps later)
    (hsecond : later.Keeps latest) : table.Keeps latest :=
  fun name symbol hlookup => hsecond name symbol (hfirst name symbol hlookup)

theorem keeps_declareValue {table : SymbolTable} {name : String} (value : Expression)
    (hfresh : table.lookup name = none) : table.Keeps (table.declareValue name value) := by
  intro other symbol hlookup
  have hne : other ≠ name := by
    rintro rfl
    rw [hfresh] at hlookup
    cases hlookup
  rw [table.lookup_declareValue_of_ne value hne]
  exact hlookup

theorem keeps_declareIndex (table : SymbolTable) (index : String) :
    table.Keeps (table.declareIndex index) := by
  intro other symbol hlookup
  unfold declareIndex
  split
  · exact hlookup
  · next hfresh =>
      have hne : other ≠ index := by
        rintro rfl
        rw [hfresh] at hlookup
        cases hlookup
      rw [table.lookup_declare_of_ne _ hne]
      exact hlookup

end SymbolTable

/-- A statement that declares fresh names only keeps the slots of the table. -/
theorem Statement.keeps_tableAfter {statement : Statement} {table : SymbolTable}
    (hfresh : statement.FreshInLoops true table) : table.Keeps (statement.tableAfter table) := by
  induction statement generalizing table with
  | sequence first second span ihfirst ihsecond =>
      exact (ihfirst hfresh.1).trans (ihsecond hfresh.2)
  | declare name value span => exact SymbolTable.keeps_declareValue value (hfresh rfl)
  | assign name value span => exact .refl table
  | print value span => exact .refl table
  | readInt name span => exact .refl table
  | forLoop index lower upper body span ih =>
      exact (table.keeps_declareIndex index).trans (ih hfresh)

/-! ## Names bound through their slots -/

/-- Every bound name is bound through the slot that the table has for it. -/
def SymbolTable.Current (table : SymbolTable) (values : Bindings Value)
    (bindings : Bindings (Value × UInt32)) : Prop :=
  ∀ name value, values name = some value →
    ∃ symbol, table.lookup name = some symbol ∧ bindings name = some (value, symbol.slot)

/-- A name that the table at the access has. -/
def SymbolTable.Declares (table : SymbolTable) (name : String) : Prop :=
  ∃ symbol, table.lookup name = some symbol

/-- A name that the table at the access has, and `final` has it in the same way. -/
def SymbolTable.Shares (final table : SymbolTable) (name : String) : Prop :=
  ∃ symbol, table.lookup name = some symbol ∧ final.lookup name = some symbol

namespace SymbolTable

theorem Current.mono {table later : SymbolTable} {values : Bindings Value}
    {bindings : Bindings (Value × UInt32)} (hcurrent : table.Current values bindings)
    (hkeeps : table.Keeps later) : later.Current values bindings := by
  intro name value hvalue
  obtain ⟨symbol, hlookup, hbound⟩ := hcurrent name value hvalue
  exact ⟨symbol, hkeeps name symbol hlookup, hbound⟩

/-- Binding a name through its slot keeps the names current, if the other names have
the slots that they had. -/
theorem Current.set {table later : SymbolTable} {values : Bindings Value}
    {bindings : Bindings (Value × UInt32)} (hcurrent : table.Current values bindings)
    {name : String} {symbol : Symbol} (hlookup : later.lookup name = some symbol)
    (hothers : ∀ other, other ≠ name → later.lookup other = table.lookup other)
    (value : Value) :
    later.Current (values.set name value) (bindings.set name (value, symbol.slot)) := by
  intro other bound hbound
  by_cases hother : other = name
  · subst hother
    rw [Bindings.set_self] at hbound
    cases hbound
    exact ⟨symbol, hlookup, Bindings.set_self _ _ _⟩
  · rw [Bindings.set_of_ne _ _ hother] at hbound
    obtain ⟨symbol', hlookup', hbound'⟩ := hcurrent other bound hbound
    refine ⟨symbol', ?_, ?_⟩
    · rw [hothers other hother]
      exact hlookup'
    · rw [Bindings.set_of_ne _ _ hother]
      exact hbound'

end SymbolTable

/-- As long as all names are current, no use is stale. -/
theorem Memory.names_simulates_tracked (final : SymbolTable) :
    names.Simulates tracked final.Current final.Shares where
  read := by
    rintro table name value values bindings ⟨symbol, hlookup, hfinal⟩ hcurrent hread
    obtain ⟨symbol', hfinal', hbound⟩ := hcurrent name value hread
    rw [hfinal] at hfinal'
    cases hfinal'
    exact read_tracked_eq_some.mpr ⟨symbol, hlookup, hbound⟩
  write := by
    rintro table name value values values' bindings ⟨symbol, hlookup, hfinal⟩ hcurrent hwrite
    cases hwrite
    refine ⟨_, write_tracked_eq_some.mpr ⟨symbol, hlookup, rfl⟩, ?_⟩
    exact hcurrent.set hfinal (fun _ _ => rfl) value

/-! ## Statements -/

theorem Expression.shares_of_declares {table final : SymbolTable} {expression : Expression}
    (hok : expression.Accesses SymbolTable.Declares table) (hkeeps : table.Keeps final) :
    expression.Accesses final.Shares table := by
  cases expression with
  | string text span => trivial
  | integer n span => trivial
  | name name span =>
      obtain ⟨symbol, hlookup⟩ := hok
      exact ⟨symbol, hlookup, hkeeps name symbol hlookup⟩
  | binary operator left right span => trivial

/-- In a statement that declares fresh names only, every table gives the slots that
the table at the end gives. -/
theorem Statement.shares_of_fresh {statement : Statement} {table final : SymbolTable}
    (hok : statement.Accesses SymbolTable.Declares table)
    (hfresh : statement.FreshInLoops true table)
    (hkeeps : (statement.tableAfter table).Keeps final) :
    statement.Accesses final.Shares table := by
  have hname : ∀ {table : SymbolTable} {name : String}, table.Declares name →
      table.Keeps final → final.Shares table name :=
    fun ⟨symbol, hlookup⟩ hkeeps => ⟨symbol, hlookup, hkeeps _ symbol hlookup⟩
  induction statement generalizing table with
  | sequence first second span ihfirst ihsecond =>
      have hmiddle : (first.tableAfter table).Keeps final :=
        (Statement.keeps_tableAfter hfresh.2).trans hkeeps
      exact ⟨ihfirst hok.1 hfresh.1 hmiddle, ihsecond hok.2 hfresh.2 hkeeps⟩
  | declare name value span =>
      exact ⟨Expression.shares_of_declares hok.1 hkeeps, hname hok.2 hkeeps⟩
  | assign name value span =>
      exact ⟨Expression.shares_of_declares hok.1 hkeeps, hname hok.2 hkeeps⟩
  | print value span => exact Expression.shares_of_declares hok hkeeps
  | readInt name span => exact hname hok hkeeps
  | forLoop index lower upper body span ih =>
      obtain ⟨hlower, hindex, hbody, hindex', hupper⟩ := hok
      have hfreshBody : body.FreshInLoops true (table.declareIndex index) := hfresh
      have hbefore : (table.declareIndex index).Keeps final :=
        (Statement.keeps_tableAfter hfreshBody).trans hkeeps
      refine ⟨?_, ?_, ih hbody hfreshBody hkeeps, ?_, ?_⟩
      · exact Expression.shares_of_declares hlower hbefore
      · exact hname hindex hbefore
      · exact hname hindex' hkeeps
      · exact Expression.shares_of_declares hupper hkeeps

section

variable {σ : Type} {host : Host σ} {le : σ → σ → Prop} {table : SymbolTable}
  {values : Bindings Value} {bindings : Bindings (Value × UInt32)}

/-- A statement that declares fresh names only, with all its loops. -/
theorem Statement.matches_exec_of_fresh (hrecords : host.Records le) (fuel : Nat)
    {statement : Statement} (hok : statement.Accesses SymbolTable.Declares table)
    (hfresh : statement.FreshInLoops true table) (hcurrent : table.Current values bindings)
    (h : σ) :
    Execution.Matches le (statement.tableAfter table).Current
      (statement.exec Memory.names host fuel table values h)
      (statement.exec Memory.tracked host fuel table bindings h) := by
  -- One table serves for the whole statement, so that it also serves for every round.
  have hshares := Statement.shares_of_fresh hok hfresh (.refl _)
  have hafter := hcurrent.mono (Statement.keeps_tableAfter hfresh)
  exact Statement.matches_exec (Memory.names_simulates_tracked _) hrecords fuel hshares hafter h

/-- A declaration outside of loops, which may give a name of the table a new slot. -/
theorem Statement.matches_exec_declare (hrecords : host.Records le) (fuel : Nat) {name : String}
    {value : Expression} {span : Span}
    (hok : (Statement.declare name value span).Accesses SymbolTable.Declares table)
    (hself : ∀ span, value ≠ .name name span) (hcurrent : table.Current values bindings)
    (h : σ) :
    Execution.Matches le (table.declareValue name value).Current
      ((Statement.declare name value span).exec Memory.names host fuel table values h)
      ((Statement.declare name value span).exec Memory.tracked host fuel table bindings h) := by
  obtain ⟨-, symbol, hlookup⟩ := hok
  -- The first value is not the declared name, so its slot is the one from before.
  have hvalue : ∀ v, Memory.names.value (table.declareValue name value) value values = some v →
      Memory.tracked.value (table.declareValue name value) value bindings = some v := by
    intro v hv
    cases value with
    | string text span => exact hv
    | integer n span => exact hv
    | name other span =>
        have hne : other ≠ name := fun hother => hself span (hother ▸ rfl)
        obtain ⟨symbol', hlookup', hbound⟩ := hcurrent other v hv
        refine Memory.read_tracked_eq_some.mpr ⟨symbol', ?_, hbound⟩
        rw [table.lookup_declareValue_of_ne _ hne]
        exact hlookup'
    | binary operator left right span => cases hv
  simp only [Statement.exec, Memory.assign]
  cases hv : Memory.names.value (table.declareValue name value) value values with
  | none => exact .stuck (by rw [Execution.host_access]; exact hrecords.refl h)
  | some v =>
      have hwrite : Memory.tracked.write (table.declareValue name value) name v bindings =
          some (bindings.set name (v, symbol.slot)) :=
        Memory.write_tracked_eq_some.mpr ⟨symbol, hlookup, rfl⟩
      rw [hvalue v hv, Option.bind_some, Option.bind_some, hwrite]
      refine .done (hcurrent.set hlookup ?_ v) h
      exact fun other hne => table.lookup_declareValue_of_ne value hne

/-- A statement outside of loops. -/
theorem Statement.matches_exec_of_freshInLoops (hrecords : host.Records le) (fuel : Nat)
    {statement : Statement} (hok : statement.Accesses SymbolTable.Declares table)
    (hself : statement.NoSelfDeclaration) (hfresh : statement.FreshInLoops false table)
    (hcurrent : table.Current values bindings) (h : σ) :
    Execution.Matches le (statement.tableAfter table).Current
      (statement.exec Memory.names host fuel table values h)
      (statement.exec Memory.tracked host fuel table bindings h) := by
  induction statement generalizing table values bindings h with
  | sequence first second span ihfirst ihsecond =>
      refine (ihfirst hok.1 hself.1 hfresh.1 hcurrent h).andThen hrecords ?_
        (second.le_host_exec hrecords Memory.tracked fuel _)
      intro values bindings h hcurrent
      exact ihsecond hok.2 hself.2 hfresh.2 hcurrent h
  | declare name value span =>
      exact Statement.matches_exec_declare hrecords fuel hok hself hcurrent h
  | assign name value span =>
      exact Statement.matches_exec_of_fresh hrecords fuel hok trivial hcurrent h
  | print value span =>
      exact Statement.matches_exec_of_fresh hrecords fuel hok trivial hcurrent h
  | readInt name span =>
      exact Statement.matches_exec_of_fresh hrecords fuel hok trivial hcurrent h
  | forLoop index lower upper body span ih =>
      -- The condition on a loop is the same inside and outside of other loops.
      have hbody : (Statement.forLoop index lower upper body span).FreshInLoops true table :=
        hfresh
      exact Statement.matches_exec_of_fresh hrecords fuel hok hbody hcurrent h

end

/-! ## Whole programs -/

section

variable {σ : Type} {program : Statement} {name : String} {m : CodeModule}

/-- A program in which no declaration has its own name for its first value, and in
which loops declare no name that the table has, does what the plain reading says, on
every host.  If the plain reading comes to its end, or stops at a line that is no
integer, at the end of the input or at a refusal of the host, the machine ends in the
same way and has made the same calls. -/
theorem Statement.run_of_runNames (hcompile : program.compile name = .ok m)
    (hsize : m.code.size ≤ UInt32.size) (hself : program.NoSelfDeclaration)
    (hfresh : program.FreshInLoops false []) (host : Host σ) (h : σ) (fuel : Nat) :
    (∀ values s, program.runNames host.logged fuel (h, []) = .done values s →
      ∃ steps state, m.run host.logged steps (h, []) = .finished state s) ∧
    ∀ error s, program.runNames host.logged fuel (h, []) = .failed error s →
      ∃ steps, m.run host.logged steps (h, []) = .failed error s := by
  obtain ⟨stop, hplaced, -⟩ := program.placed_of_compile hcompile hsize
  have hok : program.Accesses SymbolTable.Declares [] :=
    hplaced.accesses (fun table name symbol _ hlookup => ⟨symbol, hlookup⟩)
      (List.suffix_refl _)
  have hempty : SymbolTable.Current [] .empty .empty := by
    intro name value hvalue
    cases hvalue
  have htracked : Execution.Matches _ _ (program.runNames host.logged fuel (h, []))
      (program.runTracked host.logged fuel (h, [])) :=
    Statement.matches_exec_of_freshInLoops host.records_logged fuel hok hself hfresh hempty _
  have hslots := program.runTracked_matches_runSlots hcompile hsize host.records_logged fuel
    (h, [])
  have hreproduces := program.reproduces_runSlots hcompile hsize host.logged fuel (h, [])
  generalize program.runTracked host.logged fuel (h, []) = tracked at htracked hslots
  generalize program.runSlots host.logged fuel (h, []) = execution at hslots hreproduces
  constructor
  · intro values s hwalk
    rw [hwalk] at htracked
    cases htracked
    cases hslots
    obtain ⟨steps, state, hrun, -⟩ := hreproduces
    exact ⟨steps, state, hrun⟩
  · intro error s hwalk
    rw [hwalk] at htracked
    cases htracked
    cases hslots
    exact hreproduces

/-- A name first declared in a loop, and declared again with another type after it:
the machine writes the lines of the plain reading. -/
theorem Statement.redeclaring_run_of_runNames :
    Statement.redeclaring.NoSelfDeclaration ∧ Statement.redeclaring.FreshInLoops false [] ∧
      ∃ steps state, CodeModule.redeclaring.run Script.host.logged steps
          (Script.start [] none none, []) =
        .finished state
          ({ Script.start [] none none with
              events := #[.wrote "0", .wrote "1", .wrote "done"]
              writes := 3 },
            [.write "0" (.ok ()), .write "1" (.ok ()), .write "done" (.ok ())]) := by
  have hcompile : Statement.redeclaring.compile "redeclaring" =
      .ok CodeModule.redeclaring := eq_ok_of_toOption (by decide +kernel)
  have hself : Statement.redeclaring.NoSelfDeclaration := by
    simp [Statement.redeclaring, Statement.NoSelfDeclaration]
  have hfresh : Statement.redeclaring.FreshInLoops false [] := by
    refine ⟨⟨?_, trivial⟩, ?_, trivial⟩
    · intro _
      rfl
    · intro houtside
      cases houtside
  have hagree := Statement.run_of_runNames hcompile (by decide) hself hfresh Script.host
    (Script.start [] none none) 2
  exact ⟨hself, hfresh, hagree.1 _ _ rfl⟩

end

end SlotLang
