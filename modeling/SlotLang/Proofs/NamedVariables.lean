import SlotLang.Proofs.MemorySimulation
import SlotLang.Proofs.SlotSemantics

/-!
# Variables kept under their names

The plain reading of a program keeps one value for each name: a declaration and
an assignment both bind the name to a value, and a use takes the value that was
bound last.  Compiled code keeps one value for each slot, and a declaration has
a slot of its own, which is fixed by its place in the text.

The two readings part where a name is used through another slot than the one it
was last bound through.  Such a use is stale.  It takes a declaration that is
carried out before a use that stands above it, in a loop, or a declaration that
is its own first value, or one that a loop skips.  Without a stale use they agree.

* `Memory.names` — one value for each name.
* `Memory.tracked` — with each value, the slot it was bound through.
* `SymbolTable.Backs` — the slots hold the values of the tracked variables.
* `Statement.runTracked_matches_runSlots`, `Statement.runTracked_matches_runNames` —
  up to the first stale use, slots and names do the same.
-/

namespace SlotLang

/-! ## The memories -/

/-- What is bound to each name. -/
def Bindings (α : Type) : Type := String → Option α

namespace Bindings

/-- No name is bound. -/
def empty {α : Type} : Bindings α := fun _ => none

/-- The bindings with another value for a name. -/
def set {α : Type} (bindings : Bindings α) (name : String) (value : α) : Bindings α :=
  fun other => if other = name then some value else bindings other

theorem set_self {α : Type} (bindings : Bindings α) (name : String) (value : α) :
    bindings.set name value name = some value :=
  if_pos rfl

theorem set_of_ne {α : Type} (bindings : Bindings α) {name other : String} (value : α)
    (hother : other ≠ name) : bindings.set name value other = bindings other :=
  if_neg hother

end Bindings

/-- Variables under their names. -/
def Memory.names : Memory (Bindings Value) where
  read _ name bindings := bindings name
  write _ name value bindings := some (bindings.set name value)

/-- Variables under their names, each with the slot that it was bound through.  A
name can be read through that slot only. -/
def Memory.tracked : Memory (Bindings (Value × UInt32)) where
  read table name bindings := (table.lookup name).bind fun symbol =>
    (bindings name).bind fun bound => if bound.2 = symbol.slot then some bound.1 else none
  write table name value bindings := (table.lookup name).map fun symbol =>
    bindings.set name (value, symbol.slot)

/-- The tree of a program, run with one value for each name. -/
def Statement.runNames {σ : Type} (program : Statement) (host : Host σ) (fuel : Nat) (h : σ) :
    Execution (Bindings Value) σ :=
  program.exec Memory.names host fuel [] .empty h

/-- The tree of a program, run with one value for each name and stopped at the
first stale use. -/
def Statement.runTracked {σ : Type} (program : Statement) (host : Host σ) (fuel : Nat) (h : σ) :
    Execution (Bindings (Value × UInt32)) σ :=
  program.exec Memory.tracked host fuel [] .empty h

/-! ## Names and slots -/

namespace Memory

theorem read_tracked_eq_some {table : SymbolTable} {name : String} {value : Value}
    {bindings : Bindings (Value × UInt32)} :
    tracked.read table name bindings = some value ↔
      ∃ symbol, table.lookup name = some symbol ∧
        bindings name = some (value, symbol.slot) := by
  simp only [tracked, Option.bind_eq_some_iff]
  constructor
  · rintro ⟨symbol, hlookup, ⟨bound, slot⟩, hbound, hread⟩
    by_cases hslot : slot = symbol.slot
    · rw [if_pos hslot] at hread
      cases hread
      exact ⟨symbol, hlookup, hslot ▸ hbound⟩
    · rw [if_neg hslot] at hread
      cases hread
  · rintro ⟨symbol, hlookup, hbound⟩
    exact ⟨symbol, hlookup, (value, symbol.slot), hbound, if_pos rfl⟩

theorem write_tracked_eq_some {table : SymbolTable} {name : String} {value : Value}
    {bindings bindings' : Bindings (Value × UInt32)} :
    tracked.write table name value bindings = some bindings' ↔
      ∃ symbol, table.lookup name = some symbol ∧
        bindings.set name (value, symbol.slot) = bindings' := by
  simp only [tracked, Option.map_eq_some_iff]

/-- Without their slots, tracked variables are variables under their names. -/
theorem tracked_simulates_names (ok : SymbolTable → String → Prop) :
    tracked.Simulates names
      (fun bindings values => ∀ name value slot, bindings name = some (value, slot) →
        values name = some value) ok where
  read := by
    intro table name value bindings values _ hrelated hread
    obtain ⟨symbol, -, hbound⟩ := read_tracked_eq_some.mp hread
    exact hrelated name value symbol.slot hbound
  write := by
    intro table name value bindings bindings' values _ hrelated hwrite
    obtain ⟨symbol, -, rfl⟩ := write_tracked_eq_some.mp hwrite
    refine ⟨_, rfl, ?_⟩
    intro other bound slot hbound
    by_cases hother : other = name
    · subst hother
      rw [Bindings.set_self] at hbound ⊢
      cases hbound
      rfl
    · rw [Bindings.set_of_ne _ _ hother] at hbound ⊢
      exact hrelated other bound slot hbound

end Memory

/-- The slots hold the values of the tracked variables, where `final` has all the
names of the program. -/
structure SymbolTable.Backs (final : SymbolTable) (bindings : Bindings (Value × UInt32))
    (store : Array Value) : Prop where
  size_eq : store.size = final.length
  entry : ∀ name value slot, bindings name = some (value, slot) →
    ∃ symbol, (name, symbol) ∈ final ∧ symbol.slot = slot
  value : ∀ name value slot, bindings name = some (value, slot) →
    store[slot.toNat]? = some value

/-- An access with a part of the table of the program, to a name that it has. -/
def SymbolTable.DeclaresPart (final table : SymbolTable) (name : String) : Prop :=
  table <:+ final ∧ ∃ symbol, table.lookup name = some symbol

theorem SymbolTable.Backs.write {final : SymbolTable} (hnumbered : final.Numbered)
    (hlength : final.length ≤ UInt32.size) {bindings : Bindings (Value × UInt32)}
    {store : Array Value} (hbacks : final.Backs bindings store) {name : String}
    {symbol : Symbol} (hentry : (name, symbol) ∈ final) (value : Value) :
    final.Backs (bindings.set name (value, symbol.slot))
      (store.setIfInBounds symbol.slot.toNat value) := by
  have hlt : symbol.slot.toNat < store.size := by
    rw [hbacks.size_eq]
    exact hnumbered.slot_lt hlength hentry
  refine ⟨?_, ?_, ?_⟩
  · rw [Array.size_setIfInBounds]
    exact hbacks.size_eq
  · intro other bound slot hbound
    by_cases hother : other = name
    · subst hother
      rw [Bindings.set_self] at hbound
      cases hbound
      exact ⟨symbol, hentry, rfl⟩
    · rw [Bindings.set_of_ne _ _ hother] at hbound
      exact hbacks.entry other bound slot hbound
  · intro other bound slot hbound
    rw [Array.getElem?_setIfInBounds]
    by_cases hother : other = name
    · subst hother
      rw [Bindings.set_self] at hbound
      cases hbound
      rw [if_pos rfl, if_pos hlt]
    · rw [Bindings.set_of_ne _ _ hother] at hbound
      -- Another name has another entry, and so another slot.
      have hslot : symbol.slot.toNat ≠ slot.toNat := by
        intro hsame
        obtain ⟨symbol', hentry', rfl⟩ := hbacks.entry other bound slot hbound
        have heq := hnumbered.eq_of_slot_eq hlength hentry' hentry
          (UInt32.toNat_inj.mp hsame.symm)
        exact hother (Prod.mk.inj heq).1
      rw [if_neg hslot]
      exact hbacks.value other bound slot hbound

/-- Tracked variables are found in their slots. -/
theorem Memory.tracked_simulates_slots {final : SymbolTable} (hnumbered : final.Numbered)
    (hlength : final.length ≤ UInt32.size) :
    tracked.Simulates slots final.Backs final.DeclaresPart where
  read := by
    intro table name value bindings store _ hbacks hread
    obtain ⟨symbol, hlookup, hbound⟩ := read_tracked_eq_some.mp hread
    have hvalue := hbacks.value name value symbol.slot hbound
    simp only [slots, hlookup, Option.bind_some, hvalue]
  write := by
    intro table name value bindings bindings' store hok hbacks hwrite
    obtain ⟨symbol, hlookup, rfl⟩ := write_tracked_eq_some.mp hwrite
    have hentry : (name, symbol) ∈ final :=
      hok.1.mem (SymbolTable.mem_of_lookup hlookup)
    have hlt : symbol.slot.toNat < store.size := by
      rw [hbacks.size_eq]
      exact hnumbered.slot_lt hlength hentry
    refine ⟨store.setIfInBounds symbol.slot.toNat value, ?_,
      hbacks.write hnumbered hlength hentry value⟩
    simp only [slots, hlookup, Option.bind_some, if_pos hlt]

/-! ## Whole programs -/

section

variable {σ : Type} {program : Statement} {name : String} {m : CodeModule} {host : Host σ}
  {le : σ → σ → Prop}

/-- At the start no variable is bound, and every slot of the program is there. -/
theorem Statement.backs_zeroSlots (program : Statement) :
    (program.tableAfter []).Backs .empty program.zeroSlots where
  size_eq := by simp [Statement.zeroSlots]
  entry := by
    intro name value slot hbound
    cases hbound
  value := by
    intro name value slot hbound
    cases hbound

theorem Statement.accesses_of_compile (hcompile : program.compile name = .ok m)
    (hsize : m.code.size ≤ UInt32.size) :
    program.Accesses (program.tableAfter []).DeclaresPart [] := by
  obtain ⟨stop, hplaced, -⟩ := program.placed_of_compile hcompile hsize
  refine hplaced.accesses ?_ (List.suffix_refl _)
  intro table name symbol hsuffix hlookup
  exact ⟨hsuffix, symbol, hlookup⟩

theorem Statement.runTracked_matches_runSlots (hcompile : program.compile name = .ok m)
    (hsize : m.code.size ≤ UInt32.size) (hrecords : host.Records le) (fuel : Nat) (h : σ) :
    Execution.Matches le (program.tableAfter []).Backs (program.runTracked host fuel h)
      (program.runSlots host fuel h) := by
  obtain ⟨stop, -, -, -, hlength⟩ := program.placed_of_compile hcompile hsize
  have hempty : SymbolTable.Numbered [] := trivial
  exact Statement.matches_exec
    (Memory.tracked_simulates_slots (hempty.tableAfter program) hlength) hrecords fuel
    (program.accesses_of_compile hcompile hsize) program.backs_zeroSlots h

theorem Statement.runTracked_matches_runNames (hcompile : program.compile name = .ok m)
    (hsize : m.code.size ≤ UInt32.size) (hrecords : host.Records le) (fuel : Nat) (h : σ) :
    Execution.Matches le
      (fun bindings values => ∀ name value slot, bindings name = some (value, slot) →
        values name = some value)
      (program.runTracked host fuel h) (program.runNames host fuel h) := by
  refine Statement.matches_exec (Memory.tracked_simulates_names _) hrecords fuel
    (program.accesses_of_compile hcompile hsize) ?_ h
  intro name value slot hbound
  cases hbound

theorem compile_of_ofSource {source : String} (hparse : Statement.ofSource source = .ok program)
    (name : String) : compile source name = program.compile name := by
  rw [compile, hparse]
  rfl

/-- Every text that compiles, and every input.  If the plain reading of the program
comes to its end and has no stale use, the machine comes to its end with the same
record of calls, and so with the same output.  If there is a stale use, the plain
reading and the machine have made the same calls up to the first one. -/
theorem run_agrees_until_stale {source : String} (hparse : Statement.ofSource source = .ok program)
    (hcompile : compile source name = .ok m) (hsize : m.code.size ≤ UInt32.size)
    (input : List String) (fuel : Nat) :
    (∀ values script,
      program.runNames Script.host fuel (Script.start input none none) = .done values script →
      (∀ s, program.runTracked Script.host fuel (Script.start input none none) ≠ .stuck s) →
      ∃ steps state,
        m.run Script.host steps (Script.start input none none) = .finished state script) ∧
    ∀ s, program.runTracked Script.host fuel (Script.start input none none) = .stuck s →
      s.events.toList <+: (program.runNames Script.host fuel
          (Script.start input none none)).host.events.toList ∧
        ∃ steps, s.events.toList <+:
          (m.run Script.host steps (Script.start input none none)).host.events.toList := by
  have hprogram : program.compile name = .ok m := by
    rw [← compile_of_ofSource hparse name]
    exact hcompile
  have hnames := program.runTracked_matches_runNames hprogram hsize Script.records_host fuel
    (Script.start input none none)
  have hslots := program.runTracked_matches_runSlots hprogram hsize Script.records_host fuel
    (Script.start input none none)
  have hreproduces := program.reproduces_runSlots hprogram hsize Script.host fuel
    (Script.start input none none)
  constructor
  · intro values script hwalk hfresh
    -- Without a stale use the walk goes the same way on all three memories.
    cases htracked : program.runTracked Script.host fuel (Script.start input none none) with
    | done bindings s =>
        rw [htracked, hwalk] at hnames
        rw [htracked] at hslots
        cases hnames
        generalize hexec : program.runSlots Script.host fuel (Script.start input none none) =
          execution at hslots hreproduces
        cases hslots
        obtain ⟨steps, state, hrun, -⟩ := hreproduces
        exact ⟨steps, state, hrun⟩
    | failed error s => rw [htracked, hwalk] at hnames; cases hnames
    | stuck s => exact absurd htracked (hfresh s)
    | outOfFuel s => rw [htracked, hwalk] at hnames; cases hnames
  · intro s htracked
    -- The tracked walk stops at the stale use, and the other two have come by it.
    rw [htracked] at hnames hslots
    cases hnames with
    | stuck hle =>
        refine ⟨hle, ?_⟩
        cases hslots with
        | stuck hle' =>
            obtain ⟨steps, hhost, -⟩ := hreproduces.exists_steps
            exact ⟨steps, hhost ▸ hle'⟩

/-- The text of a loop that declares a name which it has used. -/
def shadowingSource : String := "var x = 1; for i = 0 to 2 do print x; var x = 5 end; print x"

theorem ofSource_shadowing : Statement.ofSource shadowingSource = .ok Statement.shadowing :=
  eq_ok_of_toOption (by decide +kernel)

theorem compile_shadowing : compile shadowingSource "shadowing" = .ok CodeModule.shadowing :=
  (compile_of_ofSource ofSource_shadowing "shadowing").trans (eq_ok_of_toOption (by decide +kernel))

/-- A name that is first declared in a loop, used there, and declared again with
another type after the loop. -/
def Statement.redeclaring : Statement :=
  .sequence
    (.forLoop "i" (.integer 0 ⟨8, 9⟩) (.integer 2 ⟨13, 14⟩)
      (.sequence (.declare "t" (.name "i" ⟨26, 27⟩) ⟨18, 27⟩)
        (.print (.name "t" ⟨35, 36⟩) ⟨29, 36⟩) ⟨18, 36⟩) ⟨0, 40⟩)
    (.sequence (.declare "t" (.string "done" ⟨50, 56⟩) ⟨42, 56⟩)
      (.print (.name "t" ⟨64, 65⟩) ⟨58, 65⟩) ⟨42, 65⟩) ⟨0, 65⟩

/-- The module of that program. -/
def CodeModule.redeclaring : CodeModule where
  name := "redeclaring"
  entry := "main"
  locals := #[.int, .int, .string]
  constants := #[.int 0, .int 1, .int 2, .string "done"]
  code := #[.constant 0, .storeLocal 0, .jump 12, .loadLocal 0, .storeLocal 1, .loadLocal 1,
    .intToString, .callHost .writeLine, .loadLocal 0, .constant 1, .addInt, .storeLocal 0,
    .loadLocal 0, .constant 2, .branchIfLess 3, .constant 3, .storeLocal 2, .loadLocal 2,
    .callHost .writeLine, .ret]

/-- The plain reading of that program has no stale use, and the machine writes the
same three lines.  A loop that declares a name which it has used has a stale use in its second
round, after both have written one line. -/
theorem redeclaring_run_agrees :
    (∃ steps state, CodeModule.redeclaring.run Script.host steps (Script.start [] none none) =
      .finished state
        { Script.start [] none none with
          events := #[.wrote "0", .wrote "1", .wrote "done"]
          writes := 3 }) ∧
    ∃ s, Statement.shadowing.runTracked Script.host 2 (Script.start [] none none) = .stuck s ∧
      s.events.toList = [.wrote "1"] ∧
      s.events.toList <+: (Statement.shadowing.runNames Script.host 2
        (Script.start [] none none)).host.events.toList ∧
      ∃ steps, s.events.toList <+: (CodeModule.shadowing.run Script.host steps
        (Script.start [] none none)).host.events.toList := by
  have hparse : Statement.ofSource
      "for i = 0 to 2 do var t = i; print t end; var t = \"done\"; print t" =
        .ok Statement.redeclaring := eq_ok_of_toOption (by decide +kernel)
  have hprogram : Statement.redeclaring.compile "redeclaring" =
      .ok CodeModule.redeclaring := eq_ok_of_toOption (by decide +kernel)
  have hcompile := (compile_of_ofSource hparse "redeclaring").trans hprogram
  have hstuck : Statement.shadowing.runTracked Script.host 2 (Script.start [] none none) =
      .stuck { Script.start [] none none with events := #[.wrote "1"], writes := 1 } := rfl
  constructor
  · have hagree := run_agrees_until_stale hparse hcompile (by decide) [] 2
    refine hagree.1 _ _ rfl ?_
    intro s hstuck
    cases hstuck
  · have hagree := run_agrees_until_stale ofSource_shadowing compile_shadowing (by decide) [] 2
    exact ⟨_, hstuck, rfl, hagree.2 _ hstuck⟩

/-- The plain reading and the machine part where a loop declares a name that it has
used: the first writes the lines 1, 5 and 5, the machine writes 1, 1 and 5. -/
theorem run_disagrees_with_runNames :
    ¬ ∀ (source name : String) (program : Statement) (m : CodeModule) (input : List String)
        (fuel : Nat) (values : Bindings Value) (script : Script),
      Statement.ofSource source = .ok program → compile source name = .ok m →
      m.code.size ≤ UInt32.size →
      program.runNames Script.host fuel (Script.start input none none) = .done values script →
      ∃ steps state script', m.run Script.host steps (Script.start input none none) =
          .finished state script' ∧
        script'.output = script.output := by
  intro hall
  obtain ⟨steps, state, script, hrun, houtput⟩ :=
    hall _ _ _ _ [] 2 _ _ ofSource_shadowing compile_shadowing (by decide) rfl
  have hother : CodeModule.shadowing.run Script.host 37 (Script.start [] none none) =
      .finished ⟨20, [], #[.int 1, .int 2, .int 5]⟩
        { Script.start [] none none with
          events := #[.wrote "1", .wrote "1", .wrote "5"]
          writes := 3 } := by with_unfolding_all rfl
  -- A run has one end, and here it is not the one of the plain reading.
  have hsame := CodeModule.run_eq_of_ended (m := CodeModule.shadowing)
    (by rw [hrun]; simp) (by rw [hother]; simp)
  rw [hrun, hother] at hsame
  cases hsame
  exact absurd houtput (by decide +kernel)

end

end SlotLang
