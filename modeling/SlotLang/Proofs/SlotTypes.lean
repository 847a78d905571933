import SlotLang.Machine.Script
import SlotLang.Proofs.ExecutedInstructions

/-!
# What a slot of any module holds

Modules may come from anywhere, and the machine does not look at the type of a value
that it stores.  So a slot need not hold a value of its declared type, and this
module says exactly when it does.  At the start every slot holds the zero of its type,
a store changes the slot that it names, and no other instruction changes a slot.

* `CodeModule.localsAfter`, `CodeModule.locals_of_step` — the slots after a step.
* `CodeModule.TypesAt` — a slot holds a value of its declared type.
* `CodeModule.StoresForeign` — the machine is about to store a value of another type.
* `CodeModule.run_of_storesForeign` — such a store goes through.
* `CodeModule.typesAt_iff_not_storesForeign` — a slot keeps its type if and only if no
  value of another type is stored in it.
-/

namespace SlotLang
namespace CodeModule

variable {m : CodeModule} {state state' : MachineState}

/-! ## The slots after a step -/

/-- The slots after the instruction at which the machine stands, if it goes on. -/
def localsAfter (m : CodeModule) (state : MachineState) : Array Value :=
  match m.code[state.position]?, state.stack with
  | some (.storeLocal slot), value :: _ => state.locals.setIfInBounds slot.toNat value
  | _, _ => state.locals

theorem size_localsAfter (m : CodeModule) (state : MachineState) :
    (m.localsAfter state).size = state.locals.size := by
  unfold localsAfter
  split
  · exact Array.size_setIfInBounds
  · rfl

/-- The slots after a step, whatever the module and whatever the host answers. -/
theorem locals_of_step (hleads : (m.step state).LeadsTo state') :
    state'.locals = m.localsAfter state := by
  obtain ⟨instruction, hcode, hexecutes⟩ := executes_of_leadsTo hleads
  unfold localsAfter
  rw [hcode]
  generalize m.step state = transition at hexecutes hleads
  cases hexecutes with
  | storeLocal hstack hslot =>
      obtain rfl : state' = _ := hleads
      rw [hstack]
  | readLine =>
      obtain ⟨line, rfl⟩ := hleads
      rfl
  | ret => exact hleads.elim
  | _ =>
      obtain rfl : state' = _ := hleads
      rfl

/-! ## The type of a slot -/

/-- The slot holds a value of the type that the module declares for it. -/
def TypesAt (m : CodeModule) (slot : Nat) (store : Array Value) : Prop :=
  store[slot]?.map Value.type = m.locals[slot]?

/-- The machine stands at a store to the slot, and the value on top of the stack is not
of the slot's type. -/
def StoresForeign (m : CodeModule) (slot : Nat) (state : MachineState) : Prop :=
  ∃ operand value rest type, m.code[state.position]? = some (.storeLocal operand) ∧
    operand.toNat = slot ∧ state.stack = value :: rest ∧
    m.locals[slot]? = some type ∧ value.type ≠ type

theorem Types.typesAt {store : Array Value} (htypes : m.Types store) (slot : Nat) :
    m.TypesAt slot store := by
  rw [TypesAt, ← Array.getElem?_map, htypes]

/-- A step keeps the type of a slot, unless it stores a value of another type in it. -/
theorem typesAt_localsAfter {slot : Nat} (htypes : m.TypesAt slot state.locals)
    (hforeign : ¬ m.StoresForeign slot state) : m.TypesAt slot (m.localsAfter state) := by
  unfold localsAfter
  split
  next operand value rest hcode hstack =>
      rw [TypesAt, Array.getElem?_setIfInBounds]
      by_cases hslot : operand.toNat = slot
      · subst hslot
        rw [if_pos rfl]
        split
        next hlt =>
            rw [TypesAt, Array.getElem?_eq_getElem hlt] at htypes
            by_cases hsame : value.type = state.locals[operand.toNat].type
            · rw [← htypes, Option.map_some, Option.map_some, hsame]
            · exact absurd ⟨operand, value, rest, _, hcode, rfl, hstack, htypes.symm, hsame⟩
                hforeign
        next hlt =>
            rw [TypesAt, Array.getElem?_eq_none (Nat.le_of_not_lt hlt)] at htypes
            exact htypes
      · rw [if_neg hslot]
        exact htypes
  next => exact htypes

/-- A store of a value of another type goes through if its slot exists, and breaks the type of
the slot. -/
theorem exists_next_of_storesForeign {slot : Nat} (hsize : state.locals.size = m.locals.size)
    (hforeign : m.StoresForeign slot state) :
    ∃ next, m.step state = .next next ∧ ¬ m.TypesAt slot next.locals := by
  obtain ⟨operand, value, rest, type, hcode, rfl, hstack, hdeclared, hother⟩ := hforeign
  obtain ⟨position, stack, locals⟩ := state
  subst hstack
  have hlt : operand.toNat < locals.size := by
    rw [hsize]
    exact (Array.getElem?_eq_some_iff.mp hdeclared).choose
  refine ⟨_, step_storeLocal hcode hlt, ?_⟩
  rw [TypesAt, Array.getElem?_setIfInBounds, if_pos rfl, if_pos hlt, hdeclared]
  simpa using hother

/-! ## Runs -/

section

variable {σ : Type} {host : Host σ} {h s : σ} {slot steps n : Nat}

/-- In every state of a run there are the slots that the module declares. -/
theorem size_locals_of_run (hrun : m.run host n h = .outOfFuel state s) :
    state.locals.size = m.locals.size := by
  induction n generalizing state s with
  | zero =>
      cases hrun
      exact Array.size_map ..
  | succ n ih =>
      obtain ⟨before, s', hbefore, hleads⟩ := exists_leadsTo_of_run_succ hrun
      rw [locals_of_step hleads, size_localsAfter]
      exact ih hbefore

/-- A run that comes to a store of a value of another type goes on, and the slot then holds that
value. -/
theorem run_of_storesForeign (hrun : m.run host n h = .outOfFuel state s)
    (hforeign : m.StoresForeign slot state) :
    ∃ next, m.run host (n + 1) h = .outOfFuel next s ∧ ¬ m.TypesAt slot next.locals := by
  obtain ⟨next, hnext, hbroken⟩ :=
    exists_next_of_storesForeign (size_locals_of_run hrun) hforeign
  have hbefore : m.Leads host n (.start m, h) (state, s) := hrun
  exact ⟨next, hbefore.trans (.of_next hnext s), hbroken⟩

/-- As long as no value of another type is stored in a slot, the slot keeps its type. -/
theorem typesAt_of_not_storesForeign
    (hstores : ∀ n < steps, ∀ state s, m.run host n h = .outOfFuel state s →
      ¬ m.StoresForeign slot state)
    (hn : n ≤ steps) (hrun : m.run host n h = .outOfFuel state s) :
    m.TypesAt slot state.locals := by
  induction n generalizing state s with
  | zero =>
      cases hrun
      exact m.types_zero.typesAt slot
  | succ n ih =>
      obtain ⟨before, s', hbefore, hleads⟩ := exists_leadsTo_of_run_succ hrun
      rw [locals_of_step hleads]
      exact typesAt_localsAfter (ih (by omega) hbefore) (hstores n (by omega) before s' hbefore)

end

/-- Every module, every host and every number of steps.  A slot holds a value of its
declared type in all the states up to then if and only if none of the stores before then
has stored a value of another type in it.  Every such store goes through: the run goes on,
and the slot does not hold a value of its type then. -/
theorem typesAt_iff_not_storesForeign {σ : Type} (m : CodeModule) (host : Host σ) (h : σ)
    (slot steps : Nat) :
    ((∀ n ≤ steps, ∀ state s, m.run host n h = .outOfFuel state s →
        m.TypesAt slot state.locals) ↔
      ∀ n < steps, ∀ state s, m.run host n h = .outOfFuel state s →
        ¬ m.StoresForeign slot state) ∧
    ∀ n state s, m.run host n h = .outOfFuel state s → m.StoresForeign slot state →
      ∃ next, m.run host (n + 1) h = .outOfFuel next s ∧ ¬ m.TypesAt slot next.locals := by
  refine ⟨⟨?_, ?_⟩, fun n state s hrun hforeign => run_of_storesForeign hrun hforeign⟩
  · intro htypes n hn state s hrun hforeign
    obtain ⟨next, hnext, hbroken⟩ := run_of_storesForeign hrun hforeign
    exact hbroken (htypes (n + 1) (by omega) next s hnext)
  · intro hstores n hn state s hrun
    exact typesAt_of_not_storesForeign hstores hn hrun

/-- A module that stores a string in its integer slot and writes the slot. -/
def mislabelled : CodeModule where
  name := "test"
  entry := "main"
  locals := #[.int]
  constants := #[.string "s"]
  code := #[.constant 0, .storeLocal 0, .loadLocal 0, .callHost .writeLine, .ret]

/-- The store of that module comes second, and leaves a string in the integer slot. -/
theorem mislabelled_typesAt_iff :
    (∃ next, mislabelled.run Script.host 2 (Script.start [] none none) =
        .outOfFuel next (Script.start [] none none) ∧ ¬ mislabelled.TypesAt 0 next.locals) ∧
      ∀ n ≤ 1, ∀ state script, mislabelled.run Script.host n (Script.start [] none none) =
        .outOfFuel state script → mislabelled.TypesAt 0 state.locals := by
  have hfirst : mislabelled.run Script.host 1 (Script.start [] none none) =
      .outOfFuel ⟨1, [.string "s"], #[.int 0]⟩ (Script.start [] none none) := by
    with_unfolding_all rfl
  have hforeign : mislabelled.StoresForeign 0 ⟨1, [.string "s"], #[.int 0]⟩ :=
    ⟨0, .string "s", [], .int, rfl, rfl, rfl, rfl, by decide⟩
  obtain ⟨hkeeps, hbreaks⟩ :=
    typesAt_iff_not_storesForeign mislabelled Script.host (Script.start [] none none) 0 1
  refine ⟨hbreaks 1 _ _ hfirst hforeign, hkeeps.mpr fun n hn state script hrun => ?_⟩
  obtain rfl : n = 0 := by omega
  cases hrun
  rintro ⟨operand, value, rest, type, hcode, -⟩
  cases hcode

/-- The store goes through, so a slot need not hold a value of its declared type: the
run of that module comes to its return with a string in the integer slot. -/
theorem run_breaks_declared_type :
    ¬ ∀ (m : CodeModule) (input : List String) (steps : Nat) (state : MachineState)
        (script : Script),
      m.run Script.host steps (Script.start input none none) = .outOfFuel state script →
      m.Types state.locals := by
  intro hall
  have hrun : mislabelled.run Script.host 4 (Script.start [] none none) =
      .outOfFuel ⟨4, [], #[.string "s"]⟩
        { Script.start [] none none with
          events := #[.wrote "s"]
          writes := 1 } := by with_unfolding_all rfl
  have htypes := hall mislabelled [] 4 _ _ hrun
  exact absurd htypes (by simp [Types, mislabelled, Value.type])

end CodeModule
end SlotLang
