import SlotLang.Proofs.ExecutedInstructions
import SlotLang.Proofs.LabelResolution

/-!
# The height of the stack

The code in front of a position says how high the stack can be there: every instruction takes
and leaves a known number of values, and compiled code jumps with an empty stack only.  So
whatever place a jump goes to, the stack is not higher than the code in front of the place
allows.  Nothing is asked about the size of the module: the bound holds also where positions
do not fit into the 32 bits of a jump, and jumps go elsewhere than to their labels.

It follows that a run which comes to its end stands at the final return with an empty stack.

* `Instruction.height`, `CodeModule.heightAt` — the height that code leads to.
* `Directives.Level` — directives that lead from one height to another.
* `CodeModule.Balanced` — jumps leave nothing on the stack, and the code ends with nothing.
* `Statement.balanced_of_compile` — compiled code is balanced.
* `CodeModule.Balanced.leads_of_finished` — where a run of balanced code ends.
-/

namespace SlotLang

/-! ## Heights -/

/-- The height of the stack after an instruction, by the height before it. -/
def Instruction.height (h : Nat) : Instruction → Nat
  | constant _ => h + 1
  | loadLocal _ => h + 1
  | storeLocal _ => h - 1
  | addInt => h - 1
  | intToString => h
  | callHost .writeLine => h - 1
  | callHost .readLine => h + 1
  | callHost .parseInt => h
  | jump _ => h
  | branchIfLess _ => h - 2
  | ret => h

namespace CodeModule

/-- The height that the code in front of a position leads to. -/
def heightAt (m : CodeModule) (position : Nat) : Nat :=
  (m.code.toList.take position).foldl Instruction.height 0

theorem heightAt_succ {m : CodeModule} {position : Nat} {instruction : Instruction}
    (hcode : m.code[position]? = some instruction) :
    m.heightAt (position + 1) = instruction.height (m.heightAt position) := by
  rw [← Array.getElem?_toList] at hcode
  rw [heightAt, List.take_add_one, hcode, List.foldl_append]
  rfl

/-- Code in which a jump leaves nothing on the stack, and which ends at a height of zero with
its only return. -/
structure Balanced (m : CodeModule) : Prop where
  size_pos : 0 < m.code.size
  jump : ∀ (position : Nat) (instruction : Instruction), m.code[position]? = some instruction →
    instruction.label? ≠ none → instruction.height (m.heightAt position) = 0
  ret : ∀ position : Nat, m.code[position]? = some .ret ↔ position + 1 = m.code.size
  height_ret : ∀ position : Nat, position + 1 = m.code.size → m.heightAt position = 0

/-- The machine stands inside the code, with a stack that is not too high and with one value
for each slot. -/
structure InBounds (m : CodeModule) (state : MachineState) : Prop where
  position_lt : state.position < m.code.size
  length_stack_le : state.stack.length ≤ m.heightAt state.position
  size_locals : state.locals.size = m.locals.size

variable {m : CodeModule} {state state' : MachineState} {instruction : Instruction}
  {transition : Transition}

/-- Balanced code is what is in front of its return, and the return. -/
theorem Balanced.code_eq (hbalanced : m.Balanced) :
    m.code.toList = m.code.toList.dropLast ++ [.ret] := by
  have hpos := hbalanced.size_pos
  have hret := (hbalanced.ret (m.code.size - 1)).mpr (by omega)
  rw [← Array.getElem?_toList, ← Array.length_toList, ← List.getLast?_eq_getElem?] at hret
  exact (List.dropLast_append_getLast? _ hret).symm

/-- The stack after an instruction is as high as the instruction makes it. -/
theorem Executes.length_stack_le (hexecutes : m.Executes state instruction transition)
    (hleads : transition.LeadsTo state') {h : Nat} (hheight : state.stack.length ≤ h) :
    state'.stack.length ≤ instruction.height h := by
  cases hexecutes with
  | constant =>
      obtain rfl : state' = _ := hleads
      exact Nat.succ_le_succ hheight
  | loadLocal =>
      obtain rfl : state' = _ := hleads
      exact Nat.succ_le_succ hheight
  | readLine =>
      obtain ⟨line, rfl⟩ := hleads
      exact Nat.succ_le_succ hheight
  | jump =>
      obtain rfl : state' = _ := hleads
      exact hheight
  | ret => exact hleads.elim
  | _ hstack =>
      obtain rfl : state' = _ := hleads
      simp only [hstack, List.length_cons] at hheight
      simp only [Instruction.height, MachineState.advance, List.length_cons]
      omega

/-- An instruction goes on at the next position, or at the target of its jump. -/
theorem Executes.position_eq (hexecutes : m.Executes state instruction transition)
    (hleads : transition.LeadsTo state') :
    state'.position = state.position + 1 ∧ instruction ≠ .ret ∨
      ∃ target, instruction.label? = some target ∧ state'.position = target.toNat ∧
        target.toNat < m.code.size := by
  cases hexecutes with
  | readLine =>
      obtain ⟨line, rfl⟩ := hleads
      exact .inl ⟨rfl, nofun⟩
  | jump htarget =>
      obtain rfl : state' = _ := hleads
      exact .inr ⟨_, rfl, rfl, htarget⟩
  | branchTaken _ _ htarget =>
      obtain rfl : state' = _ := hleads
      exact .inr ⟨_, rfl, rfl, htarget⟩
  | ret => exact hleads.elim
  | _ =>
      obtain rfl : state' = _ := hleads
      exact .inl ⟨rfl, nofun⟩

theorem Executes.size_locals (hexecutes : m.Executes state instruction transition)
    (hleads : transition.LeadsTo state') : state'.locals.size = state.locals.size := by
  cases hexecutes with
  | readLine =>
      obtain ⟨line, rfl⟩ := hleads
      rfl
  | storeLocal =>
      obtain rfl : state' = _ := hleads
      exact Array.size_setIfInBounds
  | ret => exact hleads.elim
  | _ =>
      obtain rfl : state' = _ := hleads
      rfl

/-- A step of balanced code stays in its bounds, wherever a jump goes. -/
theorem Balanced.inBounds_step (hbalanced : m.Balanced) (hbounds : m.InBounds state)
    (hleads : (m.step state).LeadsTo state') : m.InBounds state' := by
  obtain ⟨instruction, hcode, hexecutes⟩ := executes_of_leadsTo hleads
  have hheight := hexecutes.length_stack_le hleads hbounds.length_stack_le
  have hlocals := (hexecutes.size_locals hleads).trans hbounds.size_locals
  rcases hexecutes.position_eq hleads with ⟨hnext, hret⟩ | ⟨target, hlabel, hposition, htarget⟩
  · -- Only the last instruction has none after it, and that is a return.
    have hlast : state.position + 1 ≠ m.code.size := by
      intro hlast
      rw [(hbalanced.ret _).mpr hlast] at hcode
      exact hret (Option.some.inj hcode).symm
    have hlt := hbounds.position_lt
    refine ⟨by omega, ?_, hlocals⟩
    rw [hnext, heightAt_succ hcode]
    exact hheight
  · -- Whatever the code in front of the target allows, the stack is empty.
    rw [hbalanced.jump _ _ hcode (by simp [hlabel])] at hheight
    exact ⟨hposition ▸ htarget, by omega, hlocals⟩

theorem Balanced.inBounds_run {σ : Type} {host : Host σ} (hbalanced : m.Balanced) {steps : Nat}
    {h h' : σ} (hrun : m.run host steps h = .outOfFuel state h') : m.InBounds state := by
  induction steps generalizing state h' with
  | zero =>
      cases hrun
      exact ⟨hbalanced.size_pos, Nat.zero_le _, Array.size_map⟩
  | succ steps ih =>
      obtain ⟨before, s, hbefore, hleads⟩ := exists_leadsTo_of_run_succ hrun
      exact hbalanced.inBounds_step (ih hbefore) hleads

/-- A run of balanced code comes to its end at the final return, with an empty stack, and
changes nothing there. -/
theorem Balanced.leads_of_finished {σ : Type} {host : Host σ} (hbalanced : m.Balanced)
    {fuel : Nat} {h h' : σ} (hrun : m.run host fuel h = .finished state h') :
    ∃ steps, m.run host steps h = .outOfFuel state h' ∧ state.position + 1 = m.code.size ∧
      state.stack = [] := by
  have hended : ∀ state' k, m.runFrom host fuel (.start m) h ≠ .outOfFuel state' k := by
    intro state' k hgoes
    cases hrun.symm.trans hgoes
  obtain ⟨steps, last, k, -, hleads, hlast⟩ := exists_leads_of_ended hended
  have hbounds : m.InBounds last := hbalanced.inBounds_run hleads
  obtain ⟨hstep, rfl⟩ := runFrom_one_eq_finished (hlast.trans hrun)
  have hfault : ∀ error, m.step last ≠ .fault error := by
    rw [hstep]
    nofun
  rcases executes_of_step hfault with ⟨instruction, hcode, hexecutes⟩ | ⟨hnone, -⟩
  · rw [hstep] at hexecutes
    cases hexecutes
    have hlast := (hbalanced.ret _).mp hcode
    have hheight := hbounds.length_stack_le
    rw [hbalanced.height_ret _ hlast] at hheight
    exact ⟨steps, hleads, hlast, List.eq_nil_of_length_eq_zero (Nat.le_zero.mp hheight)⟩
  · have hlt := hbounds.position_lt
    rw [Array.getElem?_eq_none_iff] at hnone
    omega

end CodeModule

/-! ## Heights of directives -/

/-- The height of the stack after what a directive emits. -/
def Directive.height (h : Nat) : Directive → Nat
  | declareLocal _ => h
  | loadConstant _ => h + 1
  | loadLocal _ => h + 1
  | storeLocal _ => h - 1
  | addInt => h - 1
  | callHost function => (Instruction.callHost function).height h
  | intToString => h
  | defineLabel => h
  | markLabel _ => h
  | jump _ => h
  | branchIfLess _ => h - 2

/-- The directives lead from one height to another, and jump at a height of zero only. -/
def Directives.Level : Nat → List Directive → Nat → Prop
  | h, [], h' => h = h'
  | h, directive :: rest, h' =>
      (directive.target? ≠ none → directive.height h = 0) ∧ Level (directive.height h) rest h'

theorem Directives.Level.append {h middle h' : Nat} {first second : List Directive}
    (hfirst : Level h first middle) (hsecond : Level middle second h') :
    Level h (first ++ second) h' := by
  induction first generalizing h with
  | nil =>
      cases hfirst
      exact hsecond
  | cons directive rest ih => exact ⟨hfirst.1, ih hfirst.2⟩

theorem LoadedBy.level_cons {table : SymbolTable} {value : Expression} {load : Directive}
    {type : ValueType} (hloaded : LoadedBy table value load type) {h h' : Nat}
    {rest : List Directive} (hrest : Directives.Level (h + 1) rest h') :
    Directives.Level h (load :: rest) h' := by
  cases hloaded <;> exact ⟨fun htarget => absurd rfl htarget, hrest⟩

/-- A statement leaves the stack as it was, and jumps with an empty stack. -/
theorem Statement.level_emission {statement : Statement} {scope scope' : Scope}
    {directives : List Directive} (hslots : scope.slots = scope.table.length)
    (hemission : statement.emission scope = .emit directives scope') :
    Directives.Level 0 directives 0 := by
  induction statement generalizing scope scope' directives with
  | sequence first second span ihfirst ihsecond =>
      obtain ⟨middle, before, after, hfirst, hsecond, rfl⟩ :=
        Emission.andThen_eq_emit.mp hemission
      obtain ⟨-, hslots', -, -⟩ := emission_table hslots hfirst
      exact (ihfirst hslots hfirst).append (ihsecond hslots' hsecond)
  | declare name value span =>
      obtain ⟨type, load, symbol, -, -, -, hloaded, -, rfl⟩ :=
        emission_declare_eq_emit hslots hemission
      exact ⟨nofun, hloaded.level_cons ⟨nofun, rfl⟩⟩
  | assign name value span =>
      obtain ⟨-, load, symbol, hloaded, -, rfl⟩ := Scope.assign_eq_emit hemission
      exact hloaded.level_cons ⟨nofun, rfl⟩
  | print value span =>
      obtain ⟨-, load, ⟨hloaded, rfl⟩ | ⟨hloaded, rfl⟩⟩ := emission_print_eq_emit hemission
      · exact hloaded.level_cons ⟨nofun, rfl⟩
      · exact hloaded.level_cons ⟨nofun, nofun, rfl⟩
  | readInt name span =>
      obtain ⟨-, symbol, -, -, rfl⟩ := emission_readInt_eq_emit hemission
      exact ⟨nofun, nofun, nofun, rfl⟩
  | forLoop index lower upper body span ih =>
      obtain ⟨scope₁, scope₂, declaration, inner, load, load', symbol, symbol', label, -,
        hslots₁, hdeclaration, hloaded, -, htable₂, hslots₂, hbody, -, -, hloaded', rfl⟩ :=
        emission_forLoop_eq_emit hslots hemission
      have hdeclared : Directives.Level 0 declaration 0 := by
        rcases hdeclaration with ⟨-, rfl⟩ | ⟨-, rfl⟩
        · exact rfl
        · exact ⟨nofun, rfl⟩
      have hhead : Directives.Level 0 (loopHead load symbol.slot label) 0 :=
        hloaded.level_cons ⟨nofun, nofun, fun _ => rfl, nofun, nofun, rfl⟩
      have hinner : Directives.Level 0 inner 0 :=
        ih (by rw [hslots₂, htable₂, hslots₁]) hbody
      have htest : Directives.Level 1 [load', .branchIfLess (UInt32.ofNat (label + 1))] 0 :=
        hloaded'.level_cons ⟨fun _ => rfl, rfl⟩
      have htail : Directives.Level 0 (loopTail symbol'.slot load' label) 0 :=
        ⟨nofun, nofun, nofun, nofun, nofun, nofun, htest⟩
      exact ((hdeclared.append hhead).append hinner).append htail

/-! ## Compiled code is balanced -/

/-- What a directive that emits an instruction says about it. -/
theorem Directive.Stands.exists_instruction {m : CodeModule} {place : UInt32 → Option UInt32}
    {position : Nat} {directive : Directive} (hstands : directive.Stands m place position)
    (hemits : directive.emits = true) :
    ∃ instruction, m.code[position]? = some instruction ∧ instruction ≠ .ret ∧
      (instruction.label? ≠ none → directive.target? ≠ none) ∧
      ∀ h, instruction.height h = directive.height h := by
  cases directive with
  | declareLocal type => cases hemits
  | defineLabel => cases hemits
  | markLabel label => cases hemits
  | loadConstant constant =>
      obtain ⟨index, hcode, -⟩ := hstands
      exact ⟨_, hcode, nofun, id, fun _ => rfl⟩
  | jump label =>
      obtain ⟨target, hcode, -⟩ := hstands
      exact ⟨_, hcode, nofun, nofun, fun _ => rfl⟩
  | branchIfLess label =>
      obtain ⟨target, hcode, -⟩ := hstands
      exact ⟨_, hcode, nofun, nofun, fun _ => rfl⟩
  | _ => exact ⟨_, hstands, nofun, id, fun _ => rfl⟩

theorem Directive.height_of_not_emits {directive : Directive} (hemits : directive.emits = false)
    (h : Nat) : directive.height h = h := by
  cases directive with
  | declareLocal type => rfl
  | defineLabel => rfl
  | markLabel label => rfl
  | _ => cases hemits

/-- Where directives stand, the code has their heights. -/
theorem Directives.Level.heightAt {m : CodeModule} {place : UInt32 → Option UInt32}
    {position h h' : Nat} {directives : List Directive} (hlevel : Level h directives h')
    (hstand : Stand m place position directives) (hheight : m.heightAt position = h) :
    m.heightAt (position + extent directives) = h' ∧
      ∀ i, position ≤ i → i < position + extent directives →
        ∃ instruction, m.code[i]? = some instruction ∧ instruction ≠ .ret ∧
          (instruction.label? ≠ none → instruction.height (m.heightAt i) = 0) := by
  induction directives generalizing position h with
  | nil => exact ⟨hheight.trans hlevel, fun i hle hlt => absurd hlt (Nat.not_lt.mpr hle)⟩
  | cons directive rest ih =>
      obtain ⟨hfirst, hrest⟩ := hstand
      obtain ⟨hjump, hlevel⟩ := hlevel
      rw [extent, ← Nat.add_assoc]
      cases hemits : directive.emits with
      | false =>
          rw [Directive.width_of_not_emits hemits] at hrest ⊢
          rw [Directive.height_of_not_emits hemits] at hlevel
          exact ih hlevel hrest hheight
      | true =>
          obtain ⟨instruction, hcode, hret, htarget, hsame⟩ := hfirst.exists_instruction hemits
          rw [Directive.width_of_emits hemits] at hrest ⊢
          have hnext : m.heightAt (position + 1) = directive.height h := by
            rw [CodeModule.heightAt_succ hcode, hheight, hsame]
          obtain ⟨hend, hinside⟩ := ih hlevel hrest hnext
          refine ⟨hend, fun i hle hlt => ?_⟩
          by_cases hi : i = position
          · subst hi
            refine ⟨instruction, hcode, hret, fun hlabel => ?_⟩
            rw [hheight, hsame]
            exact hjump (htarget hlabel)
          · exact hinside i (by omega) hlt

/-- Directives that start and end at a height of zero make balanced code. -/
theorem Directives.Level.balanced {name entry : String} {directives : List Directive}
    {m : CodeModule} (hlevel : Level 0 directives 0)
    (hassemble : assemble name entry directives = .ok m) : m.Balanced := by
  obtain ⟨⟨place, hstand⟩, hsize, hret, -, -⟩ := assemble_stands hassemble
  obtain ⟨hend, hinside⟩ := hlevel.heightAt hstand rfl
  rw [Nat.zero_add] at hend hinside
  -- Every position is inside the directives, at the return after them, or outside the code.
  refine ⟨by omega, fun i instruction hcode hlabel => ?_, fun i => ⟨fun hcode => ?_, fun hi => ?_⟩,
    fun i hi => ?_⟩
  · obtain ⟨hlt, -⟩ := Array.getElem?_eq_some_iff.mp hcode
    by_cases hi : i = extent directives
    · rw [hi, hret] at hcode
      cases hcode
      exact absurd rfl hlabel
    · obtain ⟨found, hfound, -, hzero⟩ := hinside i (Nat.zero_le i) (by omega)
      rw [hcode] at hfound
      cases hfound
      exact hzero hlabel
  · obtain ⟨hlt, -⟩ := Array.getElem?_eq_some_iff.mp hcode
    by_contra hi
    obtain ⟨found, hfound, hne, -⟩ := hinside i (Nat.zero_le i) (by omega)
    rw [hcode] at hfound
    exact hne (Option.some.inj hfound).symm
  · obtain rfl : i = extent directives := by omega
    exact hret
  · obtain rfl : i = extent directives := by omega
    exact hend

theorem Statement.balanced_of_compile {program : Statement} {name : String} {m : CodeModule}
    (hcompile : program.compile name = .ok m) : m.Balanced := by
  obtain ⟨directives, scope, hemission, hassemble⟩ := compile_eq_ok hcompile
  have hlevel : Directives.Level 0 directives 0 := level_emission rfl hemission
  exact hlevel.balanced hassemble

end SlotLang
