import SlotLang.Proofs.StackHeights

/-!
# What comes first stays first

The module of a sequence begins with the module of its first part: the slots, the constants
and the code of the part are there unchanged, only its return is replaced by what follows.
The labels of the part have their places before anything else is emitted, so its jumps are
linked as they are when it stands alone; a jump that goes to the return of the part goes to
the first instruction after it.

A run of the longer module therefore does what a run of the part does, up to the return of
the part, with the slots of the rest beside its own and still at their zeros.

* `CodeModule.Begins` — one module is the beginning of another.
* `Directives.begins_append` — more directives make a module that begins in the same way.
* `CodeModule.Begins.run_eq` — a run of the part inside the whole.
* `Statement.compile_sequence_begins` — the module and the runs of a sequence.
-/

namespace SlotLang

/-- A module has the slots, the constants and the code of another one in front of its own,
the return at the end of the code apart. -/
structure CodeModule.Begins (part whole : CodeModule) : Prop where
  locals : part.locals.toList <+: whole.locals.toList
  constants : part.constants.toList <+: whole.constants.toList
  code : part.code.toList.dropLast <+: whole.code.toList.dropLast

/-! ## Assembling more directives -/

namespace Assembler

variable {a b : Assembler} {name entry : String} {part whole : CodeModule}

/-- A label that has a place keeps it. -/
theorem Extends.target_eq (hextends : a.Extends b) {label target : UInt32}
    (htarget : a.target label = .ok target) : b.target label = .ok target := by
  unfold Assembler.target at htarget ⊢
  split at htarget
  next place hplaced =>
      rw [hextends.labels _ _ hplaced]
      exact htarget
  next => cases htarget

/-- What could be linked before is linked in the same way after more directives. -/
theorem Extends.link_eq (hextends : a.Extends b) {instruction linked : Instruction}
    (hlink : a.link instruction = .ok linked) : b.link instruction = .ok linked := by
  have hjump : ∀ {label : UInt32} {toInstruction : UInt32 → Instruction},
      (a.target label).map toInstruction = .ok linked →
        (b.target label).map toInstruction = .ok linked := by
    intro label toInstruction hmap
    cases htarget : a.target label with
    | error error =>
        rw [htarget] at hmap
        cases hmap
    | ok target =>
        rw [htarget] at hmap
        rw [hextends.target_eq htarget]
        exact hmap
  cases instruction with
  | jump label => exact hjump hlink
  | branchIfLess label => exact hjump hlink
  | _ => exact hlink

theorem Extends.code_prefix (hextends : a.Extends b) (hpart : a.finish name entry = .ok part)
    (hwhole : b.finish name entry = .ok whole) :
    part.code.toList.dropLast <+: whole.code.toList.dropLast := by
  obtain ⟨-, -, -, hsize, -, hcode⟩ := finish_eq_ok hpart
  obtain ⟨-, -, -, hsize', -, hcode'⟩ := finish_eq_ok hwhole
  rw [List.prefix_iff_getElem?]
  intro i hi
  have hlt : i < a.code.size := by simpa [hsize] using hi
  obtain ⟨instruction, hemitted⟩ : ∃ instruction, a.code[i]? = some instruction :=
    ⟨_, Array.getElem?_eq_getElem hlt⟩
  have hkept := hextends.code i instruction hemitted
  obtain ⟨hlt', -⟩ := Array.getElem?_eq_some_iff.mp hkept
  obtain ⟨linked, hlinked, hget⟩ := hcode i instruction hemitted
  obtain ⟨linked', hlinked', hget'⟩ := hcode' i instruction hkept
  rw [hextends.link_eq hlinked] at hlinked'
  cases hlinked'
  rw [← List.getElem?_eq_getElem hi, List.getElem?_dropLast, List.getElem?_dropLast,
    if_pos (by simpa [hsize'] using hlt'), if_pos (by simpa [hsize] using hlt),
    Array.getElem?_toList, Array.getElem?_toList, hget, hget']

theorem Extends.begins (hextends : a.Extends b) (hlocals : a.locals.toList <+: b.locals.toList)
    (hpart : a.finish name entry = .ok part) (hwhole : b.finish name entry = .ok whole) :
    part.Begins whole := by
  obtain ⟨-, htypes, hpool, -⟩ := finish_eq_ok hpart
  obtain ⟨-, htypes', hpool', -⟩ := finish_eq_ok hwhole
  refine ⟨?_, ?_, hextends.code_prefix hpart hwhole⟩
  · rw [htypes, htypes']
    exact hlocals
  · rw [hpool, hpool', List.prefix_iff_getElem?]
    intro i hi
    rw [Array.getElem?_toList]
    exact hextends.constants i _ (by simp at hi; simp [hi])

end Assembler

namespace Directives

variable {first second : List Directive} {name entry : String} {part whole : CodeModule}

/-- The module of some directives begins the module of those and more. -/
theorem begins_append (hpart : assemble name entry first = .ok part)
    (hwhole : assemble name entry (first ++ second) = .ok whole) : part.Begins whole := by
  unfold assemble at hpart hwhole
  rw [Assembler.applyAll_append] at hwhole
  refine (Assembler.extends_applyAll _ second).begins ?_ hpart hwhole
  rw [Assembler.locals_applyAll _ second]
  exact List.prefix_append _ _

end Directives

theorem Directive.Plain.target?_eq_none {directive : Directive} (hplain : directive.Plain) :
    directive.target? = none := by
  cases directive with
  | jump label => exact hplain.elim
  | branchIfLess label => exact hplain.elim
  | _ => rfl

namespace Directives

/-- The labels that nested directives jump to are marked among them. -/
theorem Nested.mem_markLabel {n m : Nat} {directives : List Directive}
    (hnested : Nested n directives m) {directive : Directive} (hmem : directive ∈ directives)
    {label : UInt32} (htarget : directive.target? = some label) :
    .markLabel label ∈ directives := by
  induction hnested with
  | nil => cases hmem
  | plain _ hplain =>
      rw [List.mem_singleton.mp hmem, hplain.target?_eq_none] at htarget
      cases htarget
  | append _ _ ihfirst ihsecond =>
      rcases List.mem_append.mp hmem with hmem | hmem
      · exact List.mem_append_left _ (ihfirst hmem)
      · exact List.mem_append_right _ (ihsecond hmem)
  | loop _ htest ih =>
      simp only [List.mem_append, List.mem_cons, List.not_mem_nil, or_false] at hmem ⊢
      rcases hmem with (((hentry | hmem) | rfl) | hmem) | rfl
      · rcases hentry with rfl | rfl | rfl | rfl
        · cases htarget
        · cases htarget
          simp
        · cases htarget
        · cases htarget
      · simp [ih hmem]
      · cases htarget
      · rw [(htest _ hmem).target?_eq_none] at htarget
        cases htarget
      · cases htarget
        simp

/-- Nested directives that have their marks in order have all their jumps linked. -/
theorem Nested.linked {n m : Nat} {directives : List Directive}
    (hnested : Nested n directives m) (hwell : MarkedWell directives) :
    Linked directives directives := by
  intro directive hmem label htarget
  obtain ⟨before, after, hsplit⟩ :=
    List.append_of_mem (hnested.mem_markLabel hmem htarget)
  refine ⟨before, after, hsplit, ?_⟩
  by_contra hundefined
  exact hwell before label after _ hsplit (.unknown (Nat.not_lt.mp hundefined))

end Directives

/-! ## The machine inside a longer module -/

/-- The state with further slots after its own. -/
def MachineState.widen (extra : Array Value) (state : MachineState) : MachineState :=
  { state with locals := state.locals ++ extra }

/-- The transition with another state in place of its own. -/
def Transition.map (f : MachineState → MachineState) : Transition → Transition
  | next state => next (f state)
  | halt state => halt (f state)
  | fault error => fault error
  | write line state => write line (f state)
  | read state => read (f state)

namespace CodeModule.Begins

variable {part whole : CodeModule} {state state' : MachineState} {instruction : Instruction}
  {transition : Transition} {extra : Array Value}

theorem getElem?_constants (hbegins : part.Begins whole) {i : Nat} {value : Value}
    (hconstant : part.constants[i]? = some value) : whole.constants[i]? = some value := by
  rw [← Array.getElem?_toList] at hconstant ⊢
  obtain ⟨hi, rfl⟩ := List.getElem?_eq_some_iff.mp hconstant
  exact List.prefix_iff_getElem?.mp hbegins.constants i hi

/-- All instructions of the part but the last are those of the whole. -/
theorem getElem?_code (hbegins : part.Begins whole) {i : Nat} (hi : i + 1 < part.code.size)
    (hcode : part.code[i]? = some instruction) : whole.code[i]? = some instruction := by
  have hpart : part.code.toList.dropLast[i]? = some instruction := by
    rw [List.getElem?_dropLast, Array.length_toList, if_pos (by omega), Array.getElem?_toList,
      hcode]
  obtain ⟨hlt, rfl⟩ := List.getElem?_eq_some_iff.mp hpart
  have hwhole := List.prefix_iff_getElem?.mp hbegins.code i hlt
  rw [List.getElem?_dropLast, Array.getElem?_toList] at hwhole
  exact (Option.ite_none_right_eq_some.mp hwhole).2

theorem size_code_le (hbegins : part.Begins whole) (hsize : 0 < whole.code.size) :
    part.code.size ≤ whole.code.size := by
  have hle := hbegins.code.length_le
  simp only [List.length_dropLast, Array.length_toList] at hle
  omega

/-- The whole starts with the slots of the part, and further ones. -/
theorem exists_start (hbegins : part.Begins whole) :
    ∃ extra, MachineState.start whole = (MachineState.start part).widen extra := by
  obtain ⟨types, htypes⟩ := hbegins.locals
  have hlocals : whole.locals = part.locals ++ types.toArray := by
    apply Array.ext'
    simp [← htypes]
  refine ⟨types.toArray.map Value.zero, ?_⟩
  simp [MachineState.start, MachineState.widen, hlocals]

/-- What an instruction does in the part, it does in the whole beside further slots. -/
theorem executes (hbegins : part.Begins whole) (hsize : part.code.size ≤ whole.code.size)
    (hexecutes : part.Executes state instruction transition) (extra : Array Value) :
    whole.Executes (state.widen extra) instruction (transition.map (.widen extra)) := by
  cases hexecutes with
  | constant hconstant => exact .constant (hbegins.getElem?_constants hconstant)
  | loadLocal hslot =>
      refine .loadLocal ?_
      obtain ⟨hlt, -⟩ := Array.getElem?_eq_some_iff.mp hslot
      exact (Array.getElem?_append_left hlt).trans hslot
  | @storeLocal slot value rest hstack hslot =>
      have hstored : (state.locals ++ extra).setIfInBounds slot.toNat value =
          state.locals.setIfInBounds slot.toNat value ++ extra :=
        Array.setIfInBounds_append_left hslot
      have hwide : slot.toNat < (state.widen extra).locals.size := by
        simp only [MachineState.widen, Array.size_append]
        omega
      have hstore : whole.Executes (state.widen extra) (.storeLocal slot) _ :=
        .storeLocal hstack hwide
      simp only [MachineState.widen, hstored] at hstore
      exact hstore
  | addInt hstack => exact .addInt hstack
  | intToString hstack => exact .intToString hstack
  | writeLine hstack => exact .writeLine hstack
  | readLine => exact .readLine
  | parseInt hstack hparse => exact .parseInt hstack hparse
  | jump htarget => exact .jump (Nat.lt_of_lt_of_le htarget hsize)
  | branchTaken hstack hless htarget =>
      exact .branchTaken hstack hless (Nat.lt_of_lt_of_le htarget hsize)
  | branchPassed hstack hless => exact .branchPassed hstack hless
  | ret => exact .ret

/-- In front of the return of the part, a step of the whole is a step of the part. -/
theorem step_eq (hbegins : part.Begins whole) (hsize : part.code.size ≤ whole.code.size)
    (hposition : state.position + 1 < part.code.size)
    (hleads : (part.step state).LeadsTo state') (extra : Array Value) :
    whole.step (state.widen extra) = (part.step state).map (.widen extra) := by
  obtain ⟨instruction, hcode, hexecutes⟩ := executes_of_leadsTo hleads
  exact (hbegins.executes hsize hexecutes extra).step_eq (hbegins.getElem?_code hposition hcode)

end CodeModule.Begins

namespace CodeModule

variable {σ : Type} {host : Host σ} {part whole : CodeModule} {state state' : MachineState}
  {extra : Array Value}

/-- Machines that take the same step make the same call, if they make one. -/
theorem Leads.widen {h h' : σ}
    (hstep : whole.step (state.widen extra) = (part.step state).map (.widen extra))
    (hleads : part.Leads host 1 (state, h) (state', h')) :
    whole.Leads host 1 (state.widen extra, h) (state'.widen extra, h') := by
  unfold Leads at hleads ⊢
  simp only [runFrom, hstep] at hleads ⊢
  cases htransition : part.step state with
  | next next =>
      rw [htransition] at hleads
      cases hleads
      rfl
  | halt stopped => rw [htransition] at hleads; cases hleads
  | fault error => rw [htransition] at hleads; cases hleads
  | write line next =>
      simp only [htransition, Transition.map] at hleads ⊢
      rcases hwrite : host.write line h with ⟨reason | _, k⟩
      · rw [hwrite] at hleads
        cases hleads
      · rw [hwrite] at hleads
        cases hleads
        rfl
  | read next =>
      simp only [htransition, Transition.map] at hleads ⊢
      rcases hread : host.read h with ⟨reason | _ | line, k⟩
      · rw [hread] at hleads
        cases hleads
      · rw [hread] at hleads
        cases hleads
      · rw [hread] at hleads
        cases hleads
        rfl

/-- As long as the run of the part goes on, the run of the whole is the same beside further
slots. -/
theorem Begins.run_eq (hbegins : part.Begins whole) (hbalanced : part.Balanced)
    (hsize : part.code.size ≤ whole.code.size)
    (hstart : MachineState.start whole = (MachineState.start part).widen extra) {steps : Nat}
    {h h' : σ} (hrun : part.run host steps h = .outOfFuel state h') :
    whole.run host steps h = .outOfFuel (state.widen extra) h' := by
  induction steps generalizing state h' with
  | zero =>
      cases hrun
      show Outcome.outOfFuel (.start whole) h = _
      rw [hstart]
  | succ steps ih =>
      obtain ⟨before, s, hbefore, hleads⟩ := exists_leads_of_run_succ hrun
      have hbounds := hbalanced.inBounds_run hbefore
      have hlt := hbounds.position_lt
      -- The step before was not the return, for the run went on.
      have hlast : before.position + 1 ≠ part.code.size := by
        intro hlast
        have hhalt : part.step before = .halt before :=
          Executes.ret.step_eq ((hbalanced.ret _).mpr hlast)
        have hnone := hleads.leadsTo
        rw [hhalt] at hnone
        exact hnone
      have hstep := hbegins.step_eq hsize (by omega) hleads.leadsTo extra
      have hwhole : whole.Leads host steps (.start whole, h) (before.widen extra, s) := ih hbefore
      exact hwhole.trans (hleads.widen hstep)

end CodeModule

/-! ## Sequences -/

namespace Statement

/-- Directives that were emitted and assembled are a compiled program. -/
theorem compile_of_assemble {program : Statement} {directives : List Directive} {scope : Scope}
    {name : String} {m : CodeModule} (hemission : program.emission .empty = .emit directives scope)
    (hassemble : assemble name entryPoint directives = .ok m) : program.compile name = .ok m := by
  simp only [compile, Emission.toModule, lower, hemission, Emission.emit, hassemble, mapError_ok]

/-- If a sequence compiles, its first part does, and begins the module of the sequence. -/
theorem exists_begins {first second : Statement} {span : Span} {name : String}
    {whole : CodeModule} (hwhole : (sequence first second span).compile name = .ok whole) :
    ∃ part, first.compile name = .ok part ∧ part.Begins whole := by
  obtain ⟨directives, scope, hemission, hassemble⟩ := compile_eq_ok hwhole
  obtain ⟨middle, before, after, hfirst, -, rfl⟩ := Emission.andThen_eq_emit.mp hemission
  -- The marks of the first part are in order, for those of the whole are.
  have hwell : Directives.MarkedWell before := by
    obtain ⟨hfault, -⟩ := Assembler.finish_eq_ok hassemble
    rw [Assembler.applyAll_append] at hfault
    exact Directives.markedWell_iff.mpr ((Assembler.extends_applyAll _ after).fault hfault)
  obtain ⟨-, hnested⟩ := first.nests_emission (n := 0) rfl _ _ hfirst
  obtain ⟨part, hpart⟩ :=
    exists_assemble_of_linked hwell (hnested.linked hwell) name entryPoint
  exact ⟨part, compile_of_assemble hfirst hpart, Directives.begins_append hpart hassemble⟩

/-- Sequencing only appends.  If a sequence compiles, its first part compiles on its own, and
the slots, the constants and the code up to the final return of that module are the first ones
of the module of the sequence.  On any host on which the first part runs to its end, the run of
the sequence makes exactly the same calls and then stands where the return was, with an empty
stack and the same values in the slots of the first part; all calls after that are further
ones. -/
theorem compile_sequence_begins {first second : Statement} {span : Span} {name : String}
    {whole : CodeModule} (hwhole : (sequence first second span).compile name = .ok whole) :
    ∃ part, first.compile name = .ok part ∧
      part.locals.toList <+: whole.locals.toList ∧
      part.constants.toList <+: whole.constants.toList ∧
      (∃ code, part.code.toList = code ++ [.ret] ∧ code <+: whole.code.toList.dropLast) ∧
      ∀ {σ : Type} (host : Host σ) (h h' : σ) (fuel : Nat) (state : MachineState)
        (calls : List Call),
        part.run host.logged fuel (h, []) = .finished state (h', calls) →
        ∃ steps locals,
          whole.run host.logged steps (h, []) =
            .outOfFuel ⟨part.code.size - 1, [], locals⟩ (h', calls) ∧
          state.locals.size = part.locals.size ∧ state.locals.toList <+: locals.toList ∧
          ∀ more, steps ≤ more → calls <+: (whole.run host.logged more (h, [])).host.2 := by
  obtain ⟨part, hpart, hbegins⟩ := exists_begins hwhole
  have hbalanced := balanced_of_compile hpart
  have hsize := hbegins.size_code_le (balanced_of_compile hwhole).size_pos
  refine ⟨part, hpart, hbegins.locals, hbegins.constants, ⟨_, hbalanced.code_eq, hbegins.code⟩, ?_⟩
  intro σ host h h' fuel state calls hfinished
  obtain ⟨steps, hrun, hposition, hstack⟩ := hbalanced.leads_of_finished hfinished
  have hbounds := hbalanced.inBounds_run hrun
  obtain ⟨extra, hstart⟩ := hbegins.exists_start
  have hreached := hbegins.run_eq hbalanced hsize hstart hrun
  have hstate : state.widen extra = ⟨part.code.size - 1, [], state.locals ++ extra⟩ := by
    simp only [MachineState.widen, hstack, ← hposition, Nat.add_sub_cancel]
  rw [hstate] at hreached
  refine ⟨steps, _, hreached, hbounds.size_locals, ?_, fun more hle => ?_⟩
  · rw [Array.toList_append]
    exact List.prefix_append _ _
  · have hcalls : (whole.run host.logged steps (h, [])).host.2 <+:
        (whole.run host.logged more (h, [])).host.2 := CodeModule.prefix_log_run_of_le hle h
    rw [hreached] at hcalls
    exact hcalls

/-- A program that ends with a loop. -/
def goTwice : Statement :=
  .sequence (.declare "x" (.integer 1 ⟨8, 9⟩) ⟨0, 9⟩)
    (.forLoop "i" (.integer 0 ⟨19, 20⟩) (.integer 2 ⟨24, 25⟩)
      (.print (.string "go" ⟨35, 39⟩) ⟨29, 39⟩) ⟨11, 43⟩) ⟨0, 43⟩

end Statement

/-- The module of that program.  The test of its loop falls through to the return. -/
def CodeModule.goTwice : CodeModule where
  name := "test"
  entry := "main"
  locals := #[.int, .int]
  constants := #[.int 1, .int 0, .string "go", .int 2]
  code := #[.constant 0, .storeLocal 0, .constant 1, .storeLocal 1, .jump 11, .constant 2,
    .callHost .writeLine, .loadLocal 1, .constant 0, .addInt, .storeLocal 1, .loadLocal 1,
    .constant 3, .branchIfLess 5, .ret]

/-- With another loop after it, which has a slot and a constant of its own, the program still
writes its two lines and leaves its variables as they were. -/
theorem Statement.goTwice_compile_sequence_begins :
    ∃ whole, (sequence goTwice (.forLoop "j" (.integer 1 ⟨53, 54⟩) (.integer 9 ⟨58, 59⟩)
        (.assign "x" (.name "j" ⟨67, 68⟩) ⟨63, 68⟩) ⟨45, 72⟩) ⟨0, 72⟩).compile "test" =
          .ok whole ∧
      goTwice.compile "test" = .ok CodeModule.goTwice ∧
      CodeModule.goTwice.locals.toList <+: whole.locals.toList ∧
      CodeModule.goTwice.constants.toList <+: whole.constants.toList ∧
      ∃ steps locals script,
        whole.run Script.host.logged steps (Script.start [] none none, []) =
          .outOfFuel ⟨14, [], locals⟩ (script, [.write "go" (.ok ()), .write "go" (.ok ())]) ∧
        [.int 1, .int 2] <+: locals.toList := by
  obtain ⟨whole, hwhole⟩ : ∃ whole, (sequence goTwice (.forLoop "j" (.integer 1 ⟨53, 54⟩)
      (.integer 9 ⟨58, 59⟩) (.assign "x" (.name "j" ⟨67, 68⟩) ⟨63, 68⟩) ⟨45, 72⟩)
      ⟨0, 72⟩).compile "test" = .ok whole := exists_eq_ok_of_toOption (by decide +kernel)
  have hgoTwice : goTwice.compile "test" = .ok CodeModule.goTwice :=
    eq_ok_of_toOption (by decide +kernel)
  obtain ⟨part, hpart, hlocals, hconstants, -, hruns⟩ := compile_sequence_begins hwhole
  obtain rfl : CodeModule.goTwice = part := Except.ok.inj (hgoTwice.symm.trans hpart)
  have hfinished : CodeModule.goTwice.run Script.host.logged 27 (Script.start [] none none, []) =
      .finished ⟨14, [], #[.int 1, .int 2]⟩
        ({ Script.start [] none none with events := #[.wrote "go", .wrote "go"], writes := 2 },
          [.write "go" (.ok ()), .write "go" (.ok ())]) := by
    with_unfolding_all rfl
  obtain ⟨steps, locals, hrun, -, hslots, -⟩ := hruns _ _ _ _ _ _ hfinished
  exact ⟨whole, hwhole, hgoTwice, hlocals, hconstants, steps, locals, _, hrun, hslots⟩

end SlotLang
