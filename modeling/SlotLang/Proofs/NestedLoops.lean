import Mathlib.Data.List.Pairwise
import Mathlib.Data.List.Perm.Basic
import SlotLang.Proofs.EnteredStatements
import SlotLang.Proofs.StackHeights

/-!
# The loops of a module

Every loop of a program has one jump and one branch in the module, and all that is between
them belongs to the loop.  Where the two stand is known from the place of the loop in the
program.  Two loops stand one after the other, or one stands in the body of the other.  So a
jump stays inside the loops that it is in and outside those that it is not in, and nothing but
a branch leads back.

The positions of the jumps are those of the program for a module of any size.  Their targets
are numbers of 32 bits, so what is said about targets as positions asks for a module in which
every position is such a number.

* `LoopSpan` — a jump and the branch that belongs to it.
* `Statement.loopSpans` — the loops of a program, by their places.
* `CodeModule.LoopsIn` — the jumps of a part of the code are those of the given loops.
* `Statement.loopsIn_of_compile` — the jumps of a module are those of its loops.
* `Statement.compile_loops_nest` — how the loops of a module are nested.
-/

namespace SlotLang

/-! ## Jumps and their branches -/

/-- The positions of the jump in front of a loop and of the branch at its end. -/
structure LoopSpan where
  jump : Nat
  branch : Nat
deriving DecidableEq

namespace LoopSpan

/-- The jump goes to the test, which takes two instructions in front of the branch. -/
def entry (span : LoopSpan) : UInt32 :=
  UInt32.ofNat (span.branch - 2)

/-- The branch goes back to the body, which starts behind the jump. -/
def back (span : LoopSpan) : UInt32 :=
  UInt32.ofNat (span.jump + 1)

/-- The position is one of the loop. -/
def Covers (span : LoopSpan) (position : Nat) : Prop :=
  span.jump ≤ position ∧ position ≤ span.branch

/-- One loop stands in the body of the other, behind its first instruction and in front of its
test. -/
def Encloses (outer inner : LoopSpan) : Prop :=
  outer.jump + 1 < inner.jump ∧ inner.branch + 2 < outer.branch

/-- One loop stands in front of the other. -/
def Precedes (first second : LoopSpan) : Prop :=
  first.branch < second.jump

/-- The instructions of a loop that go to another position than the next one. -/
inductive Edge (span : LoopSpan) : Nat → Instruction → Prop
  | jump : Edge span span.jump (.jump span.entry)
  | branch : Edge span span.branch (.branchIfLess span.back)

theorem Edge.jump_iff {span : LoopSpan} {position : Nat} {target : UInt32} :
    span.Edge position (.jump target) ↔ span.jump = position ∧ target = span.entry := by
  constructor
  · rintro ⟨⟩
    exact ⟨rfl, rfl⟩
  · rintro ⟨rfl, rfl⟩
    exact .jump

theorem Edge.branchIfLess_iff {span : LoopSpan} {position : Nat} {target : UInt32} :
    span.Edge position (.branchIfLess target) ↔
      span.branch = position ∧ target = span.back := by
  constructor
  · rintro ⟨⟩
    exact ⟨rfl, rfl⟩
  · rintro ⟨rfl, rfl⟩
    exact .branch

end LoopSpan

/-- The jump and the branch of a loop, from the place of the loop. -/
def Place.loopSpan? (place : Place) : Option LoopSpan :=
  match place.node with
  | .forLoop _ _ _ _ _ => some ⟨place.start + 2, place.start + place.length - 1⟩
  | _ => none

namespace Statement

/-- The loops of a statement, an outer one in front of those in its body. -/
def loopSpans (statement : Statement) (table : SymbolTable) (start : Nat) : List LoopSpan :=
  (statement.places table start).filterMap Place.loopSpan?

theorem loopSpans_sequence (first second : Statement) (span : Span) (table : SymbolTable)
    (start : Nat) :
    (sequence first second span).loopSpans table start = first.loopSpans table start ++
      second.loopSpans (first.tableAfter table) (start + first.codeLength table) :=
  List.filterMap_append

theorem loopSpans_forLoop (index : String) (lower upper : Expression) (body : Statement)
    (span : Span) (table : SymbolTable) (start : Nat) :
    (forLoop index lower upper body span).loopSpans table start =
      ⟨start + 2, start + 3 + body.codeLength (table.declareIndex index) + 6⟩ ::
        body.loopSpans (table.declareIndex index) (start + 3) := by
  simp [loopSpans, places, Place.loopSpan?, Place.length, codeLength]
  omega

/-- There is one pair of jumps for each loop. -/
theorem length_loopSpans (statement : Statement) (table : SymbolTable) (start : Nat) :
    (statement.loopSpans table start).length = statement.loops := by
  induction statement generalizing table start with
  | sequence first second span ihfirst ihsecond =>
      rw [loopSpans_sequence, List.length_append, ihfirst, ihsecond, loops]
  | forLoop index lower upper body span ih =>
      rw [loopSpans_forLoop, List.length_cons, ih, loops]
  | _ => rfl

end Statement

/-! ## Parts of the code -/

namespace CodeModule

/-- The jumps between two positions of a module are those of the given loops, which are nested
or stand one after the other. -/
structure LoopsIn (m : CodeModule) (start stop : Nat) (spans : List LoopSpan) : Prop where
  le : start ≤ stop
  inside : ∀ span ∈ spans,
    start + 2 ≤ span.jump ∧ span.jump + 3 ≤ span.branch ∧ span.branch < stop
  nested : spans.Pairwise fun a b => a.Encloses b ∨ a.Precedes b
  edges : ∀ i instruction, start ≤ i → i < stop → instruction.label? ≠ none →
    (m.code[i]? = some instruction ↔ ∃ span ∈ spans, span.Edge i instruction)

variable {m : CodeModule} {start middle stop : Nat} {spans first second : List LoopSpan}

/-- No jump of the loops is outside of the part. -/
theorem LoopsIn.bounds_of_edge (hloops : m.LoopsIn start stop spans) {span : LoopSpan}
    (hspan : span ∈ spans) {i : Nat} {instruction : Instruction}
    (hedge : span.Edge i instruction) : start + 2 ≤ i ∧ i < stop := by
  have hinside := hloops.inside span hspan
  cases hedge with
  | jump => omega
  | branch => omega

theorem loopsIn_nil (m : CodeModule) (position : Nat) : m.LoopsIn position position [] where
  le := Nat.le_refl position
  inside := by simp
  nested := .nil
  edges := by omega

/-- An instruction that is not a jump is a part without loops. -/
theorem loopsIn_singleton {position : Nat} {instruction : Instruction}
    (hcode : m.code[position]? = some instruction) (hlabel : instruction.label? = none) :
    m.LoopsIn position (position + 1) [] where
  le := Nat.le_succ position
  inside := by simp
  nested := .nil
  edges := by
    intro i found hle hlt hfound
    obtain rfl : i = position := by omega
    constructor
    · intro hget
      rw [hcode] at hget
      obtain rfl := Option.some.inj hget
      exact absurd hlabel hfound
    · simp

/-- The loops of one part and those of the next. -/
theorem LoopsIn.append (hfirst : m.LoopsIn start middle first)
    (hsecond : m.LoopsIn middle stop second) : m.LoopsIn start stop (first ++ second) where
  le := Nat.le_trans hfirst.le hsecond.le
  inside := by
    have hle := hfirst.le
    have hle' := hsecond.le
    intro span hspan
    rcases List.mem_append.mp hspan with hspan | hspan
    · have hinside := hfirst.inside span hspan
      omega
    · have hinside := hsecond.inside span hspan
      omega
  nested := by
    refine List.pairwise_append.mpr ⟨hfirst.nested, hsecond.nested, fun a ha b hb => .inr ?_⟩
    have hbefore := hfirst.inside a ha
    have hafter := hsecond.inside b hb
    show a.branch < b.jump
    omega
  edges := by
    intro i instruction hle hlt hlabel
    -- A position is in one of the parts, and the loops of the other have no jump there.
    by_cases hi : i < middle
    · rw [hfirst.edges i instruction hle hi hlabel]
      constructor
      · rintro ⟨span, hspan, hedge⟩
        exact ⟨span, List.mem_append_left second hspan, hedge⟩
      · rintro ⟨span, hspan, hedge⟩
        rcases List.mem_append.mp hspan with hspan | hspan
        · exact ⟨span, hspan, hedge⟩
        · have hbounds := hsecond.bounds_of_edge hspan hedge
          omega
    · rw [hsecond.edges i instruction (by omega) hlt hlabel]
      constructor
      · rintro ⟨span, hspan, hedge⟩
        exact ⟨span, List.mem_append_right first hspan, hedge⟩
      · rintro ⟨span, hspan, hedge⟩
        rcases List.mem_append.mp hspan with hspan | hspan
        · have hbounds := hfirst.bounds_of_edge hspan hedge
          omega
        · exact ⟨span, hspan, hedge⟩

/-- A jump, a part with the loops of the body, and a branch are a loop around the others. -/
theorem LoopsIn.loop (hfront : m.LoopsIn start (start + 2) [])
    (hjump : m.code[start + 2]? = some (.jump (UInt32.ofNat (middle + 4))))
    (hbody : m.LoopsIn (start + 3) middle spans)
    (htest : m.LoopsIn middle (middle + 6) [])
    (hbranch : m.code[middle + 6]? = some (.branchIfLess (UInt32.ofNat (start + 3)))) :
    m.LoopsIn start (middle + 7) (⟨start + 2, middle + 6⟩ :: spans) where
  le := by
    have hle := hbody.le
    omega
  inside := by
    have hle := hbody.le
    intro span hspan
    rcases List.mem_cons.mp hspan with rfl | hspan
    · show start + 2 ≤ start + 2 ∧ start + 2 + 3 ≤ middle + 6 ∧ middle + 6 < middle + 7
      omega
    · have hinside := hbody.inside span hspan
      omega
  nested := by
    refine List.pairwise_cons.mpr ⟨fun span hspan => .inl ?_, hbody.nested⟩
    have hinside := hbody.inside span hspan
    show start + 2 + 1 < span.jump ∧ span.branch + 2 < middle + 6
    omega
  edges := by
    have hle := hbody.le
    intro i instruction hstart hstop hlabel
    constructor
    · intro hcode
      -- The part has five pieces, and three of them have no jump of this loop.
      have hpieces : i < start + 2 ∨ i = start + 2 ∨ (start + 3 ≤ i ∧ i < middle) ∨
          (middle ≤ i ∧ i < middle + 6) ∨ i = middle + 6 := by omega
      rcases hpieces with hi | rfl | ⟨hle, hlt⟩ | ⟨hle, hlt⟩ | rfl
      · have hnone := (hfront.edges i instruction hstart hi hlabel).mp hcode
        simp at hnone
      · rw [hjump] at hcode
        obtain rfl := Option.some.inj hcode
        exact ⟨_, List.mem_cons_self, .jump⟩
      · obtain ⟨span, hspan, hedge⟩ := (hbody.edges i instruction hle hlt hlabel).mp hcode
        exact ⟨span, List.mem_cons_of_mem _ hspan, hedge⟩
      · have hnone := (htest.edges i instruction hle hlt hlabel).mp hcode
        simp at hnone
      · rw [hbranch] at hcode
        obtain rfl := Option.some.inj hcode
        exact ⟨_, List.mem_cons_self, .branch⟩
    · rintro ⟨span, hspan, hedge⟩
      rcases List.mem_cons.mp hspan with rfl | hspan
      · cases hedge with
        | jump => exact hjump
        | branch => exact hbranch
      · have hbounds := hbody.bounds_of_edge hspan hedge
        exact (hbody.edges i instruction (by omega) hbounds.2 hlabel).mpr ⟨span, hspan, hedge⟩

end CodeModule

/-! ## The code of a statement -/

/-- Directives that name no label are a part without loops. -/
theorem Directives.Stand.loopsIn {m : CodeModule} {place : UInt32 → Option UInt32}
    {position : Nat} {directives : List Directive} (hstand : Stand m place position directives)
    (htargets : ∀ directive ∈ directives, directive.target? = none) :
    m.LoopsIn position (position + extent directives) [] := by
  induction directives generalizing position with
  | nil => exact m.loopsIn_nil position
  | cons directive rest ih =>
      obtain ⟨hfirst, hrest⟩ := hstand
      obtain ⟨htarget, htargets⟩ := List.forall_mem_cons.mp htargets
      have hothers := ih hrest htargets
      rw [extent, ← Nat.add_assoc]
      cases hemits : directive.emits with
      | false =>
          rw [Directive.width_of_not_emits hemits] at hothers ⊢
          exact hothers
      | true =>
          obtain ⟨instruction, hcode, -, hlabel, -⟩ := hfirst.exists_instruction hemits
          have hplain : instruction.label? = none := by
            by_contra hne
            exact hlabel hne htarget
          rw [Directive.width_of_emits hemits] at hothers ⊢
          exact (CodeModule.loopsIn_singleton hcode hplain).append hothers

/-- A load in front of directives that name no label. -/
theorem LoadedBy.targets_cons {table : SymbolTable} {value : Expression} {load : Directive}
    {type : ValueType} (hloaded : LoadedBy table value load type) {rest : List Directive}
    (hrest : ∀ directive ∈ rest, directive.target? = none) :
    ∀ directive ∈ load :: rest, directive.target? = none := by
  have hload : load.target? = none := by cases hloaded <;> rfl
  exact List.forall_mem_cons.mpr ⟨hload, hrest⟩

/-- What a loop emits around its body is a loop around the loops of the body. -/
theorem LoadedBy.loopsIn_forLoop {m : CodeModule} {place : UInt32 → Option UInt32}
    {table table' : SymbolTable} {lower upper : Expression} {load load' : Directive}
    {type type' : ValueType} {slot slot' : UInt32} {label start middle : Nat}
    {spans : List LoopSpan} (hloaded : LoadedBy table lower load type)
    (hloaded' : LoadedBy table' upper load' type')
    (hhead : Directives.Stand m place start (loopHead load slot label))
    (hbody : m.LoopsIn (start + 3) middle spans)
    (htail : Directives.Stand m place middle (loopTail slot' load' label)) :
    m.LoopsIn start (middle + 7) (⟨start + 2, middle + 6⟩ :: spans) := by
  -- The head and the tail are each a part without labels and the rest.
  have hhead : Directives.Stand m place start ([load, .storeLocal slot, .defineLabel] ++
      [.jump (UInt32.ofNat label), .defineLabel, .markLabel (UInt32.ofNat (label + 1))]) := hhead
  have htail : Directives.Stand m place middle ([.loadLocal slot', .loadConstant (.int 1),
      .addInt, .storeLocal slot', .markLabel (UInt32.ofNat label), .loadLocal slot', load'] ++
      [.branchIfLess (UInt32.ofNat (label + 1))]) := htail
  obtain ⟨hfront, hrest⟩ := Directives.stand_append.mp hhead
  obtain ⟨htest, hlast⟩ := Directives.stand_append.mp htail
  have htwo : Directives.extent [load, .storeLocal slot, .defineLabel] = 2 :=
    hloaded.extent_cons _
  have hsix : Directives.extent [.loadLocal slot', .loadConstant (.int 1), .addInt,
      .storeLocal slot', .markLabel (UInt32.ofNat label), .loadLocal slot', load'] = 6 := by
    cases hloaded' <;> rfl
  have hplain : m.LoopsIn start (start + 2) [] := by
    rw [← htwo]
    exact hfront.loopsIn (hloaded.targets_cons (by simp [Directive.target?]))
  have hplain' : m.LoopsIn middle (middle + 6) [] := by
    rw [← hsix]
    refine htest.loopsIn ?_
    simp only [List.forall_mem_cons]
    exact ⟨rfl, rfl, rfl, rfl, rfl, rfl, List.forall_mem_cons.mp (hloaded'.targets_cons (by simp))⟩
  rw [htwo] at hrest
  rw [hsix] at hlast
  obtain ⟨⟨entry, hjump, hentry⟩, -, hmark, -⟩ := hrest
  obtain ⟨⟨back, hbranch, hback⟩, -⟩ := hlast
  obtain ⟨-, -, -, -, hmark', -⟩ := htest
  -- Each of the two labels is marked once, where the other part of the loop starts.
  have hmark : place (UInt32.ofNat (label + 1)) = some (UInt32.ofNat (start + 3)) := hmark
  have hmark' : place (UInt32.ofNat label) = some (UInt32.ofNat (middle + 4)) := hmark'
  rw [hmark'] at hentry
  rw [hmark] at hback
  rw [← Option.some.inj hentry] at hjump
  rw [← Option.some.inj hback] at hbranch
  exact hplain.loop hjump hbody hplain' hbranch

namespace Statement

/-- A statement emits as many instructions as its code is long. -/
theorem extent_emission {statement : Statement} {scope scope' : Scope}
    {directives : List Directive} (hslots : scope.slots = scope.table.length)
    (hemission : statement.emission scope = .emit directives scope') :
    Directives.extent directives = statement.codeLength scope.table := by
  induction statement generalizing scope scope' directives with
  | sequence first second span ihfirst ihsecond =>
      obtain ⟨middle, before, after, hfirst, hsecond, rfl⟩ :=
        Emission.andThen_eq_emit.mp hemission
      obtain ⟨htable, hslots', -, -⟩ := emission_table hslots hfirst
      rw [Directives.extent_append, ihfirst hslots hfirst, ihsecond hslots' hsecond, htable,
        codeLength]
  | declare name value span =>
      obtain ⟨type, load, symbol, -, -, -, hloaded, -, rfl⟩ :=
        emission_declare_eq_emit hslots hemission
      rw [Directives.extent, hloaded.extent_cons]
      rfl
  | assign name value span =>
      obtain ⟨-, load, symbol, hloaded, -, rfl⟩ := Scope.assign_eq_emit hemission
      rw [hloaded.extent_cons]
      rfl
  | print value span =>
      obtain ⟨-, load, ⟨hloaded, rfl⟩ | ⟨hloaded, rfl⟩⟩ := emission_print_eq_emit hemission
      · rw [hloaded.extent_cons, codeLength, hloaded.typeOf?_eq, if_neg (by decide)]
        rfl
      · rw [hloaded.extent_cons, codeLength, hloaded.typeOf?_eq, if_pos rfl]
        rfl
  | readInt name span =>
      obtain ⟨-, symbol, -, -, rfl⟩ := emission_readInt_eq_emit hemission
      rfl
  | forLoop index lower upper body span ih =>
      obtain ⟨scope₁, scope₂, declaration, inner, load, load', symbol, symbol', label, htable₁,
        hslots₁, hdeclaration, hloaded, -, htable₂, hslots₂, hbody, -, -, hloaded', rfl⟩ :=
        emission_forLoop_eq_emit hslots hemission
      have hdeclared : Directives.extent declaration = 0 := by
        rcases hdeclaration with ⟨-, rfl⟩ | ⟨-, rfl⟩ <;> rfl
      have hinner := ih (by rw [hslots₂, htable₂, hslots₁]) hbody
      simp only [Directives.extent_append, hdeclared, hloaded.extent_loopHead, hinner,
        hloaded'.extent_loopTail, htable₂, htable₁, codeLength, Nat.zero_add]

/-- The jumps in the code of a statement are those of its loops. -/
theorem loopsIn_of_stand {statement : Statement} {scope scope' : Scope}
    {directives : List Directive} {m : CodeModule} {place : UInt32 → Option UInt32}
    {position : Nat} (hslots : scope.slots = scope.table.length)
    (hemission : statement.emission scope = .emit directives scope')
    (hstand : Directives.Stand m place position directives) :
    m.LoopsIn position (position + statement.codeLength scope.table)
      (statement.loopSpans scope.table position) := by
  have hextent := extent_emission hslots hemission
  induction statement generalizing scope scope' directives position with
  | sequence first second span ihfirst ihsecond =>
      obtain ⟨middle, before, after, hfirst, hsecond, rfl⟩ :=
        Emission.andThen_eq_emit.mp hemission
      obtain ⟨htable, hslots', -, -⟩ := emission_table hslots hfirst
      obtain ⟨hbefore, hafter⟩ := Directives.stand_append.mp hstand
      have hlength := extent_emission hslots hfirst
      have hloops := ihsecond hslots' hsecond hafter (extent_emission hslots' hsecond)
      rw [hlength, htable] at hloops
      rw [loopSpans_sequence, codeLength, ← Nat.add_assoc]
      exact (ihfirst hslots hfirst hbefore hlength).append hloops
  | declare name value span =>
      obtain ⟨type, load, symbol, -, -, -, hloaded, -, rfl⟩ :=
        emission_declare_eq_emit hslots hemission
      rw [← hextent]
      refine hstand.loopsIn (List.forall_mem_cons.mpr ⟨rfl, ?_⟩)
      exact hloaded.targets_cons (by simp [Directive.target?])
  | assign name value span =>
      obtain ⟨-, load, symbol, hloaded, -, rfl⟩ := Scope.assign_eq_emit hemission
      rw [← hextent]
      exact hstand.loopsIn (hloaded.targets_cons (by simp [Directive.target?]))
  | print value span =>
      rw [← hextent]
      obtain ⟨-, load, ⟨hloaded, rfl⟩ | ⟨hloaded, rfl⟩⟩ := emission_print_eq_emit hemission
      · exact hstand.loopsIn (hloaded.targets_cons (by simp [Directive.target?]))
      · exact hstand.loopsIn (hloaded.targets_cons (by simp [Directive.target?]))
  | readInt name span =>
      obtain ⟨-, symbol, -, -, rfl⟩ := emission_readInt_eq_emit hemission
      rw [← hextent]
      exact hstand.loopsIn (by simp [Directive.target?])
  | forLoop index lower upper body span ih =>
      obtain ⟨scope₁, scope₂, declaration, inner, load, load', symbol, symbol', label, htable₁,
        hslots₁, hdeclaration, hloaded, -, htable₂, hslots₂, hbody, -, -, hloaded', rfl⟩ :=
        emission_forLoop_eq_emit hslots hemission
      have hslots' : scope₂.slots = scope₂.table.length := by rw [hslots₂, htable₂, hslots₁]
      have hdeclared : Directives.extent declaration = 0 := by
        rcases hdeclaration with ⟨-, rfl⟩ | ⟨-, rfl⟩ <;> rfl
      have hinner := extent_emission hslots' hbody
      rw [htable₂, htable₁] at hinner
      simp only [Directives.stand_append, Directives.extent_append, hdeclared,
        hloaded.extent_loopHead, Nat.zero_add, Nat.add_zero] at hstand
      obtain ⟨⟨⟨-, hhead⟩, hcode⟩, htail⟩ := hstand
      rw [hinner, ← Nat.add_assoc] at htail
      have hloops := ih hslots' hbody hcode (extent_emission hslots' hbody)
      rw [htable₂, htable₁] at hloops
      have hstop : position + (3 + body.codeLength (scope.table.declareIndex index) + 7) =
          position + 3 + body.codeLength (scope.table.declareIndex index) + 7 := by omega
      rw [loopSpans_forLoop, codeLength, hstop]
      exact hloaded.loopsIn_forLoop hloaded' hhead hloops htail

/-- The jumps of a module are those of the loops of its program. -/
theorem loopsIn_of_compile {program : Statement} {name : String} {m : CodeModule}
    (hcompile : program.compile name = .ok m) :
    m.LoopsIn 0 m.code.size (program.loopSpans [] 0) := by
  obtain ⟨directives, scope, hemission, hassemble⟩ := compile_eq_ok hcompile
  obtain ⟨⟨place, hstand⟩, hsize, hret, -, -⟩ := assemble_stands hassemble
  have hlength : Directives.extent directives = program.codeLength [] :=
    extent_emission rfl hemission
  have hloops : m.LoopsIn 0 (0 + program.codeLength []) (program.loopSpans [] 0) :=
    loopsIn_of_stand rfl hemission hstand
  rw [hlength] at hsize hret
  have hlast : m.LoopsIn (program.codeLength []) m.code.size [] := by
    rw [hsize]
    exact CodeModule.loopsIn_singleton hret rfl
  rw [Nat.zero_add] at hloops
  rw [← List.append_nil (program.loopSpans [] 0)]
  exact hloops.append hlast

end Statement

/-! ## The whole module -/

/-- The instruction jumps whatever is on the stack. -/
def Instruction.isJump : Instruction → Bool
  | jump _ => true
  | _ => false

theorem Instruction.isJump_iff {instruction : Instruction} :
    instruction.isJump = true ↔ ∃ target, instruction = .jump target := by
  cases instruction <;> simp [isJump]

/-- The instruction jumps or goes on, by what is on the stack. -/
def Instruction.isBranch : Instruction → Bool
  | branchIfLess _ => true
  | _ => false

theorem Instruction.isBranch_iff {instruction : Instruction} :
    instruction.isBranch = true ↔ ∃ target, instruction = .branchIfLess target := by
  cases instruction <;> simp [isBranch]

namespace CodeModule

variable {m : CodeModule} {spans : List LoopSpan} {span : LoopSpan} {i : Nat}
  {instruction : Instruction} {target : UInt32}

/-- The code has a jump where a loop has one, and nowhere else. -/
theorem LoopsIn.getElem?_iff (hloops : m.LoopsIn 0 m.code.size spans)
    (hlabel : instruction.label? ≠ none) :
    m.code[i]? = some instruction ↔ ∃ span ∈ spans, span.Edge i instruction := by
  by_cases hi : i < m.code.size
  · exact hloops.edges i instruction (Nat.zero_le i) hi hlabel
  · constructor
    · intro hcode
      obtain ⟨hlt, -⟩ := Array.getElem?_eq_some_iff.mp hcode
      exact absurd hlt hi
    · rintro ⟨span, hspan, hedge⟩
      exact absurd (hloops.bounds_of_edge hspan hedge).2 hi

theorem LoopsIn.jump_iff (hloops : m.LoopsIn 0 m.code.size spans) :
    m.code[i]? = some (.jump target) ↔ ∃ span ∈ spans, span.jump = i ∧ target = span.entry := by
  have hlabel : (Instruction.jump target).label? ≠ none := nofun
  simp only [hloops.getElem?_iff hlabel, LoopSpan.Edge.jump_iff]

theorem LoopsIn.branchIfLess_iff (hloops : m.LoopsIn 0 m.code.size spans) :
    m.code[i]? = some (.branchIfLess target) ↔
      ∃ span ∈ spans, span.branch = i ∧ target = span.back := by
  have hlabel : (Instruction.branchIfLess target).label? ≠ none := nofun
  simp only [hloops.getElem?_iff hlabel, LoopSpan.Edge.branchIfLess_iff]

/-- Two loops are the same, or one is inside or in front of the other. -/
theorem LoopsIn.related {start stop : Nat} (hloops : m.LoopsIn start stop spans)
    {a b : LoopSpan} (ha : a ∈ spans) (hb : b ∈ spans) :
    a = b ∨ (a.Encloses b ∨ a.Precedes b) ∨ b.Encloses a ∨ b.Precedes a := by
  exact List.Pairwise.forall_of_forall_of_flip
    (R := fun a b => a = b ∨ (a.Encloses b ∨ a.Precedes b) ∨ b.Encloses a ∨ b.Precedes a)
    (fun _ _ => .inl rfl) (hloops.nested.imp fun h => .inr (.inl h))
    (hloops.nested.imp fun h => .inr (.inr h)) ha hb

/-- No two loops have their jumps, or their branches, in one place. -/
theorem LoopsIn.nodup {start stop : Nat} (hloops : m.LoopsIn start stop spans) :
    (spans.map LoopSpan.jump).Nodup ∧ (spans.map LoopSpan.branch).Nodup := by
  have hne : spans.Pairwise fun a b => a.jump ≠ b.jump ∧ a.branch ≠ b.branch := by
    refine hloops.nested.imp_of_mem fun {a b} ha hb hrelated => ?_
    have hfirst := hloops.inside a ha
    have hsecond := hloops.inside b hb
    rcases hrelated with ⟨hjump, hbranch⟩ | hprecedes
    · omega
    · have hprecedes : a.branch < b.jump := hprecedes
      omega
  exact ⟨List.pairwise_map.mpr (hne.imp And.left), List.pairwise_map.mpr (hne.imp And.right)⟩

/-- Instructions of a kind that each loop has once, and nothing else has, are as many as the
loops. -/
theorem countP_eq_length {p : Instruction → Bool} {position : LoopSpan → Nat}
    (hnodup : (spans.map position).Nodup)
    (hposition : ∀ i, (∃ instruction, m.code[i]? = some instruction ∧ p instruction = true) ↔
      ∃ span ∈ spans, position span = i) : m.code.toList.countP p = spans.length := by
  have hperm : (m.code.toList.findIdxs p).Perm (spans.map position) := by
    refine (List.perm_ext_iff_of_nodup List.nodup_findIdxs hnodup).mpr fun i => ?_
    rw [List.mem_findIdxs_iff_exists_getElem_pos, List.mem_map, ← hposition]
    simp [Array.getElem?_eq_some_iff]
  rw [← List.length_findIdxs, hperm.length_eq, List.length_map]

theorem LoopsIn.countP_isJump (hloops : m.LoopsIn 0 m.code.size spans) :
    m.code.toList.countP Instruction.isJump = spans.length := by
  refine countP_eq_length hloops.nodup.1 fun i => ⟨?_, ?_⟩
  · rintro ⟨instruction, hcode, hjump⟩
    obtain ⟨target, rfl⟩ := Instruction.isJump_iff.mp hjump
    obtain ⟨span, hspan, hi, -⟩ := hloops.jump_iff.mp hcode
    exact ⟨span, hspan, hi⟩
  · rintro ⟨span, hspan, hi⟩
    exact ⟨_, hloops.jump_iff.mpr ⟨span, hspan, hi, rfl⟩, rfl⟩

theorem LoopsIn.countP_isBranch (hloops : m.LoopsIn 0 m.code.size spans) :
    m.code.toList.countP Instruction.isBranch = spans.length := by
  refine countP_eq_length hloops.nodup.2 fun i => ⟨?_, ?_⟩
  · rintro ⟨instruction, hcode, hbranch⟩
    obtain ⟨target, rfl⟩ := Instruction.isBranch_iff.mp hbranch
    obtain ⟨span, hspan, hi, -⟩ := hloops.branchIfLess_iff.mp hcode
    exact ⟨span, hspan, hi⟩
  · rintro ⟨span, hspan, hi⟩
    exact ⟨_, hloops.branchIfLess_iff.mpr ⟨span, hspan, hi, rfl⟩, rfl⟩

/-! ## Targets as positions -/

theorem LoopsIn.toNat_targets (hloops : m.LoopsIn 0 m.code.size spans)
    (hsize : m.code.size ≤ UInt32.size) (hspan : span ∈ spans) :
    span.entry.toNat = span.branch - 2 ∧ span.back.toNat = span.jump + 1 := by
  have hinside := hloops.inside span hspan
  constructor
  · exact UInt32.toNat_ofNat_of_lt' (by omega)
  · exact UInt32.toNat_ofNat_of_lt' (by omega)

/-- An instruction that jumps is the jump or the branch of a loop: the jump goes forward, the
branch goes back, and both stay in the loop. -/
theorem LoopsIn.exists_span (hloops : m.LoopsIn 0 m.code.size spans)
    (hsize : m.code.size ≤ UInt32.size) (hcode : m.code[i]? = some instruction)
    (hlabel : instruction.label? = some target) :
    ∃ span ∈ spans,
      (instruction = .jump target ∧ i = span.jump ∧ target.toNat = span.branch - 2) ∨
      (instruction = .branchIfLess target ∧ i = span.branch ∧ target.toNat = span.jump + 1) := by
  obtain ⟨span, hspan, hedge⟩ := (hloops.getElem?_iff (by simp [hlabel])).mp hcode
  obtain ⟨hentry, hback⟩ := hloops.toNat_targets hsize hspan
  refine ⟨span, hspan, ?_⟩
  cases hedge with
  | jump =>
      obtain rfl := Option.some.inj hlabel
      exact .inl ⟨rfl, rfl, hentry⟩
  | branch =>
      obtain rfl := Option.some.inj hlabel
      exact .inr ⟨rfl, rfl, hback⟩

/-- A jump enters no loop and leaves none. -/
theorem LoopsIn.covers_iff (hloops : m.LoopsIn 0 m.code.size spans)
    (hsize : m.code.size ≤ UInt32.size) (hcode : m.code[i]? = some instruction)
    (hlabel : instruction.label? = some target) (hspan : span ∈ spans) :
    span.Covers i ↔ span.Covers target.toNat := by
  obtain ⟨own, hown, hedge⟩ := hloops.exists_span hsize hcode hlabel
  have hinside := hloops.inside own hown
  have hinside' := hloops.inside span hspan
  -- Both ends of the jump are in its own loop, and not where another loop could be in it.
  have hends : own.jump ≤ i ∧ i ≤ own.branch ∧ own.jump < target.toNat + 1 ∧
      target.toNat ≤ own.branch ∧ (i ≤ own.jump + 1 ∨ own.branch ≤ i + 2) ∧
      (target.toNat ≤ own.jump + 1 ∨ own.branch ≤ target.toNat + 2) := by
    rcases hedge with ⟨-, hi, htarget⟩ | ⟨-, hi, htarget⟩ <;> omega
  simp only [LoopSpan.Covers]
  rcases hloops.related hown hspan with rfl | (hrelated | hrelated) | hrelated | hrelated
  · omega
  all_goals
    simp only [LoopSpan.Encloses, LoopSpan.Precedes] at hrelated
    omega

/-- What leads back is a branch. -/
theorem LoopsIn.le_iff (hloops : m.LoopsIn 0 m.code.size spans)
    (hsize : m.code.size ≤ UInt32.size) (hcode : m.code[i]? = some instruction)
    (hlabel : instruction.label? = some target) :
    target.toNat ≤ i ↔ instruction = .branchIfLess target := by
  obtain ⟨span, hspan, hedge⟩ := hloops.exists_span hsize hcode hlabel
  have hinside := hloops.inside span hspan
  rcases hedge with ⟨rfl, hi, htarget⟩ | ⟨rfl, hi, htarget⟩
  · simp only [reduceCtorEq, iff_false]
    omega
  · simp only [iff_true]
    omega

/-- A step goes on at the next position or stays inside and outside the same loops, and it
goes back at a branch only. -/
theorem LoopsIn.step {state state' : MachineState} (hloops : m.LoopsIn 0 m.code.size spans)
    (hsize : m.code.size ≤ UInt32.size) (hleads : (m.step state).LeadsTo state') :
    state'.position = state.position + 1 ∨
      (∀ span ∈ spans, span.Covers state.position ↔ span.Covers state'.position) ∧
        (state'.position ≤ state.position →
          m.code[state.position]? = some (.branchIfLess (UInt32.ofNat state'.position))) := by
  obtain ⟨instruction, hcode, hexecutes⟩ := executes_of_leadsTo hleads
  rcases hexecutes.position_eq hleads with ⟨hnext, -⟩ | ⟨target, hlabel, hposition, -⟩
  · exact .inl hnext
  · right
    rw [hposition, UInt32.ofNat_toNat]
    constructor
    · exact fun span hspan => hloops.covers_iff hsize hcode hlabel hspan
    · intro hback
      rw [hcode, (hloops.le_iff hsize hcode hlabel).mp hback]

end CodeModule

namespace Statement

/-- The loops of a compiled program are properly nested in its code.  For each of them there
is one jump and one branch, the branch three instructions or more after the jump; the jump
goes to two instructions in front of the branch, and the branch to the one behind the jump.
Of two loops one is in the body of the other or in front of it.  Where positions fit into
targets, no jump enters or leaves a loop, and only branches lead back, in the code as in every
step of the machine. -/
theorem compile_loops_nest {program : Statement} {name : String} {m : CodeModule}
    (hcompile : program.compile name = .ok m) :
    (program.loopSpans [] 0).length = program.loops ∧
      m.code.toList.countP Instruction.isJump = program.loops ∧
      m.code.toList.countP Instruction.isBranch = program.loops ∧
      (∀ i target, m.code[i]? = some (.jump target) ↔
        ∃ span ∈ program.loopSpans [] 0, span.jump = i ∧ target = span.entry) ∧
      (∀ i target, m.code[i]? = some (.branchIfLess target) ↔
        ∃ span ∈ program.loopSpans [] 0, span.branch = i ∧ target = span.back) ∧
      (∀ span ∈ program.loopSpans [] 0, span.jump + 3 ≤ span.branch) ∧
      (program.loopSpans [] 0).Pairwise (fun a b => a.Encloses b ∨ a.Precedes b) ∧
      (m.code.size ≤ UInt32.size →
        (∀ span ∈ program.loopSpans [] 0,
          span.entry.toNat = span.branch - 2 ∧ span.back.toNat = span.jump + 1) ∧
        (∀ i instruction target, m.code[i]? = some instruction →
          instruction.label? = some target →
          (∀ span ∈ program.loopSpans [] 0, span.Covers i ↔ span.Covers target.toNat) ∧
            (target.toNat ≤ i ↔ instruction = .branchIfLess target)) ∧
        ∀ state state', (m.step state).LeadsTo state' →
          state'.position = state.position + 1 ∨
            (∀ span ∈ program.loopSpans [] 0,
              span.Covers state.position ↔ span.Covers state'.position) ∧
            (state'.position ≤ state.position →
              m.code[state.position]? =
                some (.branchIfLess (UInt32.ofNat state'.position)))) := by
  have hloops := loopsIn_of_compile hcompile
  have hlength := program.length_loopSpans [] 0
  refine ⟨hlength, hloops.countP_isJump.trans hlength, hloops.countP_isBranch.trans hlength,
    fun i target => hloops.jump_iff, fun i target => hloops.branchIfLess_iff,
    fun span hspan => (hloops.inside span hspan).2.1, hloops.nested, fun hsize => ⟨?_, ?_, ?_⟩⟩
  · exact fun span hspan => hloops.toNat_targets hsize hspan
  · intro i instruction target hcode hlabel
    exact ⟨fun span hspan => hloops.covers_iff hsize hcode hlabel hspan,
      hloops.le_iff hsize hcode hlabel⟩
  · exact fun state state' hleads => hloops.step hsize hleads

end Statement

/-- A loop inside a loop, and a loop after both:
`for i = 0 to 2 do for j = i to 3 do print j end; print i end; for j = 0 to 1 do print j end`. -/
def Statement.threeLoops : Statement :=
  .sequence
    (.forLoop "i" (.integer 0 ⟨8, 9⟩) (.integer 2 ⟨13, 14⟩)
      (.sequence
        (.forLoop "j" (.name "i" ⟨26, 27⟩) (.integer 3 ⟨31, 32⟩)
          (.print (.name "j" ⟨42, 43⟩) ⟨36, 43⟩) ⟨18, 47⟩)
        (.print (.name "i" ⟨55, 56⟩) ⟨49, 56⟩) ⟨18, 56⟩) ⟨0, 60⟩)
    (.forLoop "j" (.integer 0 ⟨70, 71⟩) (.integer 1 ⟨75, 76⟩)
      (.print (.name "j" ⟨86, 87⟩) ⟨80, 87⟩) ⟨62, 91⟩) ⟨0, 91⟩

/-- The module of that program. -/
def CodeModule.threeLoops : CodeModule where
  name := "threeLoops"
  entry := "main"
  locals := #[.int, .int]
  constants := #[.int 0, .int 1, .int 3, .int 2]
  code := #[.constant 0, .storeLocal 0, .jump 23, .loadLocal 0, .storeLocal 1, .jump 13,
    .loadLocal 1, .intToString, .callHost .writeLine, .loadLocal 1, .constant 1, .addInt,
    .storeLocal 1, .loadLocal 1, .constant 2, .branchIfLess 6, .loadLocal 0, .intToString,
    .callHost .writeLine, .loadLocal 0, .constant 1, .addInt, .storeLocal 0, .loadLocal 0,
    .constant 3, .branchIfLess 3, .constant 0, .storeLocal 1, .jump 36, .loadLocal 1,
    .intToString, .callHost .writeLine, .loadLocal 1, .constant 1, .addInt, .storeLocal 1,
    .loadLocal 1, .constant 1, .branchIfLess 29, .ret]

theorem Statement.threeLoops_compile_loops_nest :
    threeLoops.compile "threeLoops" = .ok .threeLoops ∧
      threeLoops.loopSpans [] 0 = [⟨2, 25⟩, ⟨5, 15⟩, ⟨28, 38⟩] ∧
      CodeModule.threeLoops.code.toList.countP Instruction.isJump = 3 ∧
      CodeModule.threeLoops.code.size ≤ UInt32.size ∧
      ∀ state state', (CodeModule.threeLoops.step state).LeadsTo state' →
        state'.position = state.position + 1 ∨
          (∀ span ∈ threeLoops.loopSpans [] 0,
            span.Covers state.position ↔ span.Covers state'.position) ∧
          (state'.position ≤ state.position →
            CodeModule.threeLoops.code[state.position]? =
              some (.branchIfLess (UInt32.ofNat state'.position))) := by
  have hcompile : threeLoops.compile "threeLoops" = .ok .threeLoops :=
    eq_ok_of_toOption (by decide +kernel)
  have hsize : CodeModule.threeLoops.code.size ≤ UInt32.size := by decide
  obtain ⟨-, hcount, -, -, -, -, -, htargets⟩ := compile_loops_nest hcompile
  obtain ⟨-, -, hsteps⟩ := htargets hsize
  exact ⟨hcompile, rfl, hcount, hsize, hsteps⟩

end SlotLang
