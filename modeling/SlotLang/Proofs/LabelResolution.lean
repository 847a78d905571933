import Mathlib.Data.List.Forall2
import Mathlib.Data.List.Induction
import SlotLang.Proofs.NestedLabels

/-!
# What labels stand for

Directives may define, mark and name labels in any order and with any numbers.  What
becomes of them is said here without the assembler: by the marks that come before a mark,
by the marks that a jump finds in the whole list, and by the number of instructions in
front of a mark.

* `Directives.Marks`, `Directives.Misplaces` — marks that are in order, and wrong ones.
* `Directives.MarkedWell`, `Directives.Linked` — no wrong mark, and no jump without one.
* `Directive.Becomes` — the instruction of a directive, with its label resolved.
* `Assembler.Tracks` — what the assembler knows of labels as long as no mark was wrong.
* `assemble_resolves` — the error or the code of any list of directives.
-/

namespace SlotLang

namespace Directive

/-- Whether a directive emits an instruction. -/
def emits : Directive → Bool
  | declareLocal _ => false
  | defineLabel => false
  | markLabel _ => false
  | _ => true

/-- The label that a directive jumps to. -/
def target? : Directive → Option UInt32
  | jump label => some label
  | branchIfLess label => some label
  | _ => none

end Directive

namespace Directives

/-- The number of labels that the directives define. -/
def labelCount (directives : List Directive) : Nat :=
  directives.count .defineLabel

/-- The directives mark the label, and they have defined it by then. -/
def Marks (directives : List Directive) (label : UInt32) : Prop :=
  ∃ before after, directives = before ++ .markLabel label :: after ∧
    label.toNat < labelCount before

/-- After the given directives, a mark of the label is wrong. -/
inductive Misplaces (before : List Directive) (label : UInt32) : AssemblyError → Prop
  | unknown (hundefined : labelCount before ≤ label.toNat) :
      Misplaces before label (.unknownLabel label)
  | twice (hmarked : Marks before label) : Misplaces before label (.labelMarkedTwice label)

/-- None of the marks is wrong. -/
def MarkedWell (directives : List Directive) : Prop :=
  ∀ before label after error, directives = before ++ .markLabel label :: after →
    ¬ Misplaces before label error

/-- The labels that some of the directives jump to are marked by the others. -/
def Linked (all directives : List Directive) : Prop :=
  ∀ directive ∈ directives, ∀ label, directive.target? = some label → Marks all label

/-- A mark of the label stands after the given number of instructions. -/
def PlacedAt (directives : List Directive) (label : UInt32) (position : Nat) : Prop :=
  ∃ before after, directives = before ++ .markLabel label :: after ∧ extent before = position

end Directives

/-- The instruction that a directive becomes in a module with the given constants: labels
are replaced by the places of their marks among all the directives. -/
inductive Directive.Becomes (all : List Directive) (constants : Array Value) :
    Directive → Instruction → Prop
  | loadConstant {constant : Value} {index : UInt32}
      (hconstant : constants[index.toNat]? = some constant) :
      Becomes all constants (.loadConstant constant) (.constant index)
  | loadLocal (slot : UInt32) : Becomes all constants (.loadLocal slot) (.loadLocal slot)
  | storeLocal (slot : UInt32) : Becomes all constants (.storeLocal slot) (.storeLocal slot)
  | addInt : Becomes all constants .addInt .addInt
  | callHost (function : HostFunction) :
      Becomes all constants (.callHost function) (.callHost function)
  | intToString : Becomes all constants .intToString .intToString
  | jump {label target : UInt32} (hplaced : Directives.PlacedAt all label target.toNat) :
      Becomes all constants (.jump label) (.jump target)
  | branchIfLess {label target : UInt32} (hplaced : Directives.PlacedAt all label target.toNat) :
      Becomes all constants (.branchIfLess label) (.branchIfLess target)

/-! ## One more directive -/

namespace Directives

variable {directives : List Directive} {directive : Directive} {label : UInt32}

/-- A list that ends in another directive is split inside, or in front of the last. -/
theorem concat_eq_append_cons {before after : List Directive} {middle : Directive} :
    directives ++ [directive] = before ++ middle :: after ↔
      (∃ front, after = front ++ [directive] ∧ directives = before ++ middle :: front) ∨
        after = [] ∧ directives = before ∧ directive = middle := by
  constructor
  · intro hsplit
    rcases List.eq_nil_or_concat after with rfl | ⟨front, last, rfl⟩
    · obtain ⟨hbefore, hmiddle⟩ := List.append_inj' hsplit rfl
      cases hmiddle
      exact .inr ⟨rfl, hbefore, rfl⟩
    · rw [List.concat_eq_append, ← List.cons_append, ← List.append_assoc] at hsplit
      obtain ⟨hbefore, hlast⟩ := List.append_inj' hsplit rfl
      cases hlast
      exact .inl ⟨front, List.concat_eq_append, hbefore⟩
  · rintro (⟨front, rfl, rfl⟩ | ⟨rfl, rfl, rfl⟩)
    · simp
    · rfl

theorem labelCount_append (first second : List Directive) :
    labelCount (first ++ second) = labelCount first + labelCount second :=
  List.count_append

theorem marks_concat :
    Marks (directives ++ [directive]) label ↔
      Marks directives label ∨
        directive = .markLabel label ∧ label.toNat < labelCount directives := by
  constructor
  · rintro ⟨before, after, hsplit, hdefined⟩
    rcases concat_eq_append_cons.mp hsplit with ⟨front, -, hinside⟩ | ⟨-, rfl, hlast⟩
    · exact .inl ⟨before, front, hinside, hdefined⟩
    · exact .inr ⟨hlast, hdefined⟩
  · rintro (⟨before, after, rfl, hdefined⟩ | ⟨rfl, hdefined⟩)
    · exact ⟨before, after ++ [directive], by simp, hdefined⟩
    · exact ⟨directives, [], rfl, hdefined⟩

theorem markedWell_concat :
    MarkedWell (directives ++ [directive]) ↔
      MarkedWell directives ∧
        ∀ label error, directive = .markLabel label → ¬ Misplaces directives label error := by
  constructor
  · intro hwell
    refine ⟨fun before label after error hsplit => ?_, fun label error hlast => ?_⟩
    · exact hwell before label (after ++ [directive]) error (by simp [hsplit])
    · exact hwell directives label [] error (by rw [hlast])
  · rintro ⟨hwell, hlast⟩ before label after error hsplit
    rcases concat_eq_append_cons.mp hsplit with ⟨front, -, hinside⟩ | ⟨-, rfl, hmark⟩
    · exact hwell before label front error hinside
    · exact hlast label error hmark

theorem markedWell_nil : MarkedWell [] := by
  intro before label after error hsplit
  simp at hsplit

/-- Directives that go wrong do so at a first one. -/
theorem exists_first {good : List Directive → Prop} (hnil : good []) (hbad : ¬ good directives) :
    ∃ before directive after, directives = before ++ directive :: after ∧ good before ∧
      ¬ good (before ++ [directive]) := by
  induction directives using List.reverseRecOn with
  | nil => exact absurd hnil hbad
  | append_singleton front last ih =>
      by_cases hfront : good front
      · exact ⟨front, last, [], rfl, hfront, hbad⟩
      · obtain ⟨before, directive, after, rfl, hbefore, hwrong⟩ := ih hfront
        exact ⟨before, directive, after ++ [last], by simp, hbefore, hwrong⟩

theorem exists_first_misplaced (hwrong : ¬ MarkedWell directives) :
    ∃ before label after error, directives = before ++ .markLabel label :: after ∧
      MarkedWell before ∧ Misplaces before label error := by
  obtain ⟨before, directive, after, rfl, hbefore, hlast⟩ := exists_first markedWell_nil hwrong
  rw [markedWell_concat] at hlast
  push Not at hlast
  obtain ⟨label, error, rfl, hmisplaces⟩ := hlast hbefore
  exact ⟨before, label, after, error, rfl, hbefore, hmisplaces⟩

theorem exists_first_unlinked {all : List Directive} (hunlinked : ¬ Linked all directives) :
    ∃ before directive after label, directives = before ++ directive :: after ∧
      Linked all before ∧ directive.target? = some label ∧ ¬ Marks all label := by
  have hnil : Linked all [] := List.forall_mem_nil _
  obtain ⟨before, directive, after, rfl, hbefore, hlast⟩ := exists_first hnil hunlinked
  have hjump : ∃ label, directive.target? = some label ∧ ¬ Marks all label := by
    by_contra hnone
    push Not at hnone
    exact hlast (List.forall_mem_append.mpr ⟨hbefore, List.forall_mem_singleton.mpr hnone⟩)
  obtain ⟨label, htarget, hmarks⟩ := hjump
  exact ⟨before, directive, after, label, rfl, hbefore, htarget, hmarks⟩

end Directives

/-! ## Labels in the assembler -/

namespace Assembler

variable {a : Assembler} {directives : List Directive} {directive : Directive}

/-- The state after directives without a wrong mark: as many labels as were defined, and
places for those that were marked. -/
structure Tracks (a : Assembler) (directives : List Directive) : Prop where
  fault : a.fault = none
  size_labels : a.labels.size = Directives.labelCount directives
  marked : ∀ label : UInt32,
    (∃ target, a.labels[label.toNat]? = some (some target)) ↔ Directives.Marks directives label

theorem tracks_empty : Tracks empty [] where
  fault := rfl
  size_labels := rfl
  marked label := by simp [empty, Directives.Marks]

/-- A directive that neither defines nor marks a label changes nothing about labels. -/
theorem Tracks.of_labels {b : Assembler} (htracks : a.Tracks directives)
    (hfault : b.fault = a.fault) (hlabels : b.labels = a.labels)
    (hdefine : directive ≠ .defineLabel) (hmark : ∀ label, directive ≠ .markLabel label) :
    b.Tracks (directives ++ [directive]) where
  fault := hfault.trans htracks.fault
  size_labels := by
    rw [hlabels, htracks.size_labels, Directives.labelCount_append]
    simp [Directives.labelCount, hdefine]
  marked label := by
    rw [hlabels, htracks.marked, Directives.marks_concat]
    simp [hmark]

theorem Tracks.defineLabel (htracks : a.Tracks directives) :
    (a.apply .defineLabel).Tracks (directives ++ [.defineLabel]) where
  fault := htracks.fault
  size_labels := by
    rw [Directives.labelCount_append]
    simp [apply, htracks.size_labels, Directives.labelCount]
  marked label := by
    rw [Directives.marks_concat, ← htracks.marked]
    simp only [apply, Array.getElem?_push]
    by_cases hnew : label.toNat = a.labels.size
    · simp [hnew]
    · simp [hnew]

/-- The error of a mark is that of the wrong use of its label. -/
theorem Tracks.placeLabel_of_misplaces (htracks : a.Tracks directives) {label : UInt32}
    {error : AssemblyError} (hmisplaces : Directives.Misplaces directives label error) :
    a.placeLabel label = a.blame error := by
  cases hmisplaces with
  | unknown hundefined =>
      have hnone : a.labels[label.toNat]? = none := by
        rw [Array.getElem?_eq_none_iff, htracks.size_labels]
        exact hundefined
      simp [placeLabel, hnone]
  | twice hmarked =>
      obtain ⟨target, htarget⟩ := (htracks.marked label).mpr hmarked
      simp [placeLabel, htarget]

theorem Tracks.markLabel (htracks : a.Tracks directives) {label : UInt32}
    (hwell : ∀ error, ¬ Directives.Misplaces directives label error) :
    (a.apply (.markLabel label)).Tracks (directives ++ [.markLabel label]) := by
  have hdefined : label.toNat < Directives.labelCount directives :=
    Nat.lt_of_not_le fun hundefined => hwell _ (.unknown hundefined)
  have hbound : label.toNat < a.labels.size := by
    rw [htracks.size_labels]
    exact hdefined
  have hfree : a.labels[label.toNat]? = some none := by
    cases hlabel : a.labels[label.toNat]? with
    | none => exact absurd hbound (Nat.not_lt.mpr (Array.getElem?_eq_none_iff.mp hlabel))
    | some place =>
        cases place with
        | none => rfl
        | some target =>
            exact absurd (.twice ((htracks.marked label).mp ⟨target, hlabel⟩)) (hwell _)
  have hplace : a.placeLabel label =
      { a with
        labels := a.labels.setIfInBounds label.toNat (some (UInt32.ofNat a.code.size)) } := by
    simp [placeLabel, hfree]
  rw [apply, hplace]
  refine ⟨htracks.fault, ?_, fun other => ?_⟩
  · rw [Array.size_setIfInBounds, htracks.size_labels, Directives.labelCount_append]
    simp [Directives.labelCount]
  · rw [Directives.marks_concat, ← htracks.marked, Array.getElem?_setIfInBounds]
    by_cases hsame : label = other
    · subst hsame
      simp [hbound, hdefined]
    · have hne : label.toNat ≠ other.toNat := fun heq => hsame (UInt32.toNat_inj.mp heq)
      simp [hne, hsame]

theorem Tracks.apply (htracks : a.Tracks directives)
    (hwell : Directives.MarkedWell (directives ++ [directive])) :
    (a.apply directive).Tracks (directives ++ [directive]) := by
  obtain ⟨-, hlast⟩ := Directives.markedWell_concat.mp hwell
  cases directive with
  | defineLabel => exact htracks.defineLabel
  | markLabel label => exact htracks.markLabel fun error => hlast label error rfl
  | loadConstant constant =>
      obtain ⟨index, hload, -⟩ := exists_index_of_loadConstant (a := a) constant
      rw [Assembler.apply, hload]
      exact htracks.of_labels rfl rfl (by simp) (by simp)
  | _ => exact htracks.of_labels rfl rfl (by simp) (by simp)

theorem tracks_applyAll (hwell : Directives.MarkedWell directives) :
    (empty.applyAll directives).Tracks directives := by
  induction directives using List.reverseRecOn with
  | nil => exact tracks_empty
  | append_singleton front last ih =>
      rw [applyAll_append]
      exact (ih (Directives.markedWell_concat.mp hwell).1).apply hwell

/-! ## Wrong marks -/

/-- A fault that was remembered is the one that is reported. -/
theorem fault_apply_of_some {error : AssemblyError} (hfault : a.fault = some error)
    (directive : Directive) : (a.apply directive).fault = some error := by
  cases directive with
  | loadConstant constant =>
      obtain ⟨index, hload, -⟩ := exists_index_of_loadConstant (a := a) constant
      rw [Assembler.apply, hload]
      exact hfault
  | markLabel label =>
      obtain ⟨-, hplace⟩ | ⟨other, hplace⟩ := a.placeLabel_cases label
      · rw [Assembler.apply, hplace]
        exact hfault
      · rw [Assembler.apply, hplace, blame, hfault]
        rfl
  | _ => exact hfault

theorem fault_applyAll_of_some {error : AssemblyError} (hfault : a.fault = some error)
    (directives : List Directive) : (a.applyAll directives).fault = some error := by
  induction directives generalizing a with
  | nil => exact hfault
  | cons directive rest ih => exact ih (fault_apply_of_some hfault directive)

theorem fault_of_misplaces {before after : List Directive} {label : UInt32} {error : AssemblyError}
    (hbefore : Directives.MarkedWell before)
    (hmisplaces : Directives.Misplaces before label error) :
    (empty.applyAll (before ++ .markLabel label :: after)).fault = some error := by
  have htracks := tracks_applyAll hbefore
  rw [applyAll_append]
  refine fault_applyAll_of_some (a := Assembler.apply _ _) ?_ after
  rw [Assembler.apply, htracks.placeLabel_of_misplaces hmisplaces, blame, htracks.fault]
  rfl

/-! ## Jumps -/

/-- The labels that the code names are those that the directives jump to, in order. -/
theorem labels_code_apply (a : Assembler) (directive : Directive) :
    (a.apply directive).code.toList.filterMap Instruction.label? =
      a.code.toList.filterMap Instruction.label? ++ directive.target?.toList := by
  cases directive with
  | loadConstant constant =>
      obtain ⟨index, hload, -⟩ := exists_index_of_loadConstant (a := a) constant
      rw [Assembler.apply, hload]
      simp [emit, Instruction.label?, Directive.target?]
  | markLabel label =>
      obtain ⟨-, hplace⟩ | ⟨error, hplace⟩ := a.placeLabel_cases label
      · simp [Assembler.apply, hplace, Directive.target?]
      · simp [Assembler.apply, hplace, blame, Directive.target?]
  | _ => simp [Assembler.apply, emit, Instruction.label?, Directive.target?]

theorem labels_code_applyAll (a : Assembler) (directives : List Directive) :
    (a.applyAll directives).code.toList.filterMap Instruction.label? =
      a.code.toList.filterMap Instruction.label? ++ directives.filterMap Directive.target? := by
  induction directives generalizing a with
  | nil => simp [applyAll]
  | cons directive rest ih =>
      have hrest := ih (a.apply directive)
      rw [labels_code_apply] at hrest
      cases htarget : directive.target? with
      | none => simpa [applyAll, htarget] using hrest
      | some label => simpa [applyAll, htarget] using hrest

theorem link_of_unplaced {instruction : Instruction} {label : UInt32}
    (hlabel : instruction.label? = some label)
    (hunplaced : ¬ ∃ target, a.labels[label.toNat]? = some (some target)) :
    a.link instruction = .error (.unmarkedLabel label) := by
  have htarget : a.target label = .error (.unmarkedLabel label) := by
    unfold target
    split
    next target hplaced => exact absurd ⟨target, hplaced⟩ hunplaced
    next => rfl
  cases instruction with
  | jump found =>
      cases hlabel
      rw [link, htarget]
      rfl
  | branchIfLess found =>
      cases hlabel
      rw [link, htarget]
      rfl
  | _ => cases hlabel

/-- Linking stops at the first label without a place. -/
theorem mapM_link_of_unplaced {code : List Instruction} {placed others : List UInt32}
    {label : UInt32} (hlabels : code.filterMap Instruction.label? = placed ++ label :: others)
    (hplaced : ∀ label ∈ placed, ∃ target, a.labels[label.toNat]? = some (some target))
    (hunplaced : ¬ ∃ target, a.labels[label.toNat]? = some (some target)) :
    code.mapM a.link = .error (.unmarkedLabel label) := by
  induction code generalizing placed with
  | nil => simp at hlabels
  | cons first rest ih =>
      rw [List.mapM_cons]
      cases hfirst : first.label? with
      | none =>
          have hlink : ∃ linked, a.link first = .ok linked :=
            exists_link (by rw [hfirst]; nofun)
          obtain ⟨linked, hlinked⟩ := hlink
          rw [List.filterMap_cons_none hfirst] at hlabels
          rw [hlinked, ih hlabels hplaced]
          rfl
      | some found =>
          rw [List.filterMap_cons_some hfirst] at hlabels
          cases placed with
          | nil =>
              obtain ⟨rfl, -⟩ := List.cons.inj hlabels
              rw [link_of_unplaced hfirst hunplaced]
              rfl
          | cons head placed =>
              obtain ⟨rfl, hrest⟩ := List.cons.inj hlabels
              obtain ⟨hhead, hplaced⟩ := List.forall_mem_cons.mp hplaced
              obtain ⟨linked, hlinked⟩ := exists_link fun label hlabel => by
                rw [hfirst] at hlabel
                cases hlabel
                exact hhead
              rw [hlinked, ih hrest hplaced]
              rfl

theorem finish_of_fault {error : AssemblyError} (hfault : a.fault = some error)
    (name entry : String) : a.finish name entry = .error error := by
  rw [finish, hfault]

theorem finish_of_unlinked {error : AssemblyError} (hfault : a.fault = none)
    (hcode : a.code.toList.mapM a.link = .error error) (name entry : String) :
    a.finish name entry = .error error := by
  rw [finish, hfault]
  simp only [hcode]
  rfl

end Assembler

/-! ## The code of a module -/

section

variable {m : CodeModule} {place : UInt32 → Option UInt32} {all directives : List Directive}

theorem Directive.width_of_emits {directive : Directive} (hemits : directive.emits = true) :
    directive.width = 1 := by
  cases directive with
  | declareLocal type => cases hemits
  | defineLabel => cases hemits
  | markLabel label => cases hemits
  | _ => rfl

theorem Directive.width_of_not_emits {directive : Directive} (hemits : directive.emits = false) :
    directive.width = 0 := by
  cases directive with
  | declareLocal type => rfl
  | defineLabel => rfl
  | markLabel label => rfl
  | _ => cases hemits

/-- In a module where the directives stand, a label has the place of its mark. -/
theorem Directives.Stand.placedAt (hstand : Directives.Stand m place 0 all)
    (hcode : Directives.extent all < UInt32.size) {label target : UInt32}
    (hmarks : Directives.Marks all label) (hplace : place label = some target) :
    Directives.PlacedAt all label target.toNat := by
  obtain ⟨before, after, rfl, -⟩ := hmarks
  obtain ⟨-, hmark, -⟩ := Directives.stand_append.mp hstand
  have htarget : UInt32.ofNat (Directives.extent before) = target := by
    rw [Directive.Stands, Nat.zero_add, hplace] at hmark
    exact (Option.some.inj hmark).symm
  rw [Directives.extent_append] at hcode
  refine ⟨before, after, rfl, ?_⟩
  rw [← htarget, UInt32.toNat_ofNat_of_lt' (by omega)]

/-- A directive that stands in a module and emits an instruction has become one there. -/
theorem Directive.Stands.exists_becomes {directive : Directive} {position : Nat}
    (hstands : directive.Stands m place position) (hemits : directive.emits = true)
    (hconstants : m.constants.size ≤ UInt32.size)
    (hplaced : ∀ label target, directive.target? = some label → place label = some target →
      Directives.PlacedAt all label target.toNat) :
    ∃ instruction, m.code[position]? = some instruction ∧
      directive.Becomes all m.constants instruction := by
  cases directive with
  | declareLocal type => cases hemits
  | defineLabel => cases hemits
  | markLabel label => cases hemits
  | loadConstant constant =>
      obtain ⟨index, hcode, hconstant⟩ := hstands
      obtain ⟨hindex, -⟩ := Array.getElem?_eq_some_iff.mp hconstant
      refine ⟨_, hcode, .loadConstant ?_⟩
      rw [UInt32.toNat_ofNat_of_lt' (by omega)]
      exact hconstant
  | loadLocal slot => exact ⟨_, hstands, .loadLocal slot⟩
  | storeLocal slot => exact ⟨_, hstands, .storeLocal slot⟩
  | addInt => exact ⟨_, hstands, .addInt⟩
  | callHost function => exact ⟨_, hstands, .callHost function⟩
  | intToString => exact ⟨_, hstands, .intToString⟩
  | jump label =>
      obtain ⟨target, hcode, hplace⟩ := hstands
      exact ⟨_, hcode, .jump (hplaced label target rfl hplace)⟩
  | branchIfLess label =>
      obtain ⟨target, hcode, hplace⟩ := hstands
      exact ⟨_, hcode, .branchIfLess (hplaced label target rfl hplace)⟩

/-- From a position on, the code of a module is made of what its directives become. -/
theorem Directives.Stand.exists_code {position : Nat}
    (hstand : Directives.Stand m place position directives)
    (hconstants : m.constants.size ≤ UInt32.size)
    (hplaced : ∀ directive ∈ directives, ∀ label target, directive.target? = some label →
      place label = some target → Directives.PlacedAt all label target.toNat) :
    ∃ code, m.code.toList.drop position =
        code ++ m.code.toList.drop (position + Directives.extent directives) ∧
      List.Forall₂ (Directive.Becomes all m.constants) (directives.filter Directive.emits)
        code := by
  induction directives generalizing position with
  | nil => exact ⟨[], rfl, .nil⟩
  | cons directive rest ih =>
      obtain ⟨hfirst, hrest⟩ := hstand
      obtain ⟨hplaced, hothers⟩ := List.forall_mem_cons.mp hplaced
      obtain ⟨code, hcode, hbecome⟩ := ih hrest hothers
      rw [Directives.extent, ← Nat.add_assoc]
      cases hemits : directive.emits with
      | false =>
          rw [Directive.width_of_not_emits hemits] at hcode ⊢
          rw [List.filter_cons_of_neg (by simp [hemits])]
          exact ⟨code, hcode, hbecome⟩
      | true =>
          obtain ⟨instruction, hget, hbecomes⟩ := hfirst.exists_becomes hemits hconstants hplaced
          rw [Directive.width_of_emits hemits] at hcode ⊢
          rw [List.filter_cons_of_pos hemits]
          obtain ⟨hlt, hinstruction⟩ := Array.getElem?_eq_some_iff.mp hget
          refine ⟨instruction :: code, ?_, .cons hbecomes hbecome⟩
          rw [List.cons_append, ← hcode, List.drop_eq_getElem_cons (by simpa using hlt)]
          simp [hinstruction]

theorem Directives.PlacedAt.le_extent {label : UInt32} {position : Nat}
    (hplaced : Directives.PlacedAt all label position) : position ≤ Directives.extent all := by
  obtain ⟨before, after, rfl, rfl⟩ := hplaced
  rw [Directives.extent_append]
  exact Nat.le_add_right _ _

theorem Directive.Becomes.target_le {constants : Array Value} {directive : Directive}
    {instruction : Instruction} (hbecomes : directive.Becomes all constants instruction)
    {target : UInt32} (htarget : instruction.label? = some target) :
    target.toNat ≤ Directives.extent all := by
  cases hbecomes with
  | jump hplaced =>
      cases htarget
      exact hplaced.le_extent
  | branchIfLess hplaced =>
      cases htarget
      exact hplaced.le_extent
  | _ => cases htarget

/-- No jump goes further than the return at the end. -/
theorem Directive.Becomes.targets_le {constants : Array Value} {code : List Instruction}
    (hbecome : List.Forall₂ (Directive.Becomes all constants) directives code) :
    ∀ instruction ∈ code, ∀ target, instruction.label? = some target →
      target.toNat ≤ Directives.extent all := by
  induction hbecome with
  | nil => nofun
  | cons hbecomes hrest ih => exact List.forall_mem_cons.mpr ⟨fun _ => hbecomes.target_le, ih⟩

end

/-- The directives of a module are its code, one instruction for each that emits one, with
labels replaced by places; and one return follows. -/
theorem assemble_becomes {name entry : String} {directives : List Directive} {m : CodeModule}
    (hcode : Directives.extent directives < UInt32.size)
    (hlinked : Directives.Linked directives directives)
    (hassemble : assemble name entry directives = .ok m) :
    ∃ code, m.code.toList = code ++ [.ret] ∧
      List.Forall₂ (Directive.Becomes directives m.constants)
        (directives.filter Directive.emits) code := by
  obtain ⟨⟨place, hstand⟩, hsize, hret, -, hpool⟩ := assemble_stands hassemble
  obtain ⟨code, hsplit, hbecome⟩ := hstand.exists_code (by omega)
    fun directive hmem label target htarget hplace =>
      hstand.placedAt hcode (hlinked directive hmem label htarget) hplace
  refine ⟨code, ?_, hbecome⟩
  obtain ⟨hlt, hlast⟩ := Array.getElem?_eq_some_iff.mp hret
  rw [List.drop_zero, Nat.zero_add, List.drop_eq_getElem_cons (by simpa using hlt),
    List.drop_eq_nil_of_le (by simp [hsize])] at hsplit
  simpa [hlast] using hsplit

/-! ## Any directives -/

theorem Directives.markedWell_iff {directives : List Directive} :
    MarkedWell directives ↔ (Assembler.empty.applyAll directives).fault = none := by
  constructor
  · exact fun hwell => (Assembler.tracks_applyAll hwell).fault
  · intro hfault
    by_contra hwrong
    obtain ⟨before, label, after, error, rfl, hbefore, hmisplaces⟩ :=
      exists_first_misplaced hwrong
    rw [Assembler.fault_of_misplaces hbefore hmisplaces] at hfault
    cases hfault

/-- The first jump without a mark decides the error, if all marks are in order. -/
theorem assemble_of_unlinked {before after : List Directive} {directive : Directive}
    {label : UInt32} (hwell : Directives.MarkedWell (before ++ directive :: after))
    (hbefore : Directives.Linked (before ++ directive :: after) before)
    (htarget : directive.target? = some label)
    (hunmarked : ¬ Directives.Marks (before ++ directive :: after) label) (name entry : String) :
    assemble name entry (before ++ directive :: after) = .error (.unmarkedLabel label) := by
  have htracks := Assembler.tracks_applyAll hwell
  have hlabels := Assembler.empty.labels_code_applyAll (before ++ directive :: after)
  rw [List.filterMap_append, List.filterMap_cons_some htarget] at hlabels
  refine Assembler.finish_of_unlinked htracks.fault
    (Assembler.mapM_link_of_unplaced hlabels ?_ ?_) name entry
  · intro found hfound
    obtain ⟨jump, hjump, hfound⟩ := List.mem_filterMap.mp hfound
    exact (htracks.marked found).mpr (hbefore jump hjump found hfound)
  · exact fun hplaced => hunmarked ((htracks.marked label).mp hplaced)

/-- Directives without a wrong mark and without a jump to nowhere make a module. -/
theorem exists_assemble_of_linked {directives : List Directive}
    (hwell : Directives.MarkedWell directives) (hlinked : Directives.Linked directives directives)
    (name entry : String) : ∃ m, assemble name entry directives = .ok m := by
  have htracks := Assembler.tracks_applyAll hwell
  have hlabels := Assembler.empty.labels_code_applyAll directives
  refine Assembler.exists_finish htracks.fault (fun instruction hmem label hlabel => ?_) name entry
  have hnamed : label ∈ directives.filterMap Directive.target? := by
    have hmem' := List.mem_filterMap.mpr ⟨instruction, hmem, hlabel⟩
    rw [hlabels] at hmem'
    exact hmem'
  obtain ⟨jump, hjump, htarget⟩ := List.mem_filterMap.mp hnamed
  exact (htracks.marked label).mpr (hlinked jump hjump label htarget)

/-- What assembling comes to for any list of directives.  The first mark of a label that is
not defined yet or has been marked before is the error; without one, the first jump to a
label that is not marked is the error; without one, the code is what the directives become,
in order, with a return at the end, and every jump goes to an index of it. -/
theorem assemble_resolves {directives : List Directive}
    (hcode : Directives.extent directives < UInt32.size) (name entry : String) :
    (¬ Directives.MarkedWell directives →
      ∃ before label after error, directives = before ++ .markLabel label :: after ∧
        Directives.MarkedWell before ∧ Directives.Misplaces before label error ∧
        assemble name entry directives = .error error) ∧
    (Directives.MarkedWell directives → ¬ Directives.Linked directives directives →
      ∃ before directive after label, directives = before ++ directive :: after ∧
        Directives.Linked directives before ∧ directive.target? = some label ∧
        ¬ Directives.Marks directives label ∧
        assemble name entry directives = .error (.unmarkedLabel label)) ∧
    (Directives.MarkedWell directives → Directives.Linked directives directives →
      ∃ m code, assemble name entry directives = .ok m ∧ m.code.toList = code ++ [.ret] ∧
        List.Forall₂ (Directive.Becomes directives m.constants)
          (directives.filter Directive.emits) code ∧
        ∀ target, .jump target ∈ m.code ∨ .branchIfLess target ∈ m.code →
          target.toNat < m.code.size) := by
  refine ⟨fun hwrong => ?_, fun hwell hunlinked => ?_, fun hwell hlinked => ?_⟩
  · obtain ⟨before, label, after, error, rfl, hbefore, hmisplaces⟩ :=
      Directives.exists_first_misplaced hwrong
    exact ⟨before, label, after, error, rfl, hbefore, hmisplaces,
      Assembler.finish_of_fault (Assembler.fault_of_misplaces hbefore hmisplaces) name entry⟩
  · obtain ⟨before, directive, after, label, hsplit, hbefore, htarget, hunmarked⟩ :=
      Directives.exists_first_unlinked hunlinked
    refine ⟨before, directive, after, label, hsplit, hbefore, htarget, hunmarked, ?_⟩
    subst hsplit
    exact assemble_of_unlinked hwell hbefore htarget hunmarked name entry
  · obtain ⟨m, hassemble⟩ := exists_assemble_of_linked hwell hlinked name entry
    obtain ⟨code, hsplit, hbecome⟩ := assemble_becomes hcode hlinked hassemble
    obtain ⟨-, hsize, -⟩ := assemble_stands hassemble
    refine ⟨m, code, hassemble, hsplit, hbecome, fun target hjump => ?_⟩
    have htargets := Directive.Becomes.targets_le hbecome
    have hle : target.toNat ≤ Directives.extent directives := by
      simp only [← Array.mem_toList_iff, hsplit, List.mem_append, List.mem_singleton,
        reduceCtorEq, or_false] at hjump
      rcases hjump with hjump | hjump
      · exact htargets _ hjump target rfl
      · exact htargets _ hjump target rfl
    omega

namespace Directives

/-- A jump to a label that is defined later and marked at the very end, and branches back
to two labels with one place. -/
def crossing : List Directive :=
  [.jump 2, .defineLabel, .defineLabel, .defineLabel, .loadConstant (.int 7), .markLabel 1,
    .markLabel 0, .addInt, .branchIfLess 0, .branchIfLess 1, .markLabel 2]

/-- A label that is marked twice, after a jump to nowhere and before a mark of no label. -/
def remarked : List Directive :=
  [.jump 4, .defineLabel, .markLabel 0, .addInt, .markLabel 0, .markLabel 7]

/-- Marks in order, and jumps to a label without a mark and to no label. -/
def unmarked : List Directive :=
  [.defineLabel, .defineLabel, .markLabel 1, .branchIfLess 1, .jump 0, .jump 9]

end Directives

/-- All three ends: a module, a wrong mark, and a jump without a mark. -/
theorem crossing_assemble_resolves :
    (Directives.extent Directives.crossing < UInt32.size ∧
      ∃ m code, assemble "m" "main" Directives.crossing = .ok m ∧
        m.code.toList = code ++ [.ret] ∧
        List.Forall₂ (Directive.Becomes Directives.crossing m.constants)
          (Directives.crossing.filter Directive.emits) code) ∧
    (Directives.extent Directives.remarked < UInt32.size ∧
      ∃ before label after error, Directives.remarked = before ++ .markLabel label :: after ∧
        Directives.MarkedWell before ∧ Directives.Misplaces before label error ∧
        assemble "m" "main" Directives.remarked = .error error) ∧
    Directives.extent Directives.unmarked < UInt32.size ∧
      ∃ before directive after label, Directives.unmarked = before ++ directive :: after ∧
        directive.target? = some label ∧ ¬ Directives.Marks Directives.unmarked label ∧
        assemble "m" "main" Directives.unmarked = .error (.unmarkedLabel label) := by
  refine ⟨⟨by decide, ?_⟩, ⟨by decide, ?_⟩, by decide, ?_⟩
  · have hwell : Directives.MarkedWell Directives.crossing :=
      Directives.markedWell_iff.mpr (by decide +kernel)
    have hlinked : Directives.Linked Directives.crossing Directives.crossing := by
      intro directive hdirective label hlabel
      have hnamed : label ∈ [2, 0, 1] := List.mem_filterMap.mpr ⟨directive, hdirective, hlabel⟩
      simp only [List.mem_cons, List.not_mem_nil, or_false] at hnamed
      rcases hnamed with rfl | rfl | rfl
      · exact ⟨Directives.crossing.take 10, [], rfl, by decide⟩
      · exact ⟨Directives.crossing.take 6, _, rfl, by decide⟩
      · exact ⟨Directives.crossing.take 5, _, rfl, by decide⟩
    obtain ⟨m, code, hassemble, hsplit, hbecome, -⟩ :=
      (assemble_resolves (by decide) "m" "main").2.2 hwell hlinked
    exact ⟨m, code, hassemble, hsplit, hbecome⟩
  · have hwrong : ¬ Directives.MarkedWell Directives.remarked := by
      rw [Directives.markedWell_iff]
      decide
    exact (assemble_resolves (by decide) "m" "main").1 hwrong
  · have hwell : Directives.MarkedWell Directives.unmarked := Directives.markedWell_iff.mpr rfl
    have hmarked := (Assembler.tracks_applyAll hwell).marked
    have hunlinked : ¬ Directives.Linked Directives.unmarked Directives.unmarked := by
      intro hlinked
      obtain ⟨target, htarget⟩ := (hmarked 0).mpr (hlinked (.jump 0) (by decide) 0 rfl)
      cases htarget
    obtain ⟨before, directive, after, label, hsplit, -, hrest⟩ :=
      (assemble_resolves (by decide) "m" "main").2.1 hwell hunlinked
    exact ⟨before, directive, after, label, hsplit, hrest⟩

end SlotLang
