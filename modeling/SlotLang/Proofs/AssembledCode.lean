import SlotLang.Assembly.Assembler

/-!
# What an assembled module contains

The assembler keeps a state with half-built code.  Here its result is described
without that state: every directive stands in the module at the position where
it was taken, and a label has one place for the whole module.

* `Directive.Stands` — what a directive leaves behind at a position.
* `Directives.Stand` — the same for a list, one directive after the other.
* `Assembler.Extends` — what a later state keeps of an earlier one.
* `assemble_stands` — the directives of an assembled module stand in it.

Nothing is said here about lists of directives that do not assemble.
-/

namespace SlotLang

namespace Directive

/-- The number of instructions that a directive emits. -/
def width : Directive → Nat
  | declareLocal _ => 0
  | defineLabel => 0
  | markLabel _ => 0
  | _ => 1

/-- The type of the slot that a directive declares, if it declares one. -/
def declaredType? : Directive → Option ValueType
  | declareLocal type => some type
  | _ => none

/-- What a directive taken at a position leaves behind in a module, where
`place` gives the targets of the labels. -/
def Stands (m : CodeModule) (place : UInt32 → Option UInt32) (position : Nat) :
    Directive → Prop
  | declareLocal _ => True
  | loadConstant constant =>
      ∃ index, m.code[position]? = some (.constant (UInt32.ofNat index)) ∧
        m.constants[index]? = some constant
  | loadLocal slot => m.code[position]? = some (.loadLocal slot)
  | storeLocal slot => m.code[position]? = some (.storeLocal slot)
  | addInt => m.code[position]? = some .addInt
  | callHost function => m.code[position]? = some (.callHost function)
  | intToString => m.code[position]? = some .intToString
  | defineLabel => True
  | markLabel label => place label = some (UInt32.ofNat position)
  | jump label =>
      ∃ target, m.code[position]? = some (.jump target) ∧ place label = some target
  | branchIfLess label =>
      ∃ target, m.code[position]? = some (.branchIfLess target) ∧ place label = some target

end Directive

namespace Directives

/-- The number of instructions that the directives emit. -/
def extent : List Directive → Nat
  | [] => 0
  | directive :: rest => directive.width + extent rest

/-- The types of the slots that the directives declare, in order. -/
def declaredTypes (directives : List Directive) : List ValueType :=
  directives.filterMap Directive.declaredType?

/-- The directives stand in the module one after the other, from a position on. -/
def Stand (m : CodeModule) (place : UInt32 → Option UInt32) : Nat → List Directive → Prop
  | _, [] => True
  | position, directive :: rest =>
      directive.Stands m place position ∧ Stand m place (position + directive.width) rest

@[simp] theorem extent_append (first second : List Directive) :
    extent (first ++ second) = extent first + extent second := by
  induction first with
  | nil => simp [extent]
  | cons directive rest ih => simp [extent, ih, Nat.add_assoc]

@[simp] theorem declaredTypes_append (first second : List Directive) :
    declaredTypes (first ++ second) = declaredTypes first ++ declaredTypes second :=
  List.filterMap_append

/-- A list that stands in a module may be cut anywhere. -/
@[simp] theorem stand_append {m : CodeModule} {place : UInt32 → Option UInt32} {position : Nat}
    {first second : List Directive} :
    Stand m place position (first ++ second) ↔
      Stand m place position first ∧ Stand m place (position + extent first) second := by
  induction first generalizing position with
  | nil => simp [Stand, extent]
  | cons directive rest ih => simp [Stand, extent, ih, Nat.add_assoc, and_assoc]

end Directives

namespace Assembler

/-! ## States only grow -/

/-- What a later state keeps of an earlier one: its code, its constants, the
places of its labels, and a fault if there was one. -/
structure Extends (a b : Assembler) : Prop where
  code : ∀ (i : Nat) (instruction : Instruction),
    a.code[i]? = some instruction → b.code[i]? = some instruction
  constants : ∀ (i : Nat) (constant : Value),
    a.constants[i]? = some constant → b.constants[i]? = some constant
  labels : ∀ (i : Nat) (target : UInt32),
    a.labels[i]? = some (some target) → b.labels[i]? = some (some target)
  fault : b.fault = none → a.fault = none

theorem Extends.refl (a : Assembler) : a.Extends a where
  code _ _ h := h
  constants _ _ h := h
  labels _ _ h := h
  fault h := h

theorem Extends.trans {a b c : Assembler} (hab : a.Extends b) (hbc : b.Extends c) :
    a.Extends c where
  code i instruction h := hbc.code i instruction (hab.code i instruction h)
  constants i constant h := hbc.constants i constant (hab.constants i constant h)
  labels i target h := hbc.labels i target (hab.labels i target h)
  fault h := hab.fault (hbc.fault h)

/-- An entry of an array stays where it is when another one is pushed. -/
theorem getElem?_push_of_eq_some {α : Type} {xs : Array α} {x y : α} {i : Nat}
    (h : xs[i]? = some y) : (xs.push x)[i]? = some y := by
  obtain ⟨hi, -⟩ := Array.getElem?_eq_some_iff.mp h
  rw [Array.getElem?_push, if_neg (Nat.ne_of_lt hi), h]

theorem extends_emit (a : Assembler) (instruction : Instruction) :
    a.Extends (a.emit instruction) where
  code _ _ h := getElem?_push_of_eq_some h
  constants _ _ h := h
  labels _ _ h := h
  fault h := h

/-- A constant that is in the pool is loaded from there, and any other joins the pool at its
end. -/
theorem loadConstant_cases (a : Assembler) (constant : Value) :
    (∃ i, a.constants[i]? = some constant ∧
      a.loadConstant constant = a.emit (.constant (UInt32.ofNat i))) ∨
    constant ∉ a.constants ∧
      a.loadConstant constant =
        { a with constants := a.constants.push constant }.emit
          (.constant (UInt32.ofNat a.constants.size)) := by
  unfold loadConstant
  split
  next i hi =>
      rw [Array.idxOf?_eq_map_finIdxOf?_val] at hi
      obtain ⟨j, hj, rfl⟩ := Option.map_eq_some_iff.mp hi
      obtain ⟨hvalue, -⟩ := Array.finIdxOf?_eq_some_iff.mp hj
      refine .inl ⟨j, ?_, rfl⟩
      rw [← hvalue]
      exact Array.getElem?_eq_getElem j.isLt
  next hnone => exact .inr ⟨Array.idxOf?_eq_none_iff.mp hnone, rfl⟩

theorem extends_loadConstant (a : Assembler) (constant : Value) :
    a.Extends (a.loadConstant constant) := by
  obtain ⟨i, -, hload⟩ | ⟨-, hload⟩ := a.loadConstant_cases constant
  · rw [hload]
    exact a.extends_emit _
  · rw [hload]
    refine Extends.trans (b := { a with constants := a.constants.push constant }) ?_
      (extends_emit _ _)
    exact ⟨fun _ _ h => h, fun _ _ h => getElem?_push_of_eq_some h, fun _ _ h => h, fun h => h⟩

theorem blame_fault_ne_none (a : Assembler) (error : AssemblyError) :
    (a.blame error).fault ≠ none := by
  cases hfault : a.fault <;> simp [blame, hfault]

/-- A label can be placed only if it is defined and has no place yet;
otherwise the state has a fault for good. -/
theorem placeLabel_cases (a : Assembler) (label : UInt32) :
    (a.labels[label.toNat]? = some none ∧
      a.placeLabel label =
        { a with
          labels := a.labels.setIfInBounds label.toNat (some (UInt32.ofNat a.code.size)) }) ∨
      ∃ error, a.placeLabel label = a.blame error := by
  unfold placeLabel
  split
  next hlabel => exact .inl ⟨hlabel, rfl⟩
  next => exact .inr ⟨_, rfl⟩
  next => exact .inr ⟨_, rfl⟩

theorem extends_placeLabel (a : Assembler) (label : UInt32) :
    a.Extends (a.placeLabel label) := by
  obtain ⟨hlabel, hplace⟩ | ⟨error, hplace⟩ := a.placeLabel_cases label
  · rw [hplace]
    refine ⟨fun _ _ h => h, fun _ _ h => h, ?_, fun h => h⟩
    intro i target h
    have hne : label.toNat ≠ i := by
      intro heq
      rw [heq, h] at hlabel
      cases hlabel
    show (a.labels.setIfInBounds label.toNat _)[i]? = some (some target)
    rw [Array.getElem?_setIfInBounds, if_neg hne, h]
  · rw [hplace]
    exact ⟨fun _ _ h => h, fun _ _ h => h, fun _ _ h => h,
      fun h => absurd h (a.blame_fault_ne_none error)⟩

theorem extends_apply (a : Assembler) (directive : Directive) :
    a.Extends (a.apply directive) := by
  cases directive with
  | declareLocal type => exact ⟨fun _ _ h => h, fun _ _ h => h, fun _ _ h => h, fun h => h⟩
  | loadConstant constant => exact a.extends_loadConstant constant
  | loadLocal slot => exact a.extends_emit _
  | storeLocal slot => exact a.extends_emit _
  | addInt => exact a.extends_emit _
  | callHost function => exact a.extends_emit _
  | intToString => exact a.extends_emit _
  | defineLabel =>
      exact ⟨fun _ _ h => h, fun _ _ h => h, fun _ _ h => getElem?_push_of_eq_some h,
        fun h => h⟩
  | markLabel label => exact a.extends_placeLabel label
  | jump label => exact a.extends_emit _
  | branchIfLess label => exact a.extends_emit _

theorem extends_applyAll (a : Assembler) (directives : List Directive) :
    a.Extends (a.applyAll directives) := by
  induction directives generalizing a with
  | nil => exact Extends.refl a
  | cons directive rest ih => exact (a.extends_apply directive).trans (ih (a.apply directive))

/-! ## Sizes -/

theorem size_code_apply (a : Assembler) (directive : Directive) :
    (a.apply directive).code.size = a.code.size + directive.width := by
  cases directive with
  | loadConstant constant =>
      simp only [apply, loadConstant, Directive.width]
      split <;> simp [emit]
  | markLabel label =>
      obtain ⟨-, hplace⟩ | ⟨error, hplace⟩ := a.placeLabel_cases label
      · simp [apply, hplace, Directive.width]
      · simp [apply, hplace, blame, Directive.width]
  | _ => simp [apply, emit, Directive.width]

theorem size_code_applyAll (a : Assembler) (directives : List Directive) :
    (a.applyAll directives).code.size = a.code.size + Directives.extent directives := by
  induction directives generalizing a with
  | nil => rfl
  | cons directive rest ih =>
      have hrest := ih (a.apply directive)
      rw [size_code_apply] at hrest
      simpa [applyAll, Directives.extent, Nat.add_assoc] using hrest

theorem locals_apply (a : Assembler) (directive : Directive) :
    (a.apply directive).locals.toList = a.locals.toList ++ directive.declaredType?.toList := by
  cases directive with
  | loadConstant constant =>
      simp only [apply, loadConstant, Directive.declaredType?]
      split <;> simp [emit]
  | markLabel label =>
      obtain ⟨-, hplace⟩ | ⟨error, hplace⟩ := a.placeLabel_cases label
      · simp [apply, hplace, Directive.declaredType?]
      · simp [apply, hplace, blame, Directive.declaredType?]
  | _ => simp [apply, emit, Directive.declaredType?]

theorem locals_applyAll (a : Assembler) (directives : List Directive) :
    (a.applyAll directives).locals.toList =
      a.locals.toList ++ Directives.declaredTypes directives := by
  induction directives generalizing a with
  | nil => simp [applyAll, Directives.declaredTypes]
  | cons directive rest ih =>
      have hrest := ih (a.apply directive)
      rw [locals_apply] at hrest
      cases htype : directive.declaredType? with
      | none => simpa [applyAll, Directives.declaredTypes, htype] using hrest
      | some type => simpa [applyAll, Directives.declaredTypes, htype] using hrest

/-- Every constant comes with an instruction that loads it, so the pool is
never longer than the code. -/
theorem size_constants_apply_le (a : Assembler) (directive : Directive)
    (hle : a.constants.size ≤ a.code.size) :
    (a.apply directive).constants.size ≤ (a.apply directive).code.size := by
  cases directive with
  | loadConstant constant =>
      simp only [apply, loadConstant]
      split
      · simp only [emit, Array.size_push]
        omega
      · simp only [emit, Array.size_push]
        omega
  | markLabel label =>
      obtain ⟨-, hplace⟩ | ⟨error, hplace⟩ := a.placeLabel_cases label
      · simpa [apply, hplace] using hle
      · simpa [apply, hplace, blame] using hle
  | declareLocal type => exact hle
  | defineLabel => exact hle
  | _ =>
      simp only [apply, emit, Array.size_push]
      omega

theorem size_constants_applyAll_le (a : Assembler) (directives : List Directive)
    (hle : a.constants.size ≤ a.code.size) :
    (a.applyAll directives).constants.size ≤ (a.applyAll directives).code.size := by
  induction directives generalizing a with
  | nil => exact hle
  | cons directive rest ih =>
      exact ih (a.apply directive) (a.size_constants_apply_le directive hle)

/-! ## The finished module -/

/-- The place of a label, if it has one. -/
def placeOf (a : Assembler) (label : UInt32) : Option UInt32 :=
  a.labels[label.toNat]?.join

/-- A linked list of instructions has the linked instructions at the old
positions. -/
theorem getElem?_mapM_link (a : Assembler) {code linked : List Instruction}
    (hlinked : code.mapM a.link = .ok linked) :
    linked.length = code.length ∧
      ∀ (i : Nat) (instruction : Instruction), code[i]? = some instruction →
        ∃ result, a.link instruction = .ok result ∧ linked[i]? = some result := by
  induction code generalizing linked with
  | nil =>
      cases hlinked
      exact ⟨rfl, fun i instruction h => by simp at h⟩
  | cons first rest ih =>
      rw [List.mapM_cons] at hlinked
      cases hfirst : a.link first with
      | error error => rw [hfirst] at hlinked; cases hlinked
      | ok result =>
          cases hrest : rest.mapM a.link with
          | error error => rw [hfirst, hrest] at hlinked; cases hlinked
          | ok results =>
              rw [hfirst, hrest] at hlinked
              cases hlinked
              obtain ⟨hlength, hget⟩ := ih hrest
              refine ⟨by simp [hlength], fun i instruction h => ?_⟩
              cases i with
              | zero =>
                  obtain rfl : first = instruction := by simpa using h
                  exact ⟨result, hfirst, rfl⟩
              | succ i => exact hget i instruction (by simpa using h)

/-- A finished module: no label was misused, the tables are taken over, and the
code is the linked code with one more return. -/
theorem finish_eq_ok {a : Assembler} {name entry : String} {m : CodeModule}
    (hfinish : a.finish name entry = .ok m) :
    a.fault = none ∧ m.locals = a.locals ∧ m.constants = a.constants ∧
      m.code.size = a.code.size + 1 ∧ m.code[a.code.size]? = some .ret ∧
      ∀ (i : Nat) (instruction : Instruction), a.code[i]? = some instruction →
        ∃ result, a.link instruction = .ok result ∧ m.code[i]? = some result := by
  unfold finish at hfinish
  cases hfault : a.fault with
  | some error => rw [hfault] at hfinish; cases hfinish
  | none =>
      rw [hfault] at hfinish
      cases hcode : a.code.toList.mapM a.link with
      | error error => rw [hcode] at hfinish; cases hfinish
      | ok linked =>
          rw [hcode] at hfinish
          cases hfinish
          obtain ⟨hlength, hget⟩ := a.getElem?_mapM_link hcode
          have hsize : linked.length = a.code.size := by simpa using hlength
          refine ⟨rfl, rfl, rfl, by simp [hsize], ?_, fun i instruction h => ?_⟩
          · show (linked.toArray.push Instruction.ret)[a.code.size]? = some .ret
            rw [Array.getElem?_push, if_pos (by simp [hsize])]
          · obtain ⟨result, hlink, hresult⟩ := hget i instruction (by simpa using h)
            refine ⟨result, hlink, ?_⟩
            exact getElem?_push_of_eq_some (by simpa using hresult)

/-! ## Directives stand in the module -/

section

variable {a b : Assembler} {name entry : String} {m : CodeModule}

/-- An instruction that needs no linking is in the module as it was emitted. -/
theorem getElem?_code_of_emit {instruction : Instruction}
    (hextends : (a.emit instruction).Extends b) (hfinish : b.finish name entry = .ok m)
    (hlink : b.link instruction = .ok instruction) :
    m.code[a.code.size]? = some instruction := by
  obtain ⟨-, -, -, -, -, hcode⟩ := finish_eq_ok hfinish
  have hemitted := hextends.code a.code.size instruction (by simp [emit])
  obtain ⟨result, hresult, hget⟩ := hcode a.code.size instruction hemitted
  rw [hlink] at hresult
  cases hresult
  exact hget

/-- A jump that was linked goes to the place of its label. -/
theorem target_eq_ok {label target : UInt32} (htarget : b.target label = .ok target) :
    b.placeOf label = some target := by
  unfold Assembler.target at htarget
  unfold placeOf
  split at htarget
  next found hlabel =>
      cases htarget
      rw [hlabel]
      rfl
  next => cases htarget

/-- The index of a constant is its index in the pool for good. -/
theorem exists_index_of_loadConstant (constant : Value) :
    ∃ index, a.loadConstant constant =
        { a with constants := (a.loadConstant constant).constants }.emit
          (.constant (UInt32.ofNat index)) ∧
      (a.loadConstant constant).constants[index]? = some constant := by
  obtain ⟨index, hindex, hload⟩ | ⟨-, hload⟩ := a.loadConstant_cases constant
  · rw [hload]
    exact ⟨index, rfl, hindex⟩
  · rw [hload]
    exact ⟨a.constants.size, rfl, Array.getElem?_push_size⟩

/-- An instruction with a label is linked to the place of the label. -/
theorem exists_target_of_emit {toInstruction : UInt32 → Instruction} {label : UInt32}
    (hextends : (a.emit (toInstruction label)).Extends b)
    (hfinish : b.finish name entry = .ok m)
    (hlink : b.link (toInstruction label) = (b.target label).map toInstruction) :
    ∃ target, m.code[a.code.size]? = some (toInstruction target) ∧
      b.placeOf label = some target := by
  obtain ⟨-, -, -, -, -, hcode⟩ := finish_eq_ok hfinish
  have hemitted := hextends.code a.code.size (toInstruction label) (by simp [emit])
  obtain ⟨result, hresult, hget⟩ := hcode a.code.size _ hemitted
  rw [hlink] at hresult
  -- The module was finished, so the label has a place.
  cases htarget : b.target label with
  | error error =>
      rw [htarget] at hresult
      cases hresult
  | ok target =>
      rw [htarget] at hresult
      cases hresult
      exact ⟨target, hget, target_eq_ok htarget⟩

/-- A directive stands in every module finished from a later state. -/
theorem stands_of_extends {directive : Directive}
    (hextends : (a.apply directive).Extends b) (hfinish : b.finish name entry = .ok m) :
    directive.Stands m b.placeOf a.code.size := by
  cases directive with
  | declareLocal type => trivial
  | defineLabel => trivial
  | loadLocal slot => exact getElem?_code_of_emit hextends hfinish rfl
  | storeLocal slot => exact getElem?_code_of_emit hextends hfinish rfl
  | addInt => exact getElem?_code_of_emit hextends hfinish rfl
  | callHost function => exact getElem?_code_of_emit hextends hfinish rfl
  | intToString => exact getElem?_code_of_emit hextends hfinish rfl
  | loadConstant constant =>
      obtain ⟨index, hload, hindex⟩ := exists_index_of_loadConstant (a := a) constant
      obtain ⟨-, -, hconstants, -⟩ := finish_eq_ok hfinish
      refine ⟨index, ?_, ?_⟩
      · simp only [apply] at hextends
        rw [hload] at hextends
        have hemitted := getElem?_code_of_emit hextends hfinish rfl
        exact hemitted
      · rw [hconstants]
        exact hextends.constants index constant hindex
  | markLabel label =>
      -- A wrong mark would have left a fault, and the module was finished.
      obtain ⟨hfault, -⟩ := finish_eq_ok hfinish
      simp only [apply] at hextends
      obtain ⟨hlabel, hplace⟩ | ⟨error, hplace⟩ := a.placeLabel_cases label
      · obtain ⟨hbound, -⟩ := Array.getElem?_eq_some_iff.mp hlabel
        rw [hplace] at hextends
        have hmarked := hextends.labels label.toNat (UInt32.ofNat a.code.size) (by
          rw [Array.getElem?_setIfInBounds, if_pos rfl, if_pos hbound])
        show b.placeOf label = some (UInt32.ofNat a.code.size)
        rw [placeOf, hmarked]
        rfl
      · rw [hplace] at hextends
        exact absurd (hextends.fault hfault) (a.blame_fault_ne_none error)
  | jump label => exact exists_target_of_emit hextends hfinish rfl
  | branchIfLess label => exact exists_target_of_emit hextends hfinish rfl

theorem stand_of_finish {directives : List Directive}
    (hfinish : (a.applyAll directives).finish name entry = .ok m) :
    Directives.Stand m (a.applyAll directives).placeOf a.code.size directives := by
  induction directives generalizing a with
  | nil => trivial
  | cons directive rest ih =>
      have hrest := ih (a := a.apply directive) hfinish
      rw [size_code_apply] at hrest
      exact ⟨stands_of_extends ((a.apply directive).extends_applyAll rest) hfinish, hrest⟩

end

end Assembler

/-- The directives of an assembled module stand in it from its first position
on.  One return follows them, the slots are the declared ones, and the pool is
no longer than the code. -/
theorem assemble_stands {name entry : String} {directives : List Directive} {m : CodeModule}
    (hassemble : assemble name entry directives = .ok m) :
    (∃ place, Directives.Stand m place 0 directives) ∧
      m.code.size = Directives.extent directives + 1 ∧
      m.code[Directives.extent directives]? = some .ret ∧
      m.locals.toList = Directives.declaredTypes directives ∧
      m.constants.size ≤ m.code.size := by
  obtain ⟨-, hlocals, hconstants, hsize, hret, -⟩ := Assembler.finish_eq_ok hassemble
  have hextent := Assembler.empty.size_code_applyAll directives
  have htypes := Assembler.empty.locals_applyAll directives
  have hpool := Assembler.empty.size_constants_applyAll_le directives (Nat.le_refl 0)
  have hzero : Assembler.empty.code.size = 0 := rfl
  rw [hzero, Nat.zero_add] at hextent
  refine ⟨⟨_, Assembler.stand_of_finish hassemble⟩, ?_, ?_, ?_, ?_⟩
  · rw [hsize, hextent]
  · rw [← hextent]
    exact hret
  · rw [hlocals, htypes]
    rfl
  · rw [hconstants, hsize]
    omega

end SlotLang
