import Mathlib.Data.List.Forall2
import SlotLang.Proofs.AssembledCode

/-!
# The constant pool of a module

A constant joins the pool with its first load, and every later load of it names the entry
that is there.  Two facts carry this through a list of directives.  The pool has no
constant twice, so that a constant has one entry and is found there; and an entry never
moves, so that an index handed out early is the index of the same constant at the end.

* `Directives.loads` — the constants that are loaded, one for each load.
* `Instruction.entries` — the entries that the code pushes, one for each push.
* `Assembler.Pools` — what the pool and the code have of the loads so far.
* `assemble_pools_constants` — the pool of an assembled module.

Indices are 32-bit numbers: beyond that many constants, two entries share an index.
-/

namespace SlotLang

/-! ## Loads and entries -/

/-- The constant that a directive loads, if it loads one. -/
def Directive.constant? : Directive → Option Value
  | loadConstant constant => some constant
  | _ => none

/-- The constants that the directives load, one for each load, in order. -/
def Directives.loads (directives : List Directive) : List Value :=
  directives.filterMap Directive.constant?

/-- The entry of the pool that an instruction pushes, if it pushes one. -/
def Instruction.entry? : Instruction → Option UInt32
  | constant index => some index
  | _ => none

/-- The entries that the instructions push, one for each push, in order. -/
def Instruction.entries (code : Array Instruction) : List UInt32 :=
  code.toList.filterMap Instruction.entry?

/-- The entry under an index is the given constant, as long as indices are wide enough for
the pool. -/
def HoldsAt (pool : Array Value) (index : UInt32) (constant : Value) : Prop :=
  ∃ i, index = UInt32.ofNat i ∧ pool[i]? = some constant

theorem HoldsAt.getElem? {pool : Array Value} {index : UInt32} {constant : Value}
    (hholds : HoldsAt pool index constant) (hpool : pool.size ≤ UInt32.size) :
    pool[index.toNat]? = some constant := by
  obtain ⟨i, rfl, hconstant⟩ := hholds
  obtain ⟨hi, -⟩ := Array.getElem?_eq_some_iff.mp hconstant
  rw [UInt32.toNat_ofNat_of_lt' (by omega)]
  exact hconstant

@[simp] theorem Directives.loads_cons (directive : Directive) (rest : List Directive) :
    loads (directive :: rest) = directive.constant?.toList ++ loads rest := by
  cases hconstant : directive.constant? with
  | none => simp [loads, hconstant]
  | some constant => simp [loads, hconstant]

@[simp] theorem Instruction.entries_push (code : Array Instruction) (instruction : Instruction) :
    entries (code.push instruction) = entries code ++ instruction.entry?.toList := by
  cases hentry : instruction.entry? with
  | none => simp [entries, hentry]
  | some index => simp [entries, hentry]

/-- One more load adds a constant to the distinct ones, unless it was loaded before. -/
theorem eraseDups_concat (loaded : List Value) (constant : Value) :
    (loaded ++ [constant]).eraseDups =
      if constant ∈ loaded then loaded.eraseDups else loaded.eraseDups ++ [constant] := by
  rw [List.eraseDups_append]
  by_cases hmem : constant ∈ loaded
  · simp [List.removeAll, hmem]
  · simp [List.removeAll, hmem, List.eraseDups_cons]

namespace Assembler

/-! ## One directive -/

/-- A directive that loads no constant leaves the pool and the pushes of its entries alone. -/
theorem pool_apply_of_constant?_eq_none (a : Assembler) {directive : Directive}
    (hnone : directive.constant? = none) :
    (a.apply directive).constants = a.constants ∧
      Instruction.entries (a.apply directive).code = Instruction.entries a.code := by
  cases directive with
  | loadConstant constant => cases hnone
  | markLabel label =>
      obtain ⟨-, hplace⟩ | ⟨error, hplace⟩ := a.placeLabel_cases label
      · rw [apply, hplace]
        exact ⟨rfl, rfl⟩
      · rw [apply, hplace]
        exact ⟨rfl, rfl⟩
  | _ => simp [apply, emit, Instruction.entry?]

/-- The pool after some loads: their distinct constants in the order of the first loads, none
of them twice; and the code pushes an entry for each load, which is the constant of it. -/
structure Pools (a : Assembler) (loaded : List Value) : Prop where
  constants : a.constants.toList = loaded.eraseDups
  nodup : a.constants.toList.Nodup
  entries : List.Forall₂ (HoldsAt a.constants) (Instruction.entries a.code) loaded

theorem pools_empty : empty.Pools [] where
  constants := rfl
  nodup := .nil
  entries := .nil

section

variable {a : Assembler} {loaded : List Value}

/-- A constant is in the pool if and only if it was loaded. -/
theorem Pools.mem_constants (hpools : a.Pools loaded) (constant : Value) :
    constant ∈ a.constants ↔ constant ∈ loaded := by
  rw [← Array.mem_toList_iff, hpools.constants, List.mem_eraseDups]

/-- Entries that were pushed stay the same while the pool grows. -/
theorem Pools.entries_of_extends {b : Assembler} (hpools : a.Pools loaded)
    (hextends : a.Extends b) :
    List.Forall₂ (HoldsAt b.constants) (Instruction.entries a.code) loaded := by
  refine hpools.entries.imp ?_
  rintro index constant ⟨i, rfl, hconstant⟩
  exact ⟨i, rfl, hextends.constants i constant hconstant⟩

theorem Pools.loadConstant (hpools : a.Pools loaded) (constant : Value) :
    (a.loadConstant constant).Pools (loaded ++ [constant]) := by
  have hkept := hpools.entries_of_extends (a.extends_loadConstant constant)
  obtain ⟨i, hi, hload⟩ | ⟨hnew, hload⟩ := a.loadConstant_cases constant
  -- The constant has an entry: the pool stays as it is, and one more push names that entry.
  · have hloaded : constant ∈ loaded :=
      (hpools.mem_constants constant).mp (Array.mem_of_getElem? hi)
    rw [hload] at hkept ⊢
    refine ⟨?_, hpools.nodup, ?_⟩
    · rw [eraseDups_concat, if_pos hloaded]
      exact hpools.constants
    · rw [emit, Instruction.entries_push]
      exact List.rel_append hkept (.cons ⟨i, rfl, hi⟩ .nil)
  -- The constant is new: it gets the index that the pool had as its size.
  · have hloaded : constant ∉ loaded := fun hmem =>
      hnew ((hpools.mem_constants constant).mpr hmem)
    rw [hload] at hkept ⊢
    refine ⟨?_, ?_, ?_⟩
    · rw [eraseDups_concat, if_neg hloaded, ← hpools.constants]
      exact Array.toList_push
    · show (a.constants.push constant).toList.Nodup
      rw [Array.toList_push, List.nodup_append]
      refine ⟨hpools.nodup, List.pairwise_singleton _ constant, ?_⟩
      rintro found hfound _ hlast rfl
      obtain rfl := List.mem_singleton.mp hlast
      exact hnew (Array.mem_toList_iff.mp hfound)
    · rw [emit, Instruction.entries_push]
      exact List.rel_append hkept (.cons ⟨a.constants.size, rfl, Array.getElem?_push_size⟩ .nil)

/-- What a directive does to the pool. -/
theorem Pools.apply (hpools : a.Pools loaded) (directive : Directive) :
    (a.apply directive).Pools (loaded ++ directive.constant?.toList) := by
  cases hconstant : directive.constant? with
  | none =>
      obtain ⟨hsame, hentries⟩ := a.pool_apply_of_constant?_eq_none hconstant
      rw [Option.toList_none, List.append_nil]
      refine ⟨?_, ?_, ?_⟩
      · rw [hsame, hpools.constants]
      · rw [hsame]
        exact hpools.nodup
      · rw [hsame, hentries]
        exact hpools.entries
  | some constant =>
      cases directive with
      | loadConstant found =>
          cases hconstant
          exact hpools.loadConstant constant
      | _ => cases hconstant

/-- What a list of directives does to the pool. -/
theorem Pools.applyAll (hpools : a.Pools loaded) (directives : List Directive) :
    (a.applyAll directives).Pools (loaded ++ Directives.loads directives) := by
  induction directives generalizing a loaded with
  | nil =>
      rw [Directives.loads, List.filterMap_nil, List.append_nil]
      exact hpools
  | cons directive rest ih =>
      rw [Directives.loads_cons, ← List.append_assoc]
      exact ih (hpools.apply directive)

end

/-! ## The finished module -/

/-- Linking replaces labels only. -/
theorem entry?_of_link {a : Assembler} {instruction result : Instruction}
    (hlink : a.link instruction = .ok result) : result.entry? = instruction.entry? := by
  cases instruction with
  | jump label =>
      simp only [link] at hlink
      cases htarget : a.target label with
      | error error => rw [htarget] at hlink; cases hlink
      | ok target => rw [htarget] at hlink; cases hlink; rfl
  | branchIfLess label =>
      simp only [link] at hlink
      cases htarget : a.target label with
      | error error => rw [htarget] at hlink; cases hlink
      | ok target => rw [htarget] at hlink; cases hlink; rfl
  | _ => cases hlink; rfl

/-- A finished module pushes the entries that the code pushed before its labels were
replaced. -/
theorem entries_of_finish {a : Assembler} {name entry : String} {m : CodeModule}
    (hfinish : a.finish name entry = .ok m) :
    Instruction.entries m.code = Instruction.entries a.code := by
  obtain ⟨-, -, -, hsize, hret, hcode⟩ := finish_eq_ok hfinish
  -- Position by position, since linking may change an instruction but not what it pushes.
  have hentry : m.code.toList.map Instruction.entry? =
      (a.code.push .ret).toList.map Instruction.entry? := by
    refine List.ext_getElem? fun i => ?_
    simp only [List.getElem?_map, Array.getElem?_toList]
    rcases Nat.lt_trichotomy i a.code.size with hlt | rfl | hgt
    · obtain ⟨result, hlink, hresult⟩ := hcode i _ (Array.getElem?_eq_getElem hlt)
      rw [hresult, getElem?_push_of_eq_some (Array.getElem?_eq_getElem hlt), Option.map_some,
        Option.map_some, entry?_of_link hlink]
    · rw [hret, Array.getElem?_push_size]
    · rw [Array.getElem?_eq_none (by omega), Array.getElem?_eq_none (by simp; omega)]
  have hentries : Instruction.entries m.code = Instruction.entries (a.code.push .ret) := by
    have hreduced := congrArg (List.filterMap id) hentry
    simpa only [List.filterMap_map, Function.id_comp, Instruction.entries] using hreduced
  rw [hentries, Instruction.entries_push]
  simp [Instruction.entry?]

end Assembler

/-- The loads of the directives and the pushes of the module, side by side. -/
theorem assemble_holds {name entry : String} {directives : List Directive} {m : CodeModule}
    (hassemble : assemble name entry directives = .ok m) :
    m.constants.toList = (Directives.loads directives).eraseDups ∧ m.constants.toList.Nodup ∧
      List.Forall₂ (HoldsAt m.constants) (Instruction.entries m.code)
        (Directives.loads directives) := by
  obtain ⟨-, -, hconstants, -⟩ := Assembler.finish_eq_ok hassemble
  have hpools := Assembler.pools_empty.applyAll directives
  rw [List.nil_append] at hpools
  rw [hconstants, Assembler.entries_of_finish hassemble]
  exact ⟨hpools.constants, hpools.nodup, hpools.entries⟩

/-- The pool of an assembled module is made of the constants that its directives load, in the
order of their first loads and none of them twice.  Its code pushes one entry for each load,
and the entry pushed for a load is the constant of that load.  An integer and a string never
share an entry, whatever the text of the string. -/
theorem assemble_pools_constants {name entry : String} {directives : List Directive}
    {m : CodeModule} (hassemble : assemble name entry directives = .ok m)
    (hpool : m.constants.size ≤ UInt32.size) :
    m.constants.toList = (Directives.loads directives).eraseDups ∧
      m.constants.toList.Nodup ∧
      (Instruction.entries m.code).length = (Directives.loads directives).length ∧
      (∀ (k : Nat) (constant : Value), (Directives.loads directives)[k]? = some constant →
        ∃ index, (Instruction.entries m.code)[k]? = some index ∧
          m.constants[index.toNat]? = some constant) ∧
      ∀ (j k : Nat) (n : Int32) (text : String),
        (Directives.loads directives)[j]? = some (.int n) →
        (Directives.loads directives)[k]? = some (.string text) →
        (Instruction.entries m.code)[j]? ≠ (Instruction.entries m.code)[k]? := by
  obtain ⟨hdistinct, hnodup, hholds⟩ := assemble_holds hassemble
  have hindex : ∀ (k : Nat) (constant : Value),
      (Directives.loads directives)[k]? = some constant →
      ∃ index, (Instruction.entries m.code)[k]? = some index ∧
        m.constants[index.toNat]? = some constant := by
    intro k constant hconstant
    obtain ⟨hk, rfl⟩ := List.getElem?_eq_some_iff.mp hconstant
    have hk' : k < (Instruction.entries m.code).length := by rwa [hholds.length_eq]
    exact ⟨_, List.getElem?_eq_getElem hk', (hholds.get hk' hk).getElem? hpool⟩
  refine ⟨hdistinct, hnodup, hholds.length_eq, hindex, ?_⟩
  intro j k n text hint htext hsame
  obtain ⟨index, hj, hindexInt⟩ := hindex j _ hint
  obtain ⟨index', hk, hindexText⟩ := hindex k _ htext
  rw [hj, hk] at hsame
  obtain rfl := Option.some.inj hsame
  rw [hindexInt] at hindexText
  cases hindexText

/-- Loads of the integer 7 and of its text in turn, among slots, a jump, marks and calls. -/
def Directives.sevens : List Directive :=
  [.defineLabel, .jump 0, .loadConstant (.int 7), .declareLocal .int, .storeLocal 0,
    .loadConstant (.string "7"), .callHost .writeLine, .loadConstant (.int 7), .markLabel 0,
    .loadConstant (.int 0), .loadConstant (.string "7"), .addInt]

/-- The module of these directives. -/
def CodeModule.sevens : CodeModule where
  name := "m"
  entry := "main"
  locals := #[.int]
  constants := #[.int 7, .string "7", .int 0]
  code := #[.jump 6, .constant 0, .storeLocal 0, .constant 1, .callHost .writeLine, .constant 0,
    .constant 2, .constant 1, .addInt, .ret]

theorem sevens_assemble_pools_constants :
    assemble "m" "main" Directives.sevens = .ok CodeModule.sevens ∧
      CodeModule.sevens.constants.size ≤ UInt32.size ∧
      CodeModule.sevens.constants.toList = (Directives.loads Directives.sevens).eraseDups ∧
      (∃ index, (Instruction.entries CodeModule.sevens.code)[4]? = some index ∧
        CodeModule.sevens.constants[index.toNat]? = some (.string "7")) ∧
      (Instruction.entries CodeModule.sevens.code)[2]? ≠
        (Instruction.entries CodeModule.sevens.code)[4]? := by
  have hassemble : assemble "m" "main" Directives.sevens = .ok CodeModule.sevens := by cbv
  have hpool : CodeModule.sevens.constants.size ≤ UInt32.size := by decide
  obtain ⟨hdistinct, -, -, hindex, hapart⟩ := assemble_pools_constants hassemble hpool
  exact ⟨hassemble, hpool, hdistinct, hindex 4 (.string "7") rfl, hapart 2 4 7 "7" rfl rfl⟩

end SlotLang
