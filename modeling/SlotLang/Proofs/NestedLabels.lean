import SlotLang.Proofs.LoweredCode

/-!
# Labels of nested loops

A loop defines two labels, marks each of them once and jumps to no others, and the
labels of its body are later ones.  Directives of this form assemble without an
error, whatever else they emit, as long as labels can be numbered in 32 bits.

* `Directives.Nested` — the form, with the number of labels before and after.
* `Statement.nests_emission` — what a statement emits has it.
* `Assembler.Closes` — all labels that were defined in between have a place.
* `Statement.exists_assemble` — a program that can be lowered can be assembled.
-/

namespace SlotLang

/-! ## The form -/

/-- The directive neither defines nor uses a label. -/
def Directive.Plain : Directive → Prop
  | defineLabel => False
  | markLabel _ => False
  | jump _ => False
  | branchIfLess _ => False
  | _ => True

/-- Directives that start with the given number of labels and end with the other.  A
loop has the label of its test and the label of its body, in this order. -/
inductive Directives.Nested : Nat → List Directive → Nat → Prop
  | nil (n : Nat) : Nested n [] n
  | plain (n : Nat) {directive : Directive} (hplain : directive.Plain) : Nested n [directive] n
  | append {n m k : Nat} {first second : List Directive} (hfirst : Nested n first m)
      (hsecond : Nested m second k) : Nested n (first ++ second) k
  | loop {n m : Nat} {inner test : List Directive} (hinner : Nested (n + 2) inner m)
      (htest : ∀ directive ∈ test, directive.Plain) :
      Nested n
        ([.defineLabel, .jump (UInt32.ofNat n), .defineLabel, .markLabel (UInt32.ofNat (n + 1))] ++
          inner ++ [.markLabel (UInt32.ofNat n)] ++ test ++
          [.branchIfLess (UInt32.ofNat (n + 1))]) m

namespace Directives.Nested

theorem le {n m : Nat} {directives : List Directive} (hnested : Nested n directives m) :
    n ≤ m := by
  induction hnested with
  | nil => exact Nat.le_refl _
  | plain => exact Nat.le_refl _
  | append _ _ ihfirst ihsecond => exact Nat.le_trans ihfirst ihsecond
  | loop _ _ ih => omega

theorem of_plain {directives : List Directive} (n : Nat)
    (hplain : ∀ directive ∈ directives, directive.Plain) : Nested n directives n := by
  induction directives with
  | nil => exact .nil n
  | cons directive rest ih =>
      rw [List.forall_mem_cons] at hplain
      exact .append (.plain n hplain.1) (ih hplain.2)

end Directives.Nested

/-! ## What statements emit -/

/-- If the emission goes well, its directives are nested between the given numbers of
labels. -/
def Emission.Nests (n m : Nat) (emission : Emission) : Prop :=
  ∀ directives scope, emission = .emit directives scope →
    scope.labels = m ∧ Directives.Nested n directives m

namespace Emission

variable {n m k : Nat}

theorem nests_emit {directives : List Directive} {scope : Scope} (hlabels : scope.labels = n)
    (hplain : ∀ directive ∈ directives, directive.Plain) : (emit directives scope).Nests n n := by
  intro _ _ hemit
  obtain ⟨rfl, rfl⟩ := emit_eq_emit.mp hemit
  exact ⟨hlabels, .of_plain n hplain⟩

theorem nests_fail (error : LoweringError) : (fail error).Nests n m :=
  fun _ _ hemit => absurd hemit fail_ne_emit

theorem Nests.andThen {first : Emission} {next : Scope → Emission} (hfirst : first.Nests n m)
    (hnext : ∀ scope, scope.labels = m → (next scope).Nests m k) :
    (first.andThen next).Nests n k := by
  intro _ _ hemit
  obtain ⟨scope, before, after, hbefore, hafter, rfl⟩ := andThen_eq_emit.mp hemit
  obtain ⟨hlabels, hnested⟩ := hfirst _ _ hbefore
  obtain ⟨hlabels', hnested'⟩ := hnext scope hlabels _ _ hafter
  exact ⟨hlabels', hnested.append hnested'⟩

theorem nests_given {α : Type} {value : Except LoweringError α} {next : α → Emission}
    (hnext : ∀ a, (next a).Nests n m) : (given value next).Nests n m := by
  intro _ _ hemit
  obtain ⟨a, -, hemit⟩ := given_eq_emit.mp hemit
  exact hnext a _ _ hemit

end Emission

namespace Scope

variable {scope : Scope} {n : Nat}

theorem nests_coerce (hlabels : scope.labels = n) (delivered expected : ValueType) (span : Span) :
    (scope.coerce delivered expected span).Nests n n := by
  unfold coerce
  split
  · exact Emission.nests_emit hlabels (by simp)
  · split
    · exact Emission.nests_emit hlabels (by simp [Directive.Plain])
    · exact Emission.nests_fail _

theorem nests_push (hlabels : scope.labels = n) (value : Expression) (expected : ValueType) :
    (scope.push value expected).Nests n n := by
  have hload : ∀ {load : Directive} {delivered : ValueType} {span : Span}, load.Plain →
      ((Emission.emit [load] scope).andThen (coerce delivered expected span)).Nests n n :=
    fun hplain => (Emission.nests_emit hlabels (by simpa using hplain)).andThen
      fun _ hlabels => nests_coerce hlabels _ _ _
  cases value with
  | string text span => exact hload trivial
  | integer n span => exact hload trivial
  | name name span => exact Emission.nests_given fun symbol => hload trivial
  | binary operator left right span => exact Emission.nests_fail _

theorem nests_popInto (hlabels : scope.labels = n) (name : String) (type : ValueType)
    (span : Span) : (scope.popInto name type span).Nests n n := by
  refine Emission.nests_given fun symbol => ?_
  split
  · exact Emission.nests_emit hlabels (by simp [Directive.Plain])
  · exact Emission.nests_fail _

theorem nests_assign (hlabels : scope.labels = n) (name : String) (value : Expression) :
    (scope.assign name value).Nests n n :=
  Emission.nests_given fun type => (nests_push hlabels value type).andThen
    fun _ hlabels => nests_popInto hlabels name type value.span

theorem nests_introduce (hlabels : scope.labels = n) (name : String) (type : ValueType) :
    (scope.introduce name type).Nests n n := by
  apply Emission.nests_emit
  · exact hlabels
  · simp [Directive.Plain]

theorem nests_declareIndex (hlabels : scope.labels = n) (index : String) (lower : Expression) :
    (scope.declareIndex index lower).Nests n n := by
  unfold declareIndex
  split
  · exact Emission.nests_emit hlabels (by simp)
  · exact Emission.nests_given fun _ => nests_introduce hlabels index .int

theorem nests_increment (hlabels : scope.labels = n) (index : String) (span : Span) :
    (scope.increment index span).Nests n n :=
  Emission.nests_given fun _ => (Emission.nests_emit hlabels (by simp [Directive.Plain])).andThen
    fun _ hlabels => nests_popInto hlabels index .int span

end Scope

theorem LoadedBy.plain {table : SymbolTable} {value : Expression} {load : Directive}
    {type : ValueType} (hloaded : LoadedBy table value load type) : load.Plain := by
  cases hloaded <;> trivial

namespace Statement

/-- The number of loops in a statement. -/
def loops : Statement → Nat
  | sequence first second _ => first.loops + second.loops
  | forLoop _ _ _ body _ => body.loops + 1
  | _ => 0

/-- The labels of a loop around those of what is between its entry and its test. -/
theorem nests_loop {scope : Scope} {n m : Nat} (hlabels : scope.labels = n)
    {inner : Scope → Emission}
    (hinner : ∀ scope, scope.labels = n + 2 → (inner scope).Nests (n + 2) m)
    (index : String) (upper : Expression) (span : Span) :
    (scope.openLoop.andThen fun scope =>
      (inner scope).andThen (Scope.test n index upper span)).Nests n m := by
  intro directives scope' hemit
  obtain ⟨opened, _, _, hopen, hemit, rfl⟩ := Emission.andThen_eq_emit.mp hemit
  obtain ⟨rfl, rfl⟩ := Emission.emit_eq_emit.mp hopen
  obtain ⟨closed, directives, _, hbefore, htest, rfl⟩ := Emission.andThen_eq_emit.mp hemit
  obtain ⟨hlabels', hnested⟩ := hinner _ (by simp [hlabels]) _ _ hbefore
  obtain ⟨rfl, symbol, load, -, hloaded, rfl⟩ := Scope.test_eq_emit htest
  refine ⟨hlabels', ?_⟩
  have hplain : ∀ directive ∈ [Directive.loadLocal symbol.slot, load], directive.Plain := by
    simpa [Directive.Plain] using hloaded.plain
  have hloop := Directives.Nested.loop hnested hplain
  subst hlabels
  simpa using hloop

/-- Every loop of a statement takes two labels. -/
theorem nests_emission (statement : Statement) {scope : Scope} {n : Nat}
    (hlabels : scope.labels = n) :
    (statement.emission scope).Nests n (n + 2 * statement.loops) := by
  induction statement generalizing scope n with
  | sequence first second span ihfirst ihsecond =>
      rw [loops, Nat.mul_add, ← Nat.add_assoc]
      exact (ihfirst hlabels).andThen fun _ hlabels => ihsecond hlabels
  | declare name value span =>
      exact Emission.nests_given fun type => (Scope.nests_introduce hlabels name type).andThen
        fun _ hlabels => Scope.nests_assign hlabels name value
  | assign name value span => exact Scope.nests_assign hlabels name value
  | print value span =>
      exact (Scope.nests_push hlabels value .string).andThen
        fun _ hlabels => Emission.nests_emit hlabels (by simp [Directive.Plain])
  | readInt name span =>
      exact (Emission.nests_emit hlabels (by simp [Directive.Plain])).andThen
        fun _ hlabels => Scope.nests_popInto hlabels name .int span
  | forLoop index lower upper body span ih =>
      rw [emission, Scope.loop, loops,
        show n + 2 * (body.loops + 1) = n + 2 + 2 * body.loops by omega]
      refine (Scope.nests_declareIndex hlabels index lower).andThen fun _ hlabels =>
        (Scope.nests_assign hlabels index lower).andThen fun scope hlabels => ?_
      subst hlabels
      simp only [← Emission.andThen_assoc (Statement.emission body _)]
      exact nests_loop rfl (fun _ hlabels => (ih hlabels).andThen
        fun _ hlabels => Scope.nests_increment hlabels index span) index upper span

end Statement

/-! ## Labels in the assembler -/

/-- The label that an instruction names before it is linked. -/
def Instruction.label? : Instruction → Option UInt32
  | jump label => some label
  | branchIfLess label => some label
  | _ => none

namespace Assembler

/-- From the one state to the other no label went wrong: the labels that were there
are as they were, those that are new all have a place, and the new instructions name
new labels only. -/
structure Closes (a b : Assembler) : Prop where
  fault : b.fault = a.fault
  size_le : a.labels.size ≤ b.labels.size
  kept : ∀ i, i < a.labels.size → b.labels[i]? = a.labels[i]?
  placed : ∀ i, a.labels.size ≤ i → i < b.labels.size → ∃ target, b.labels[i]? = some (some target)
  named : ∀ instruction ∈ b.code, instruction ∈ a.code ∨ ∀ label,
    instruction.label? = some label → a.labels.size ≤ label.toNat ∧ label.toNat < b.labels.size

variable {a b c : Assembler}

theorem Closes.refl (a : Assembler) : a.Closes a where
  fault := rfl
  size_le := Nat.le_refl _
  kept _ _ := rfl
  placed _ hle hlt := absurd hlt (Nat.not_lt.mpr hle)
  named _ hmem := .inl hmem

theorem Closes.trans (hab : a.Closes b) (hbc : b.Closes c) : a.Closes c where
  fault := hbc.fault.trans hab.fault
  size_le := Nat.le_trans hab.size_le hbc.size_le
  kept i hlt := (hbc.kept i (Nat.lt_of_lt_of_le hlt hab.size_le)).trans (hab.kept i hlt)
  placed i hle hlt := by
    by_cases hold : i < b.labels.size
    · rw [hbc.kept i hold]
      exact hab.placed i hle hold
    · exact hbc.placed i (Nat.not_lt.mp hold) hlt
  named instruction hmem := by
    have hab_size := hab.size_le
    have hbc_size := hbc.size_le
    rcases hbc.named instruction hmem with hmem | hnamed
    · rcases hab.named instruction hmem with hmem | hnamed
      · exact .inl hmem
      · refine .inr fun label hlabel => ?_
        have hbounds := hnamed label hlabel
        omega
    · refine .inr fun label hlabel => ?_
      have hbounds := hnamed label hlabel
      omega

/-- A state with the same labels and no new jump. -/
theorem Closes.of_labels (hfault : b.fault = a.fault) (hlabels : b.labels = a.labels)
    (hcode : ∀ instruction ∈ b.code, instruction ∈ a.code ∨ instruction.label? = none) :
    a.Closes b where
  fault := hfault
  size_le := Nat.le_of_eq (congrArg Array.size hlabels).symm
  kept _ _ := by rw [hlabels]
  placed i hle hlt := by
    rw [hlabels] at hlt
    exact absurd hlt (Nat.not_lt.mpr hle)
  named instruction hmem := by
    rcases hcode instruction hmem with hmem | hnone
    · exact .inl hmem
    · refine .inr fun label hlabel => ?_
      rw [hnone] at hlabel
      cases hlabel

theorem Closes.emit {instruction : Instruction} (hcloses : a.Closes b)
    (hnamed : ∀ label, instruction.label? = some label →
      a.labels.size ≤ label.toNat ∧ label.toNat < b.labels.size) :
    a.Closes (b.emit instruction) where
  fault := hcloses.fault
  size_le := hcloses.size_le
  kept := hcloses.kept
  placed := hcloses.placed
  named other hmem := by
    rcases Array.mem_push.mp hmem with hmem | rfl
    · exact hcloses.named other hmem
    · exact .inr hnamed

theorem closes_emit (a : Assembler) {instruction : Instruction}
    (hnone : instruction.label? = none) : a.Closes (a.emit instruction) :=
  (Closes.refl a).emit fun label hlabel => by
    rw [hnone] at hlabel
    cases hlabel

theorem closes_apply_of_plain (a : Assembler) {directive : Directive} (hplain : directive.Plain) :
    a.Closes (a.apply directive) := by
  cases directive with
  | declareLocal type => exact .of_labels rfl rfl fun _ hmem => .inl hmem
  | loadConstant constant =>
      obtain ⟨index, hload, -⟩ := exists_index_of_loadConstant (a := a) constant
      rw [apply, hload]
      refine .trans ?_ (closes_emit _ rfl)
      exact .of_labels rfl rfl fun _ hmem => .inl hmem
  | loadLocal slot => exact a.closes_emit rfl
  | storeLocal slot => exact a.closes_emit rfl
  | addInt => exact a.closes_emit rfl
  | callHost function => exact a.closes_emit rfl
  | intToString => exact a.closes_emit rfl
  | defineLabel => exact hplain.elim
  | markLabel label => exact hplain.elim
  | jump label => exact hplain.elim
  | branchIfLess label => exact hplain.elim

theorem applyAll_append (a : Assembler) (first second : List Directive) :
    a.applyAll (first ++ second) = (a.applyAll first).applyAll second :=
  List.foldl_append

theorem labels_apply_of_plain (a : Assembler) {directive : Directive} (hplain : directive.Plain) :
    (a.apply directive).labels = a.labels := by
  cases directive with
  | loadConstant constant =>
      obtain ⟨index, hload, -⟩ := exists_index_of_loadConstant (a := a) constant
      rw [apply, hload]
      rfl
  | defineLabel => exact hplain.elim
  | markLabel label => exact hplain.elim
  | jump label => exact hplain.elim
  | branchIfLess label => exact hplain.elim
  | _ => rfl

theorem closes_applyAll_of_plain (a : Assembler) {directives : List Directive}
    (hplain : ∀ directive ∈ directives, directive.Plain) : a.Closes (a.applyAll directives) := by
  induction directives generalizing a with
  | nil => exact .refl a
  | cons directive rest ih =>
      rw [List.forall_mem_cons] at hplain
      exact (a.closes_apply_of_plain hplain.1).trans (ih (a.apply directive) hplain.2)

theorem labels_applyAll_of_plain (a : Assembler) {directives : List Directive}
    (hplain : ∀ directive ∈ directives, directive.Plain) :
    (a.applyAll directives).labels = a.labels := by
  induction directives generalizing a with
  | nil => rfl
  | cons directive rest ih =>
      rw [List.forall_mem_cons] at hplain
      exact (ih (a.apply directive) hplain.2).trans (a.labels_apply_of_plain hplain.1)

theorem size_labels_placeLabel (a : Assembler) (label : UInt32) :
    (a.placeLabel label).labels.size = a.labels.size := by
  obtain ⟨-, hplace⟩ | ⟨error, hplace⟩ := a.placeLabel_cases label
  · simp [hplace]
  · simp [hplace, blame]

/-- The state in which the body of a loop starts: the label of the test has no place
yet, and the label of the body has the next one. -/
def openLoop (a : Assembler) (n : Nat) : Assembler :=
  { a with
    code := a.code.push (.jump (UInt32.ofNat n))
    labels := (a.labels.push none).push (some (UInt32.ofNat (a.code.size + 1))) }

theorem applyAll_loopEntry {n : Nat} (hsize : a.labels.size = n) (hn : n + 2 ≤ UInt32.size) :
    a.applyAll [.defineLabel, .jump (UInt32.ofNat n), .defineLabel,
      .markLabel (UInt32.ofNat (n + 1))] = a.openLoop n := by
  have hlabel : (UInt32.ofNat (n + 1)).toNat = n + 1 := UInt32.toNat_ofNat_of_lt' (by omega)
  have hunplaced : ((a.labels.push none).push none)[n + 1]? = some (none : Option UInt32) := by
    rw [Array.getElem?_push, if_pos (by simp [hsize])]
  have hplaced : ∀ place : Option UInt32, ((a.labels.push none).push none).setIfInBounds (n + 1)
      place = (a.labels.push none).push place := by
    intro place
    apply Array.ext_getElem?
    intro i
    simp only [Array.getElem?_setIfInBounds, Array.getElem?_push, Array.size_push, hsize]
    by_cases hi : n + 1 = i
    · rw [if_pos hi, if_pos (by omega), if_pos hi.symm]
    · rw [if_neg hi, if_neg (Ne.symm hi), if_neg (Ne.symm hi)]
  simp only [applyAll, List.foldl_cons, List.foldl_nil, apply, Assembler.emit, placeLabel, hlabel,
    hunplaced, hplaced, openLoop, Array.size_push]

/-- The mark of the test closes a loop. -/
theorem Closes.placeTest {n : Nat} (hsize : a.labels.size = n) (hn : n + 2 ≤ UInt32.size)
    (hinner : (a.openLoop n).Closes b) : a.Closes (b.placeLabel (UInt32.ofNat n)) := by
  have hlabel : (UInt32.ofNat n).toNat = n := UInt32.toNat_ofNat_of_lt' (by omega)
  have hopened : (a.openLoop n).labels.size = n + 2 := by simp [openLoop, hsize]
  have hgrown := hinner.size_le
  rw [hopened] at hgrown
  have htest : b.labels[n]? = some none := by
    rw [hinner.kept n (by omega)]
    simp only [openLoop, Array.getElem?_push, Array.size_push, hsize]
    rw [if_neg (by omega), if_pos trivial]
  have hbody : ∃ target, b.labels[n + 1]? = some (some target) := by
    rw [hinner.kept (n + 1) (by omega)]
    simp only [openLoop, Array.getElem?_push, Array.size_push, hsize]
    exact ⟨_, if_pos trivial⟩
  have hold : ∀ i, i < n → b.labels[i]? = a.labels[i]? := by
    intro i hi
    rw [hinner.kept i (by omega)]
    simp only [openLoop, Array.getElem?_push, Array.size_push, hsize]
    rw [if_neg (by omega), if_neg (by omega)]
  have hplace : b.placeLabel (UInt32.ofNat n) =
      { b with labels := b.labels.setIfInBounds n (some (UInt32.ofNat b.code.size)) } := by
    simp [placeLabel, hlabel, htest]
  rw [hplace]
  refine ⟨hinner.fault, ?_, ?_, ?_, ?_⟩
  · simp only [Array.size_setIfInBounds]
    omega
  · intro i hi
    rw [hsize] at hi
    rw [Array.getElem?_setIfInBounds, if_neg (by omega), hold i hi]
  · intro i hle hlt
    simp only [Array.size_setIfInBounds, hsize] at hle hlt
    rw [Array.getElem?_setIfInBounds]
    by_cases hi : n = i
    · rw [if_pos hi, if_pos (by omega)]
      exact ⟨_, rfl⟩
    · rw [if_neg hi]
      by_cases hi' : i = n + 1
      · rw [hi']
        exact hbody
      · exact hinner.placed i (by omega) hlt
  · intro instruction hmem
    simp only [Array.size_setIfInBounds, hsize]
    rcases hinner.named instruction hmem with hmem | hnamed
    · rcases Array.mem_push.mp hmem with hmem | rfl
      · exact .inl hmem
      · refine .inr fun label hjump => ?_
        cases hjump
        omega
    · refine .inr fun label hjump => ?_
      have hbounds := hnamed label hjump
      omega

/-- Directives that are nested close their labels. -/
theorem closes_of_nested {directives : List Directive} {n m : Nat}
    (hnested : Directives.Nested n directives m) (hm : m ≤ UInt32.size)
    (hsize : a.labels.size = n) :
    a.Closes (a.applyAll directives) ∧ (a.applyAll directives).labels.size = m := by
  induction hnested generalizing a with
  | nil => exact ⟨.refl a, hsize⟩
  | plain _ hplain =>
      refine ⟨a.closes_apply_of_plain hplain, ?_⟩
      rw [← hsize, applyAll, List.foldl_cons, List.foldl_nil, a.labels_apply_of_plain hplain]
  | append hfirst hsecond ihfirst ihsecond =>
      rw [applyAll_append]
      obtain ⟨hcloses, hsize'⟩ := ihfirst (Nat.le_trans hsecond.le hm) hsize
      obtain ⟨hcloses', hsize''⟩ := ihsecond hm hsize'
      exact ⟨hcloses.trans hcloses', hsize''⟩
  | @loop n m inner test hinner htest ih =>
      have hle := hinner.le
      have hn : n + 2 ≤ UInt32.size := Nat.le_trans hle hm
      rw [applyAll_append, applyAll_append, applyAll_append, applyAll_append,
        applyAll_loopEntry hsize hn]
      obtain ⟨hcloses, hsize'⟩ := ih (a := a.openLoop n) hm (by simp [openLoop, hsize])
      have hbody : (UInt32.ofNat (n + 1)).toNat = n + 1 := UInt32.toNat_ofNat_of_lt' (by omega)
      have hclosed := (hcloses.placeTest hsize hn).trans (closes_applyAll_of_plain _ htest)
      have hsize'' : (((Assembler.applyAll (a.openLoop n) inner).placeLabel
          (UInt32.ofNat n)).applyAll test).labels.size = m := by
        rw [labels_applyAll_of_plain _ htest, size_labels_placeLabel, hsize']
      refine ⟨hclosed.emit fun label hlabel => ?_, hsize''⟩
      cases hlabel
      rw [hsize'', hbody, hsize]
      omega

/-! ## Linking -/

theorem exists_link {instruction : Instruction}
    (hplaced : ∀ label, instruction.label? = some label →
      ∃ target, a.labels[label.toNat]? = some (some target)) :
    ∃ linked, a.link instruction = .ok linked := by
  cases instruction with
  | jump label =>
      obtain ⟨target, htarget⟩ := hplaced label rfl
      exact ⟨.jump target, by simp [link, Assembler.target, htarget, Except.map]⟩
  | branchIfLess label =>
      obtain ⟨target, htarget⟩ := hplaced label rfl
      exact ⟨.branchIfLess target, by simp [link, Assembler.target, htarget, Except.map]⟩
  | _ => exact ⟨_, rfl⟩

theorem exists_mapM_link {code : List Instruction}
    (hlink : ∀ instruction ∈ code, ∃ linked, a.link instruction = .ok linked) :
    ∃ linked, code.mapM a.link = .ok linked := by
  induction code with
  | nil => exact ⟨[], rfl⟩
  | cons instruction rest ih =>
      rw [List.forall_mem_cons] at hlink
      obtain ⟨⟨first, hfirst⟩, hrest⟩ := hlink
      obtain ⟨linked, hlinked⟩ := ih hrest
      exact ⟨first :: linked, by rw [List.mapM_cons, hfirst, hlinked]; rfl⟩

/-- A state without a fault in which all labels that are named have a place can be
finished. -/
theorem exists_finish (hfault : a.fault = none)
    (hplaced : ∀ instruction ∈ a.code.toList, ∀ label, instruction.label? = some label →
      ∃ target, a.labels[label.toNat]? = some (some target)) (name entry : String) :
    ∃ m, a.finish name entry = .ok m := by
  obtain ⟨linked, hlinked⟩ :=
    exists_mapM_link fun instruction hmem => exists_link (hplaced instruction hmem)
  refine ⟨{ name, entry, locals := a.locals, constants := a.constants,
            code := linked.toArray.push .ret }, ?_⟩
  rw [finish, hfault]
  simp only [hlinked]
  rfl

/-- A state in which all labels are closed can be finished. -/
theorem Closes.exists_finish (hcloses : Assembler.empty.Closes a) (name entry : String) :
    ∃ m, a.finish name entry = .ok m := by
  refine Assembler.exists_finish hcloses.fault (fun instruction hmem label hlabel => ?_) name entry
  rcases hcloses.named instruction (Array.mem_toList_iff.mp hmem) with hmem | hnamed
  · exact absurd hmem (Array.not_mem_empty instruction)
  · obtain ⟨hle, hlt⟩ := hnamed label hlabel
    exact hcloses.placed label.toNat hle hlt

end Assembler

/-- A program that can be lowered can be assembled. -/
theorem Statement.exists_assemble {program : Statement} {directives : List Directive}
    {scope : Scope} (hemission : program.emission .empty = .emit directives scope)
    (hlabels : 2 * program.loops ≤ UInt32.size) (name entry : String) :
    ∃ m, assemble name entry directives = .ok m := by
  obtain ⟨-, hnested⟩ := program.nests_emission (n := 0) rfl _ _ hemission
  rw [Nat.zero_add] at hnested
  have hempty : Assembler.empty.labels.size = 0 := rfl
  obtain ⟨hcloses, -⟩ := Assembler.closes_of_nested hnested hlabels hempty
  exact hcloses.exists_finish name entry

end SlotLang
