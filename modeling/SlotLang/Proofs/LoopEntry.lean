import SlotLang.Proofs.EnteredStatements
import SlotLang.Proofs.FreshDeclarations

/-!
# The first test of a loop

A loop that is entered stores its lower bound in its index and goes to the test, past its
body.  The test stands after the body in the code, so the index and the upper bound are
looked up with the names that the body declares.  What the test finds is decided by the
slots of these names, and not by the bounds alone.

As long as the body declares neither the index nor a name of the upper bound again, the two
have the slots that they had at the entry.  Then a loop whose lower bound is not less than
the upper one leaves its body alone, and its index has the lower bound in the end.

* `Statement.Declares` — the names that a body declares.
* `CodeModule.run_of_chain` — the states of a run that makes no calls.
* `Placed.exists_entry` — the states from the entry of a loop to the end of its test.
* `Memory.test_of_not_declares` — the first test, if the names keep their slots.
* `Statement.run_enters_loop` — what happens when a loop is entered.
-/

namespace SlotLang

/-! ## Names that keep their slots -/

/-- Somewhere in the statement there is a declaration of the name. -/
def Statement.Declares (target : String) : Statement → Prop
  | sequence first second _ => first.Declares target ∨ second.Declares target
  | declare name _ _ => name = target
  | assign _ _ _ => False
  | print _ _ => False
  | readInt _ _ => False
  | forLoop _ _ _ body _ => body.Declares target

instance Statement.decidableDeclares (target : String) :
    (statement : Statement) → Decidable (statement.Declares target)
  | sequence first second _ =>
      have := decidableDeclares target first
      have := decidableDeclares target second
      inferInstanceAs (Decidable (first.Declares target ∨ second.Declares target))
  | declare name _ _ => inferInstanceAs (Decidable (name = target))
  | assign _ _ _ => inferInstanceAs (Decidable False)
  | print _ _ => inferInstanceAs (Decidable False)
  | readInt _ _ => inferInstanceAs (Decidable False)
  | forLoop _ _ _ body _ => decidableDeclares target body

/-- A name keeps its slot as long as it is not declared again.  The index of a loop is only
declared if it has no slot. -/
theorem Statement.lookup_tableAfter_of_not_declares {statement : Statement} {target : String}
    (hdeclares : ¬ statement.Declares target) {table : SymbolTable} {symbol : Symbol}
    (hlookup : table.lookup target = some symbol) :
    (statement.tableAfter table).lookup target = some symbol := by
  induction statement generalizing table with
  | sequence first second span ihfirst ihsecond =>
      obtain ⟨hfirst, hsecond⟩ := not_or.mp hdeclares
      exact ihsecond hsecond (ihfirst hfirst hlookup)
  | declare name value span =>
      rw [tableAfter, table.lookup_declareValue_of_ne value (Ne.symm hdeclares)]
      exact hlookup
  | assign name value span => exact hlookup
  | print value span => exact hlookup
  | readInt name span => exact hlookup
  | forLoop index lower upper body span ih =>
      exact ih hdeclares (table.keeps_declareIndex index target symbol hlookup)

namespace Memory

/-- A name that is read has a slot, and is read in the same way as long as it keeps it. -/
theorem read_slots_of_not_declares {body : Statement} {target : String}
    (hdeclares : ¬ body.Declares target) {table : SymbolTable} {store store' : Array Value}
    {value : Value} (hread : slots.read table target store = some value) :
    slots.read (body.tableAfter table) target store' = slots.read table target store' := by
  obtain ⟨symbol, hlookup, -⟩ := Option.bind_eq_some_iff.mp hread
  apply read_slots_congr
  rw [hlookup, Statement.lookup_tableAfter_of_not_declares hdeclares hlookup]

/-- The first test of a loop fails if the lower bound is not less than the upper one and the
body declares none of the names that the test looks up. -/
theorem test_of_not_declares {table : SymbolTable} (hnumbered : table.Numbered)
    (hlength : table.length ≤ UInt32.size) {index : String} {lower upper : Expression}
    {body : Statement} (hindex : ¬ body.Declares index)
    (hnames : ∀ use ∈ upper.names, ¬ body.Declares use.name) {store store' : Array Value}
    (hassign : slots.assign table index lower store = some store') {p q : Int32}
    (hlower : slots.value table lower store = some (.int p))
    (hupper : slots.value table upper store = some (.int q)) (hle : q ≤ p) :
    slots.test (body.tableAfter table) index upper store' = some false ∧
      slots.read (body.tableAfter table) index store' = some (.int p) := by
  have hwrite : slots.write table index (.int p) store = some store' := by
    rwa [assign, hlower] at hassign
  obtain ⟨hread, hothers⟩ := read_slots_of_write hnumbered hlength hwrite
  have hindexRead : slots.read (body.tableAfter table) index store' = some (.int p) :=
    (read_slots_of_not_declares hindex hread).trans hread
  -- The bound is what it was at the entry, or it is the index itself.
  obtain ⟨bound, hbound, hcases⟩ : ∃ bound,
      slots.value (body.tableAfter table) upper store' = some (.int bound) ∧
        (bound = p ∨ bound = q) := by
    cases upper with
    | string text span => cases hupper
    | integer n span =>
        cases hupper
        exact ⟨q, rfl, .inr rfl⟩
    | name other span =>
        have hother : ¬ body.Declares other := hnames ⟨other, span⟩ (List.mem_singleton.mpr rfl)
        have hsame : slots.read (body.tableAfter table) other store' =
            slots.read table other store' := read_slots_of_not_declares hother hupper
        by_cases heq : other = index
        · subst heq
          exact ⟨p, hindexRead, .inl rfl⟩
        · exact ⟨q, (hsame.trans (hothers other heq)).trans hupper, .inr rfl⟩
    | binary operator left right span => cases hupper
  refine ⟨?_, hindexRead⟩
  have hnot : ¬ p < bound := by
    rw [Int32.lt_iff_toInt_lt]
    rw [Int32.le_iff_toInt_le] at hle
    rcases hcases with rfl | rfl <;> omega
  rw [test, readInteger, integer, hindexRead, hbound]
  simp only [decide_eq_false hnot]

end Memory

/-! ## The states of the entry -/

/-- Where a run makes no calls, it goes from state to state. -/
theorem CodeModule.run_of_chain {σ : Type} {m : CodeModule} {host : Host σ} {steps : Nat}
    {h h' : σ} {state : MachineState} {rest : List MachineState}
    (hchain : (state :: rest).IsChain fun first second => m.step first = .next second)
    (hrun : m.run host steps h = .outOfFuel state h') {k : Nat} {state' : MachineState}
    (hk : (state :: rest)[k]? = some state') :
    m.run host (steps + k) h = .outOfFuel state' h' := by
  induction rest generalizing state steps k with
  | nil =>
      cases k with
      | zero =>
          cases hk
          exact hrun
      | succ k => cases hk
  | cons next rest ih =>
      obtain ⟨hstep, hrest⟩ := List.isChain_cons_cons.mp hchain
      cases k with
      | zero =>
          cases hk
          exact hrun
      | succ k =>
          have hleads : m.Leads host steps (.start m, h) (state, h') := hrun
          have hnext : m.run host (steps + 1) h = .outOfFuel next h' :=
            hleads.trans (.of_next hstep h')
          rw [show steps + (k + 1) = steps + 1 + k by omega]
          exact ih hrest hnext hk

theorem CodeModule.mem_chain_of_run {σ : Type} {m : CodeModule} {host : Host σ} {steps : Nat}
    {h h' : σ} {state : MachineState} {rest : List MachineState}
    (hchain : (state :: rest).IsChain fun first second => m.step first = .next second)
    (hrun : m.run host steps h = .outOfFuel state h') {k : Nat} (hk : k ≤ rest.length)
    {state' : MachineState} {h'' : σ} (hlater : m.run host (steps + k) h = .outOfFuel state' h'') :
    state' ∈ state :: rest := by
  obtain ⟨found, hfound⟩ : ∃ found, (state :: rest)[k]? = some found :=
    ⟨_, List.getElem?_eq_getElem (Nat.lt_succ_of_le hk)⟩
  rw [run_of_chain hchain hrun hfound] at hlater
  cases hlater
  exact List.mem_of_getElem? hfound

/-- The states that a loop goes through when it is entered: the load and the store of the
lower bound, the jump past the body, and the three instructions of the test. -/
theorem Placed.exists_entry {m : CodeModule} {index : String} {lower upper : Expression}
    {body : Statement} {span : Span} {table : SymbolTable} {start stop : Nat}
    (hplaced : Placed m (.forLoop index lower upper body span) table start stop)
    {store : Array Value} (htypes : m.Types store) (stack : List Value) :
    ∃ v store' n bound,
      Memory.slots.assign (table.declareIndex index) index lower store = some store' ∧
      Memory.slots.test (body.tableAfter (table.declareIndex index)) index upper store' =
        some (decide (n < bound)) ∧
      [⟨start, stack, store⟩, ⟨start + 1, v :: stack, store⟩, ⟨start + 2, stack, store'⟩,
        ⟨stop - 3, stack, store'⟩, ⟨stop - 2, .int n :: stack, store'⟩,
        ⟨stop - 1, .int bound :: .int n :: stack, store'⟩,
        ⟨if n < bound then start + 3 else stop, stack, store'⟩].IsChain
          fun first second : MachineState => m.step first = .next second := by
  cases hplaced with
  | @forLoop _ _ _ _ _ _ _ middle type entry back hlower hinit hjump hentry hbody hindex hone hadd
      hnext htest hupper hbranch hback =>
      have hmiddle := hbody.lt
      have hsize := htest.lt_size
      obtain ⟨v, hvalue, rfl, hpush⟩ := hlower.step htypes
      obtain ⟨store', hwrite, htypes', hpop⟩ := hinit.step htypes
      obtain ⟨n, hn, hpushIndex⟩ := htest.step_integer htypes'
      obtain ⟨bound, hbound, hpushUpper⟩ := hupper.step_integer htypes'
      have henter : m.step ⟨start + 2, stack, store'⟩ = .next ⟨middle + 4, stack, store'⟩ := by
        rw [← hentry]
        exact CodeModule.step_jump hjump (by omega)
      have hcompare : m.step ⟨middle + 6, .int bound :: .int n :: stack, store'⟩ =
          .next ⟨if n < bound then start + 3 else middle + 7, stack, store'⟩ := by
        rw [← hback]
        exact CodeModule.step_branchIfLess hbranch (by omega)
      refine ⟨v, store', n, bound, ?_, ?_, ?_⟩
      · rw [Memory.assign, hvalue]
        exact hwrite
      · have hread : Memory.slots.read (body.tableAfter (table.declareIndex index)) index store' =
            some (.int n) := hn
        rw [Memory.test, Memory.readInteger, Memory.integer, hread, hbound]
      · simp only [List.isChain_cons_cons]
        exact ⟨hpush stack, hpop stack, henter, hpushIndex stack, hpushUpper _, hcompare,
          .singleton _⟩

/-! ## Entered loops -/

/-- The position is that of an instruction of the statement. -/
def Place.Contains (place : Place) (position : Nat) : Prop :=
  place.start ≤ position ∧ position < place.start + place.length

instance (place : Place) (position : Nat) : Decidable (place.Contains position) :=
  inferInstanceAs (Decidable (_ ∧ _))

/-- Every statement of a program has a place, and a loop that a run comes to stores its lower
bound in its index and tests it, and goes on in its body or at its end.  The test sees the
names as they are after the body.  If the body declares neither the index nor a name in the
upper bound, and the lower bound is not less than the upper one, then no instruction of the
body is executed, and the index has the lower bound at the end of the loop. -/
theorem Statement.run_enters_loop (program : Statement) :
    (program.places [] 0).map Place.node = program.nodes ∧
    ∀ {name : String} {m : CodeModule}, program.compile name = .ok m →
      m.code.size ≤ UInt32.size → ∀ {index : String} {lower upper : Expression}
      {body : Statement} {span : Span} {table : SymbolTable} {start : Nat},
      ⟨.forLoop index lower upper body span, table, start⟩ ∈ program.places [] 0 → ∀ {σ : Type}
      {host : Host σ} {steps : Nat} {h h' : σ} {stack : List Value} {store : Array Value},
      m.run host steps h = .outOfFuel ⟨start, stack, store⟩ h' →
      ∃ store', Memory.slots.assign (table.declareIndex index) index lower store = some store' ∧
        (∃ less,
          Memory.slots.test (body.tableAfter (table.declareIndex index)) index upper store' =
            some less ∧
          m.run host (steps + 6) h = .outOfFuel
            ⟨if less then start + 3
              else start + (forLoop index lower upper body span).codeLength table,
              stack, store'⟩ h') ∧
        ∀ p q, Memory.slots.value (table.declareIndex index) lower store = some (.int p) →
          Memory.slots.value (table.declareIndex index) upper store = some (.int q) → q ≤ p →
          ¬ body.Declares index → (∀ use ∈ upper.names, ¬ body.Declares use.name) →
          m.run host (steps + 6) h = .outOfFuel
              ⟨start + (forLoop index lower upper body span).codeLength table, stack, store'⟩
              h' ∧
            (∀ k ≤ 6, ∀ state h'', m.run host (steps + k) h = .outOfFuel state h'' →
              ¬ Place.Contains ⟨body, table.declareIndex index, start + 3⟩ state.position) ∧
            Memory.slots.read (body.tableAfter (table.declareIndex index)) index store' =
              some (.int p) := by
  refine ⟨program.map_node_places [] 0, ?_⟩
  intro name m hcompile hsize index lower upper body span table start hplace σ host steps h h'
    stack store hrun
  obtain ⟨hplaced, hnumbered, hlength⟩ := program.holds_of_compile hcompile hsize _ hplace
  have htypes : m.Types store := types_of_run hcompile hsize hrun
  obtain ⟨v, store', n, bound, hassign, htest, hchain⟩ := hplaced.exists_entry htypes stack
  have hafter := CodeModule.run_of_chain hchain hrun (k := 6) rfl
  refine ⟨store', hassign, ⟨_, htest, by simpa [Place.length] using hafter⟩, ?_⟩
  intro p q hlower hupper hle hindex hnames
  have hshort : (table.declareIndex index).length ≤ UInt32.size :=
    Nat.le_trans (body.suffix_tableAfter _).length_le hlength
  obtain ⟨hfalse, hread⟩ := Memory.test_of_not_declares (hnumbered.declareIndex index) hshort
    hindex hnames hassign hlower hupper hle
  have hnot : ¬ n < bound := by
    rw [htest, Option.some.injEq, decide_eq_false_iff_not] at hfalse
    exact hfalse
  rw [if_neg hnot] at hafter hchain
  refine ⟨hafter, fun k hk state h'' hlater => ?_, hread⟩
  have hmem := CodeModule.mem_chain_of_run hchain hrun hk hlater
  simp only [Place.Contains, Place.length, codeLength, List.mem_cons, List.not_mem_nil, or_false]
    at hmem ⊢
  rcases hmem with rfl | rfl | rfl | rfl | rfl | rfl | rfl <;> dsimp only <;> omega

/-- The body of a loop, with another loop that has the same index. -/
def Statement.idleBody : Statement :=
  .sequence
    (.forLoop "i" (.integer 0 ⟨55, 56⟩) (.integer 1 ⟨60, 61⟩)
      (.declare "t" (.name "i" ⟨73, 74⟩) ⟨65, 74⟩) ⟨47, 78⟩)
    (.assign "n" (.integer 9 ⟨84, 85⟩) ⟨80, 85⟩) ⟨47, 85⟩

/-- A loop that is entered twice and has no round. -/
def Statement.idle : Statement :=
  .sequence (.declare "n" (.integer 0 ⟨8, 9⟩) ⟨0, 9⟩)
    (.forLoop "j" (.integer 0 ⟨19, 20⟩) (.integer 2 ⟨24, 25⟩)
      (.forLoop "i" (.name "j" ⟨37, 38⟩) (.name "n" ⟨42, 43⟩) idleBody ⟨29, 89⟩) ⟨11, 93⟩) ⟨0, 93⟩

/-- The module of that program. -/
def CodeModule.idle : CodeModule where
  name := "idle"
  entry := "main"
  locals := #[.int, .int, .int, .int]
  constants := #[.int 0, .int 1, .int 9, .int 2]
  code := #[.constant 0, .storeLocal 0, .constant 0, .storeLocal 1, .jump 33, .loadLocal 1,
    .storeLocal 2, .jump 26, .constant 0, .storeLocal 2, .jump 17, .loadLocal 2, .storeLocal 3,
    .loadLocal 2, .constant 1, .addInt, .storeLocal 2, .loadLocal 2, .constant 1,
    .branchIfLess 11, .constant 2, .storeLocal 0, .loadLocal 2, .constant 1, .addInt,
    .storeLocal 2, .loadLocal 2, .loadLocal 0, .branchIfLess 8, .loadLocal 1, .constant 1,
    .addInt, .storeLocal 1, .loadLocal 1, .constant 3, .branchIfLess 5, .ret]

/-- The second time that the loop is entered, its index goes from 0 to 1 and its body is
left alone. -/
theorem Statement.idle_run_enters_loop :
    Statement.idle.compile "idle" = .ok CodeModule.idle ∧
      CodeModule.idle.code.size ≤ UInt32.size ∧
      ⟨.forLoop "i" (.name "j" ⟨37, 38⟩) (.name "n" ⟨42, 43⟩) idleBody ⟨29, 89⟩,
        [("j", ⟨1, .int⟩), ("n", ⟨0, .int⟩)], 5⟩ ∈ Statement.idle.places [] 0 ∧
      CodeModule.idle.run Script.host 21 (Script.start [] none none) =
        .outOfFuel ⟨5, [], #[.int 0, .int 1, .int 0, .int 0]⟩ (Script.start [] none none) ∧
      ¬ idleBody.Declares "i" ∧ ¬ idleBody.Declares "n" ∧
      CodeModule.idle.run Script.host (21 + 6) (Script.start [] none none) =
        .outOfFuel ⟨29, [], #[.int 0, .int 1, .int 1, .int 0]⟩ (Script.start [] none none) ∧
      ∀ k ≤ 6, ∀ state script,
        CodeModule.idle.run Script.host (21 + k) (Script.start [] none none) =
          .outOfFuel state script → ¬ (8 ≤ state.position ∧ state.position < 22) := by
  have hcompile : Statement.idle.compile "idle" = .ok CodeModule.idle :=
    eq_ok_of_toOption (by decide +kernel)
  have hsize : CodeModule.idle.code.size ≤ UInt32.size := by decide
  have hplace : ⟨.forLoop "i" (.name "j" ⟨37, 38⟩) (.name "n" ⟨42, 43⟩) idleBody ⟨29, 89⟩,
      [("j", ⟨1, .int⟩), ("n", ⟨0, .int⟩)], 5⟩ ∈ Statement.idle.places [] 0 :=
    List.mem_of_getElem? (i := 3) rfl
  have hrun : CodeModule.idle.run Script.host 21 (Script.start [] none none) =
      .outOfFuel ⟨5, [], #[.int 0, .int 1, .int 0, .int 0]⟩ (Script.start [] none none) := by
    with_unfolding_all rfl
  have hindex : ¬ idleBody.Declares "i" := by decide
  have hbound : ¬ idleBody.Declares "n" := by decide
  obtain ⟨-, henters⟩ := Statement.idle.run_enters_loop
  obtain ⟨store, hassign, -, hskips⟩ := henters hcompile hsize hplace hrun
  obtain ⟨hafter, houtside, -⟩ := hskips 1 0 rfl rfl (by decide) hindex
    fun use huse => List.mem_singleton.mp huse ▸ hbound
  cases hassign
  exact ⟨hcompile, hsize, hplace, hrun, hindex, hbound, hafter, houtside⟩

/-- A loop that declares its own index. -/
def Statement.reindexing : Statement :=
  .forLoop "i" (.integer 5 ⟨8, 9⟩) (.integer 3 ⟨13, 14⟩)
    (.sequence (.declare "i" (.integer 9 ⟨26, 27⟩) ⟨18, 27⟩)
      (.print (.name "i" ⟨35, 36⟩) ⟨29, 36⟩) ⟨18, 36⟩) ⟨0, 40⟩

/-- The module of that program. -/
def CodeModule.reindexing : CodeModule where
  name := "reindexing"
  entry := "main"
  locals := #[.int, .int]
  constants := #[.int 5, .int 9, .int 1, .int 3]
  code := #[.constant 0, .storeLocal 0, .jump 12, .constant 1, .storeLocal 1, .loadLocal 1,
    .intToString, .callHost .writeLine, .loadLocal 1, .constant 2, .addInt, .storeLocal 1,
    .loadLocal 1, .constant 3, .branchIfLess 3, .ret]

/-- A loop whose lower bound is not less than the upper one need not leave its body alone: in
`for i = 5 to 3 do var i = 9; print i end` the body is executed. -/
theorem Statement.run_enters_body_of_empty_range :
    ¬ ∀ (program : Statement) (name : String) (m : CodeModule) (index : String)
        (lower upper : Expression) (body : Statement) (span : Span) (table : SymbolTable)
        (start steps : Nat) (stack : List Value) (store : Array Value) (h h' : Script)
        (p q : Int32),
      program.compile name = .ok m → m.code.size ≤ UInt32.size →
      ⟨.forLoop index lower upper body span, table, start⟩ ∈ program.places [] 0 →
      m.run Script.host steps h = .outOfFuel ⟨start, stack, store⟩ h' →
      Memory.slots.value (table.declareIndex index) lower store = some (.int p) →
      Memory.slots.value (table.declareIndex index) upper store = some (.int q) → q ≤ p →
      ∃ more store', m.run Script.host (steps + more) h = .outOfFuel
          ⟨start + (forLoop index lower upper body span).codeLength table, stack, store'⟩ h' ∧
        (∀ k ≤ more, ∀ state h'', m.run Script.host (steps + k) h = .outOfFuel state h'' →
          ¬ Place.Contains ⟨body, table.declareIndex index, start + 3⟩ state.position) ∧
        Memory.slots.read (body.tableAfter (table.declareIndex index)) index store' =
          some (.int p) := by
  intro hall
  have hcompile : Statement.reindexing.compile "reindexing" = .ok CodeModule.reindexing :=
    eq_ok_of_toOption (by decide +kernel)
  have hentered : CodeModule.reindexing.run Script.host 0 (Script.start [] none none) =
      .outOfFuel ⟨0, [], #[.int 0, .int 0]⟩ (Script.start [] none none) := by
    with_unfolding_all rfl
  obtain ⟨more, store, hend, houtside, -⟩ := hall _ _ _ "i" _ _ _ _ [] 0 0 _ _ _ _ 5 3 hcompile
    (by decide) (List.mem_of_getElem? (i := 0) rfl) hentered rfl rfl (by decide)
  by_cases hmore : 6 ≤ more
  · -- After six steps the machine stands at the first instruction of the body.
    exact houtside 6 hmore ⟨3, [], #[.int 5, .int 0]⟩ (Script.start [] none none)
      (by with_unfolding_all rfl) (by decide)
  · -- Before, it has not come to the end of the loop.
    have hchain : [⟨0, [], #[.int 0, .int 0]⟩, ⟨1, [.int 5], #[.int 0, .int 0]⟩,
        ⟨2, [], #[.int 5, .int 0]⟩, ⟨12, [], #[.int 5, .int 0]⟩,
        ⟨13, [.int 0], #[.int 5, .int 0]⟩, ⟨14, [.int 3, .int 0], #[.int 5, .int 0]⟩].IsChain
          fun first second : MachineState => CodeModule.reindexing.step first = .next second := by
      simp only [List.isChain_cons_cons]
      exact ⟨rfl, rfl, rfl, rfl, rfl, .singleton _⟩
    have hend : CodeModule.reindexing.run Script.host (0 + more) (Script.start [] none none) =
        .outOfFuel ⟨15, [], store⟩ (Script.start [] none none) := hend
    have hmem := CodeModule.mem_chain_of_run hchain hentered (show more ≤ 5 by omega) hend
    simp at hmem

end SlotLang
