import SlotLang.Machine.Script
import SlotLang.Proofs.Interpreter
import SlotLang.Proofs.LoweredCode
import SlotLang.Proofs.MachineSteps

/-!
# One memory in place of another

The interpreter goes the same way on two memories if the second one answers every
access as the first one does.  It is enough to know this of the accesses that the
statement has, so a simulation comes with a condition on the name and the table at
an access.

An access may fail in the first memory.  Then nothing is asked of the second one
from there on, and what is left to say is that both had made the same calls: the
host keeps a record, and the record of the first execution is a part of the record
of the second.

* `Statement.Accesses` — a condition on all the accesses of a statement.
* `Memory.Simulates` — one memory answers as another does.
* `Statement.matches_exec` — statements go the same way on both.
-/

namespace SlotLang

/-! ## The accesses of a statement -/

/-- The names that an expression uses. -/
def Expression.Accesses (ok : SymbolTable → String → Prop) (table : SymbolTable) :
    Expression → Prop
  | .name used _ => ok table used
  | _ => True

/-- Every access to a variable in a statement is good, with the table at the
access. -/
def Statement.Accesses (ok : SymbolTable → String → Prop) : Statement → SymbolTable → Prop
  | sequence first second _, table =>
      first.Accesses ok table ∧ second.Accesses ok (first.tableAfter table)
  | declare name value _, table =>
      value.Accesses ok (table.declareValue name value) ∧ ok (table.declareValue name value) name
  | assign name value _, table => value.Accesses ok table ∧ ok table name
  | print value _, table => value.Accesses ok table
  | readInt name _, table => ok table name
  | forLoop index lower upper body _, table =>
      lower.Accesses ok (table.declareIndex index) ∧ ok (table.declareIndex index) index ∧
        body.Accesses ok (table.declareIndex index) ∧
        ok (body.tableAfter (table.declareIndex index)) index ∧
        upper.Accesses ok (body.tableAfter (table.declareIndex index))

theorem Loads.accesses {m : CodeModule} {table : SymbolTable} {position : Nat}
    {value : Expression} {type : ValueType} (hload : Loads m table position value type)
    {ok : SymbolTable → String → Prop}
    (hok : ∀ name symbol, table.lookup name = some symbol → ok table name) :
    value.Accesses ok table := by
  cases hload with
  | string text span index hcode hconstant => trivial
  | integer n span index hcode hconstant => trivial
  | name name span symbol hlookup hslot hcode => exact hok name symbol hlookup

theorem Stores.accesses {m : CodeModule} {table : SymbolTable} {position : Nat} {name : String}
    {type : ValueType} (hstore : Stores m table position name type)
    {ok : SymbolTable → String → Prop}
    (hok : ∀ name symbol, table.lookup name = some symbol → ok table name) : ok table name := by
  obtain ⟨symbol, hlookup, -⟩ := hstore
  exact hok name symbol hlookup

/-- Compiled statements only use names that are declared at the use, in a table
that is part of the table at the end. -/
theorem Placed.accesses {m : CodeModule} {statement : Statement} {table final : SymbolTable}
    {start stop : Nat} (hplaced : Placed m statement table start stop)
    {ok : SymbolTable → String → Prop}
    (hok : ∀ table name symbol, table <:+ final → table.lookup name = some symbol →
      ok table name)
    (hfinal : statement.tableAfter table <:+ final) : statement.Accesses ok table := by
  induction hplaced with
  | @sequence first second span table start middle stop hfirst hsecond ihfirst ihsecond =>
      -- Every table along a statement is a part of the table at its end.
      have hmiddle : first.tableAfter table <:+ final :=
        (second.suffix_tableAfter _).trans hfinal
      exact ⟨ihfirst hmiddle, ihsecond hfinal⟩
  | declare hload hstore =>
      exact ⟨hload.accesses fun name symbol => hok _ name symbol hfinal,
        hstore.accesses fun name symbol => hok _ name symbol hfinal⟩
  | assign hload hstore =>
      exact ⟨hload.accesses fun name symbol => hok _ name symbol hfinal,
        hstore.accesses fun name symbol => hok _ name symbol hfinal⟩
  | printString hload hcall =>
      exact hload.accesses fun name symbol => hok _ name symbol hfinal
  | printInteger hload hconvert hcall =>
      exact hload.accesses fun name symbol => hok _ name symbol hfinal
  | readInt hread hparse hstore =>
      exact hstore.accesses fun name symbol => hok _ name symbol hfinal
  | @forLoop index lower upper body span table start middle type entry back hlower hinit hjump
      hentry hbody hindex hone hadd hnext htest hupper hbranch hback ih =>
      have hbefore : table.declareIndex index <:+ final :=
        (body.suffix_tableAfter _).trans hfinal
      refine ⟨?_, ?_, ih hfinal, ?_, ?_⟩
      · exact hlower.accesses fun name symbol => hok _ name symbol hbefore
      · exact hinit.accesses fun name symbol => hok _ name symbol hbefore
      · exact hnext.accesses fun name symbol => hok _ name symbol hfinal
      · exact hupper.accesses fun name symbol => hok _ name symbol hfinal

/-! ## Records of calls -/

section

variable {μ σ : Type} {host : Host σ} {le : σ → σ → Prop}

namespace Execution

@[simp] theorem host_access (h : σ) (state : Option μ) : (access h state).host = h := by
  cases state <;> rfl

@[simp] theorem host_afterWrite (state : μ) (answer : Except String Unit × σ) :
    (afterWrite state answer).host = answer.2 := by
  rcases answer with ⟨reason | _, h⟩ <;> rfl

@[simp] theorem host_afterRead (store : Int32 → Option μ)
    (answer : Except String (Option String) × σ) : (afterRead store answer).host = answer.2 := by
  rcases answer with ⟨reason | _ | line, h⟩
  · rfl
  · rfl
  · simp only [afterRead]
    cases parseInteger line with
    | none => rfl
    | some n => exact host_access h (store n)

theorem le_host_andThen (hrecords : host.Records le) (first : Execution μ σ)
    {next : μ → σ → Execution μ σ} (hnext : ∀ state h, le h (next state h).host) :
    le first.host (first.andThen next).host := by
  cases first with
  | done state h => exact hnext state h
  | failed error h => exact hrecords.refl h
  | stuck h => exact hrecords.refl h
  | outOfFuel h => exact hrecords.refl h

theorem le_host_rounds (hrecords : host.Records le) (test : μ → Option Bool)
    {round : μ → σ → Execution μ σ} (hround : ∀ state h, le h (round state h).host)
    (fuel : Nat) (state : μ) (h : σ) : le h (rounds test round fuel state h).host := by
  induction fuel generalizing state h with
  | zero =>
      unfold rounds
      split
      · exact hrecords.refl h
      · exact hrecords.refl h
      · exact hrecords.refl h
  | succ fuel ih =>
      unfold rounds
      split
      · exact hrecords.refl h
      · exact hrecords.refl h
      · exact hrecords.trans (hround state h) (le_host_andThen hrecords _ ih)

end Execution

theorem Execution.le_host_update (hrecords : host.Records le) {h : σ} {first : Execution μ σ}
    (hfirst : le h first.host) (update : μ → Option μ) :
    le h (first.andThen fun state h => .access h (update state)).host := by
  refine hrecords.trans hfirst (le_host_andThen hrecords first ?_)
  intro state h
  rw [host_access]
  exact hrecords.refl h

/-- A statement only adds to the record. -/
theorem Statement.le_host_exec (hrecords : host.Records le) (memory : Memory μ) (fuel : Nat)
    (statement : Statement) (table : SymbolTable) (state : μ) (h : σ) :
    le h (statement.exec memory host fuel table state h).host := by
  induction statement generalizing table state h with
  | sequence one two span ihone ihtwo =>
      exact hrecords.trans (ihone table state h)
        (Execution.le_host_andThen hrecords _ (ihtwo (one.tableAfter table)))
  | declare name value span =>
      rw [Statement.exec, Execution.host_access]
      exact hrecords.refl h
  | assign name value span =>
      rw [Statement.exec, Execution.host_access]
      exact hrecords.refl h
  | print value span =>
      simp only [Statement.exec]
      split
      · rw [Execution.host_afterWrite]
        exact hrecords.write _ h
      · exact hrecords.refl h
  | readInt name span =>
      rw [Statement.exec, Execution.host_afterRead]
      exact hrecords.read h
  | forLoop index lower upper body span ih =>
      have hassign : le h (Execution.access h
          (memory.assign (table.declareIndex index) index lower state)).host := by
        rw [Execution.host_access]
        exact hrecords.refl h
      refine hrecords.trans hassign (Execution.le_host_andThen hrecords _ ?_)
      refine Execution.le_host_rounds hrecords _ ?_ fuel
      intro state h
      exact Execution.le_host_update hrecords (ih _ state h) _

end

/-! ## One memory in place of another -/

/-- Two executions go the same way, to related states, as long as no access of the
first one fails.  Where one fails, the second execution has come by with the same
record, and may have gone on. -/
inductive Execution.Matches {α β σ : Type} (le : σ → σ → Prop) (related : α → β → Prop) :
    Execution α σ → Execution β σ → Prop
  | done {a : α} {b : β} (hrelated : related a b) (h : σ) :
      Matches le related (.done a h) (.done b h)
  | failed (error : RuntimeError) (h : σ) :
      Matches le related (.failed error h) (.failed error h)
  | outOfFuel (h : σ) : Matches le related (.outOfFuel h) (.outOfFuel h)
  | stuck {h : σ} {execution : Execution β σ} (hle : le h execution.host) :
      Matches le related (.stuck h) execution

/-- At good accesses, the second memory gives the values that the first one gives,
and writing keeps the states related. -/
structure Memory.Simulates {α β : Type} (first : Memory α) (second : Memory β)
    (related : α → β → Prop) (ok : SymbolTable → String → Prop) : Prop where
  read : ∀ {table name value a b}, ok table name → related a b →
    first.read table name a = some value → second.read table name b = some value
  write : ∀ {table name value a a' b}, ok table name → related a b →
    first.write table name value a = some a' →
      ∃ b', second.write table name value b = some b' ∧ related a' b'

section

variable {α β σ : Type} {first : Memory α} {second : Memory β} {related : α → β → Prop}
  {ok : SymbolTable → String → Prop} {table : SymbolTable} {a : α} {b : β} {host : Host σ}
  {le : σ → σ → Prop}

namespace Memory.Simulates

theorem value (hsimulates : first.Simulates second related ok) {expression : Expression}
    (hok : expression.Accesses ok table) (hrelated : related a b) {value : Value}
    (hvalue : first.value table expression a = some value) :
    second.value table expression b = some value := by
  cases expression with
  | string text span => exact hvalue
  | integer n span => exact hvalue
  | name name span => exact hsimulates.read hok hrelated hvalue
  | binary operator left right span => cases hvalue

theorem integer (hsimulates : first.Simulates second related ok) {expression : Expression}
    (hok : expression.Accesses ok table) (hrelated : related a b) {n : Int32}
    (hinteger : first.integer table expression a = some n) :
    second.integer table expression b = some n := by
  unfold Memory.integer at hinteger ⊢
  split at hinteger
  · next _ hvalue =>
      rw [hsimulates.value hok hrelated hvalue]
      exact hinteger
  · cases hinteger

theorem readInteger (hsimulates : first.Simulates second related ok) {name : String}
    (hok : ok table name) (hrelated : related a b) {n : Int32}
    (hinteger : first.readInteger table name a = some n) :
    second.readInteger table name b = some n := by
  unfold Memory.readInteger at hinteger ⊢
  split at hinteger
  · next _ hread =>
      rw [hsimulates.read hok hrelated hread]
      exact hinteger
  · cases hinteger

theorem test (hsimulates : first.Simulates second related ok) {index : String}
    {upper : Expression} (hindex : ok table index) (hupper : upper.Accesses ok table)
    (hrelated : related a b) {less : Bool} (htest : first.test table index upper a = some less) :
    second.test table index upper b = some less := by
  unfold Memory.test at htest ⊢
  split at htest
  · next _ _ hn hbound =>
      rw [hsimulates.readInteger hindex hrelated hn, hsimulates.integer hupper hrelated hbound]
      exact htest
  · cases htest

theorem matches_write (hsimulates : first.Simulates second related ok)
    (hrecords : host.Records le) {name : String} (hok : ok table name) (hrelated : related a b)
    (value : Value) (h : σ) :
    Execution.Matches le related (.access h (first.write table name value a))
      (.access h (second.write table name value b)) := by
  cases hwrite : first.write table name value a with
  | none => exact .stuck (by rw [Execution.host_access]; exact hrecords.refl h)
  | some a' =>
      obtain ⟨b', hwrite', hrelated'⟩ := hsimulates.write hok hrelated hwrite
      rw [hwrite']
      exact .done hrelated' h

theorem matches_assign (hsimulates : first.Simulates second related ok)
    (hrecords : host.Records le) {name : String} {expression : Expression}
    (hvalue : expression.Accesses ok table) (hok : ok table name) (hrelated : related a b)
    (h : σ) :
    Execution.Matches le related (.access h (first.assign table name expression a))
      (.access h (second.assign table name expression b)) := by
  unfold Memory.assign
  cases hread : first.value table expression a with
  | none => exact .stuck (by rw [Execution.host_access]; exact hrecords.refl h)
  | some value =>
      rw [hsimulates.value hvalue hrelated hread]
      exact hsimulates.matches_write hrecords hok hrelated value h

theorem matches_increment (hsimulates : first.Simulates second related ok)
    (hrecords : host.Records le) {index : String} (hok : ok table index)
    (hrelated : related a b) (h : σ) :
    Execution.Matches le related (.access h (first.increment table index a))
      (.access h (second.increment table index b)) := by
  unfold Memory.increment
  cases hread : first.readInteger table index a with
  | none => exact .stuck (by rw [Execution.host_access]; exact hrecords.refl h)
  | some n =>
      rw [hsimulates.readInteger hok hrelated hread]
      exact hsimulates.matches_write hrecords hok hrelated (.int (n + 1)) h

end Memory.Simulates

namespace Execution

theorem Matches.andThen (hrecords : host.Records le) {first : Execution α σ}
    {second : Execution β σ} (hfirst : Matches le related first second)
    {related' : α → β → Prop} {next : α → σ → Execution α σ} {next' : β → σ → Execution β σ}
    (hnext : ∀ a b h, related a b → Matches le related' (next a h) (next' b h))
    (hgrows : ∀ b h, le h (next' b h).host) :
    Matches le related' (first.andThen next) (second.andThen next') := by
  cases hfirst with
  | done hrelated h => exact hnext _ _ h hrelated
  | failed error h => exact .failed error h
  | outOfFuel h => exact .outOfFuel h
  | stuck hle => exact .stuck (hrecords.trans hle (le_host_andThen hrecords _ hgrows))

theorem matches_afterWrite (hrelated : related a b) (answer : Except String Unit × σ) :
    Matches le related (.afterWrite a answer) (.afterWrite b answer) := by
  rcases answer with ⟨reason | _, h⟩
  · exact .failed _ h
  · exact .done hrelated h

theorem matches_afterRead {store : Int32 → Option α} {store' : Int32 → Option β}
    (hstore : ∀ (n : Int32) (h : σ),
      Matches le related (.access h (store n)) (.access h (store' n)))
    (answer : Except String (Option String) × σ) :
    Matches le related (.afterRead store answer) (.afterRead store' answer) := by
  rcases answer with ⟨reason | _ | line, h⟩
  · exact .failed _ h
  · exact .failed _ h
  · simp only [afterRead]
    cases parseInteger line with
    | none => exact .failed _ h
    | some n => exact hstore n h

/-- Rounds match, if the tests and the single rounds do. -/
theorem matches_rounds (hrecords : host.Records le) {test : α → Option Bool}
    {test' : β → Option Bool} {round : α → σ → Execution α σ} {round' : β → σ → Execution β σ}
    (htest : ∀ a b less, related a b → test a = some less → test' b = some less)
    (hround : ∀ a b h, related a b → Matches le related (round a h) (round' b h))
    (hgrows : ∀ b h, le h (round' b h).host) (fuel : Nat) (hrelated : related a b) (h : σ) :
    Matches le related (rounds test round fuel a h) (rounds test' round' fuel b h) := by
  induction fuel generalizing a b h with
  | zero =>
      cases hless : test a with
      | none =>
          -- Where the first test fails, the second one may still go on.
          have hle := le_host_rounds hrecords test' hgrows 0 b h
          unfold rounds at hle ⊢
          rw [hless]
          exact .stuck hle
      | some less =>
          unfold rounds
          rw [hless, htest a b less hrelated hless]
          cases less with
          | false => exact .done hrelated h
          | true => exact .outOfFuel h
  | succ fuel ih =>
      cases hless : test a with
      | none =>
          have hle := le_host_rounds hrecords test' hgrows (fuel + 1) b h
          unfold rounds at hle ⊢
          rw [hless]
          exact .stuck hle
      | some less =>
          unfold rounds
          rw [hless, htest a b less hrelated hless]
          cases less with
          | false => exact .done hrelated h
          | true =>
              exact (hround a b h hrelated).andThen hrecords
                (fun a b h hrelated => ih hrelated h)
                (le_host_rounds hrecords test' hgrows fuel)

end Execution

/-- A statement goes the same way on a memory and on one that simulates it. -/
theorem Statement.matches_exec (hsimulates : first.Simulates second related ok)
    (hrecords : host.Records le) (fuel : Nat) {statement : Statement}
    (hok : statement.Accesses ok table) (hrelated : related a b) (h : σ) :
    Execution.Matches le related (statement.exec first host fuel table a h)
      (statement.exec second host fuel table b h) := by
  induction statement generalizing table a b h with
  | sequence one two span ihone ihtwo =>
      exact (ihone hok.1 hrelated h).andThen hrecords
        (fun a b h hrelated => ihtwo hok.2 hrelated h)
        (two.le_host_exec hrecords second fuel _)
  | declare name value span =>
      exact hsimulates.matches_assign hrecords hok.1 hok.2 hrelated h
  | assign name value span =>
      exact hsimulates.matches_assign hrecords hok.1 hok.2 hrelated h
  | print value span =>
      cases hvalue : first.value table value a with
      | none =>
          have hle := (Statement.print value span).le_host_exec hrecords second fuel table b h
          simp only [Statement.exec, hvalue] at hle ⊢
          exact .stuck hle
      | some v =>
          simp only [Statement.exec, hvalue, hsimulates.value hok hrelated hvalue]
          exact Execution.matches_afterWrite hrelated _
  | readInt name span =>
      exact Execution.matches_afterRead
        (fun n h => hsimulates.matches_write hrecords hok hrelated (.int n) h) _
  | forLoop index lower upper body span ih =>
      obtain ⟨hlower, hindex, hbody, hindex', hupper⟩ := hok
      -- The accesses of the body are the same in every round.
      have hgrows : ∀ b h, le h ((body.exec second host fuel (table.declareIndex index)
          b h).andThen fun b h => .access h (second.increment
            (body.tableAfter (table.declareIndex index)) index b)).host := by
        intro b h
        exact Execution.le_host_update hrecords
          (body.le_host_exec hrecords second fuel _ b h) _
      refine (hsimulates.matches_assign hrecords hlower hindex hrelated h).andThen hrecords ?_
        (Execution.le_host_rounds hrecords _ hgrows fuel)
      intro a b h hrelated
      refine Execution.matches_rounds hrecords ?_ ?_ hgrows fuel hrelated h
      · intro a b less hrelated htest
        exact hsimulates.test hindex' hupper hrelated htest
      · intro a b h hrelated
        refine (ih hbody hrelated h).andThen hrecords ?_ ?_
        · intro a b h hrelated
          exact hsimulates.matches_increment hrecords hindex' hrelated h
        · intro b h
          rw [Execution.host_access]
          exact hrecords.refl h

end

end SlotLang
