import SlotLang.Proofs.ConsoleRuns
import SlotLang.Proofs.MachineSteps
import SlotLang.Proofs.Results

/-!
# Runs up to the first difference of their hosts

Two runs of a module go the same way until a step at which their hosts differ.  Nothing is
asked of the module or of the hosts for this: either every step is alike on both, or there
is a first one that is not, and both runs are in the same state before it.

For scripted hosts the first difference is known.  A script with more lines of input
differs when the shorter input is used up, and a script that refuses a call differs at that
call.  A script keeps a record of its calls, so what was recorded before the difference is
recorded in both runs.

* `CodeModule.ofMachine_of_fault` — the machine alone does not fail as a host does.
* `CodeModule.matches_runFrom_or_differs` — runs match, or there is a first difference.
* `Script.Longer`, `Script.Refusal` — the scripts that are compared.
* `CodeModule.runs_agree_until_hosts_differ` — what a longer input and a refused call change.
-/

namespace SlotLang

/-! ## The errors of the machine -/

/-- Whether an error is one of the machine itself, and not of its host. -/
def RuntimeError.OfMachine : RuntimeError → Prop
  | endOfInput => False
  | hostFailure _ => False
  | _ => True

namespace MachineState

theorem ofMachine_of_take {state : MachineState} {error : RuntimeError}
    (htake : state.take = .error error) : error.OfMachine := by
  unfold take at htake
  split at htake <;> cases htake
  trivial

theorem ofMachine_of_takeInt {state : MachineState} {error : RuntimeError}
    (htake : state.takeInt = .error error) : error.OfMachine := by
  rcases bind_eq_error.mp htake with htop | ⟨⟨value, rest⟩, -, htype⟩
  · exact ofMachine_of_take htop
  · cases value <;> cases htype
    trivial

theorem ofMachine_of_takeString {state : MachineState} {error : RuntimeError}
    (htake : state.takeString = .error error) : error.OfMachine := by
  rcases bind_eq_error.mp htake with htop | ⟨⟨value, rest⟩, -, htype⟩
  · exact ofMachine_of_take htop
  · cases value <;> cases htype
    trivial

theorem ofMachine_of_takeInts {state : MachineState} {error : RuntimeError}
    (htake : state.takeInts = .error error) : error.OfMachine := by
  rcases bind_eq_error.mp htake with hsecond | ⟨_, -, hrest⟩
  · exact ofMachine_of_takeInt hsecond
  · rcases bind_eq_error.mp hrest with hfirst | ⟨_, -, hdone⟩
    · exact ofMachine_of_takeInt hfirst
    · cases hdone

end MachineState

namespace CodeModule

/-- The result of an instruction, whose errors are those of the machine. -/
structure OwnErrors (result : Except RuntimeError Transition) : Prop where
  error : ∀ error, result = .error error → error.OfMachine
  fault : ∀ error, result ≠ .ok (.fault error)

theorem OwnErrors.bind {α : Type} {first : Except RuntimeError α}
    {next : α → Except RuntimeError Transition}
    (hfirst : ∀ error, first = .error error → error.OfMachine) (hnext : ∀ a, OwnErrors (next a)) :
    OwnErrors (first >>= next) where
  error error hresult := by
    rcases bind_eq_error.mp hresult with hfailed | ⟨a, -, hfailed⟩
    · exact hfirst error hfailed
    · exact (hnext a).error error hfailed
  fault error hresult := by
    obtain ⟨a, -, hdone⟩ := bind_eq_ok.mp hresult
    exact (hnext a).fault error hdone

theorem OwnErrors.of_error {error : RuntimeError} (herror : error.OfMachine) :
    OwnErrors (.error error) :=
  ⟨fun _ heq => by cases heq; exact herror, fun _ heq => by cases heq⟩

theorem ownErrors_goTo (m : CodeModule) (target : UInt32) (state : MachineState)
    (stack : List Value) : OwnErrors (m.goTo target state stack) := by
  unfold goTo
  split
  · exact ⟨nofun, nofun⟩
  · exact .of_error trivial

theorem ownErrors_hostCall (function : HostFunction) (state : MachineState) :
    OwnErrors (hostCall function state) := by
  cases function with
  | writeLine => exact .bind (fun _ => MachineState.ofMachine_of_takeString) fun _ => ⟨nofun, nofun⟩
  | readLine => exact ⟨nofun, nofun⟩
  | parseInt =>
      refine .bind (fun _ => MachineState.ofMachine_of_takeString) fun ⟨text, rest⟩ => ?_
      dsimp only
      split
      · exact ⟨nofun, nofun⟩
      · exact .of_error trivial

theorem ownErrors_execute (m : CodeModule) (instruction : Instruction) (state : MachineState) :
    OwnErrors (m.execute instruction state) := by
  unfold execute
  cases instruction with
  | constant index =>
      dsimp only
      split
      · exact ⟨nofun, nofun⟩
      · exact .of_error trivial
  | loadLocal slot =>
      dsimp only
      split
      · exact ⟨nofun, nofun⟩
      · exact .of_error trivial
  | storeLocal slot =>
      refine .bind (fun _ => MachineState.ofMachine_of_take) fun _ => ?_
      dsimp only
      split
      · exact ⟨nofun, nofun⟩
      · exact .of_error trivial
  | addInt => exact .bind (fun _ => MachineState.ofMachine_of_takeInts) fun _ => ⟨nofun, nofun⟩
  | intToString => exact .bind (fun _ => MachineState.ofMachine_of_takeInt) fun _ => ⟨nofun, nofun⟩
  | callHost function => exact ownErrors_hostCall function state
  | jump target => exact m.ownErrors_goTo target state _
  | branchIfLess target =>
      refine .bind (fun _ => MachineState.ofMachine_of_takeInts) fun _ => ?_
      dsimp only
      split
      · exact m.ownErrors_goTo target state _
      · exact ⟨nofun, nofun⟩
  | ret => exact ⟨nofun, nofun⟩

theorem ofMachine_of_fault {m : CodeModule} {state : MachineState} {error : RuntimeError}
    (hstep : m.step state = .fault error) : error.OfMachine := by
  unfold step at hstep
  cases hcode : m.code[state.position]? with
  | none => rw [hcode] at hstep; cases hstep
  | some instruction =>
      have hown := m.ownErrors_execute instruction state
      cases hresult : m.execute instruction state with
      | error other =>
          simp only [hcode, hresult] at hstep
          cases hstep
          exact hown.error _ hresult
      | ok transition =>
          simp only [hcode, hresult] at hstep
          exact absurd (hstep ▸ hresult) (hown.fault error)

end CodeModule

/-! ## The first difference -/

theorem Outcome.Matches.imp {σ τ : Type} {related weaker : σ → τ → Prop}
    (himp : ∀ h k, related h k → weaker h k) {first : Outcome σ} {second : Outcome τ}
    (hmatches : Outcome.Matches related first second) : Outcome.Matches weaker first second := by
  cases hmatches with
  | finished state hrelated => exact .finished state (himp _ _ hrelated)
  | failed error hrelated => exact .failed error (himp _ _ hrelated)
  | outOfFuel state hrelated => exact .outOfFuel state (himp _ _ hrelated)

theorem Outcome.Matches.host {σ τ : Type} {related : σ → τ → Prop} {first : Outcome σ}
    {second : Outcome τ} (hmatches : Outcome.Matches related first second) :
    related first.host second.host := by
  cases hmatches with
  | finished _ hrelated => exact hrelated
  | failed _ hrelated => exact hrelated
  | outOfFuel _ hrelated => exact hrelated

/-- The same answer to a call, with related hosts after it. -/
def Host.Alike {σ τ α : Type} (related : σ → τ → Prop) (one : Except String α × σ)
    (two : Except String α × τ) : Prop :=
  one.1 = two.1 ∧ related one.2 two.2

namespace CodeModule

section

variable {σ τ : Type} {first : Host σ} {second : Host τ} {related : σ → τ → Prop}

/-- Two runs match, or they come to the same state with related hosts and do not match in
the next step. -/
theorem matches_runFrom_or_differs (m : CodeModule) (fuel : Nat) (state : MachineState) {h : σ}
    {k : τ} (hrelated : related h k) :
    Outcome.Matches related (m.runFrom first fuel state h) (m.runFrom second fuel state k) ∨
      ∃ steps state' h' k', steps < fuel ∧ m.Leads first steps (state, h) (state', h') ∧
        m.Leads second steps (state, k) (state', k') ∧ related h' k' ∧
        ¬Outcome.Matches related (m.runFrom first 1 state' h')
          (m.runFrom second 1 state' k') := by
  induction fuel generalizing state h k with
  | zero => exact .inl (.outOfFuel state hrelated)
  | succ fuel ih =>
      by_cases hstep : Outcome.Matches related (m.runFrom first 1 state h)
        (m.runFrom second 1 state k)
      · rw [Nat.add_comm fuel 1]
        -- The runs end together in this step, or they both go on.
        generalize hfirst : m.runFrom first 1 state h = one at hstep
        generalize hsecond : m.runFrom second 1 state k = two at hstep
        cases hstep with
        | finished state' hnext =>
            rw [m.runFrom_add first 1 fuel state h (by simp [hfirst]),
              m.runFrom_add second 1 fuel state k (by simp [hsecond]), hfirst, hsecond]
            exact .inl (.finished state' hnext)
        | failed error hnext =>
            rw [m.runFrom_add first 1 fuel state h (by simp [hfirst]),
              m.runFrom_add second 1 fuel state k (by simp [hsecond]), hfirst, hsecond]
            exact .inl (.failed error hnext)
        | @outOfFuel state' h' k' hnext =>
            have hone : m.Leads first 1 (state, h) (state', h') := hfirst
            have htwo : m.Leads second 1 (state, k) (state', k') := hsecond
            rw [hone.runFrom_add fuel, htwo.runFrom_add fuel]
            refine (ih state' hnext).imp_right ?_
            rintro ⟨steps, state'', h'', k'', hlt, hleads, hleads', hrelated', hdiffers⟩
            exact ⟨1 + steps, state'', h'', k'', by omega, hone.trans hleads,
              htwo.trans hleads', hrelated', hdiffers⟩
      · exact .inr ⟨0, state, h, k, by omega, Leads.refl _, Leads.refl _, hrelated, hstep⟩

/-- Where runs differ in a step, the step calls the host, and the answers are not alike. -/
theorem call_of_differs {m : CodeModule} {state : MachineState} {h : σ} {k : τ}
    (hrelated : related h k)
    (hdiffers : ¬Outcome.Matches related (m.runFrom first 1 state h)
      (m.runFrom second 1 state k)) :
    (∃ line state', m.step state = .write line state' ∧
      ¬Host.Alike related (first.write line h) (second.write line k)) ∨
    ∃ state', m.step state = .read state' ∧
      ¬Host.Alike related (first.read h) (second.read k) := by
  simp only [runFrom] at hdiffers
  cases hstep : m.step state with
  | next state' =>
      rw [hstep] at hdiffers
      exact absurd (.outOfFuel state' hrelated) hdiffers
  | halt state' =>
      rw [hstep] at hdiffers
      exact absurd (.finished state' hrelated) hdiffers
  | fault error =>
      rw [hstep] at hdiffers
      exact absurd (.failed error hrelated) hdiffers
  | write line state' =>
      refine .inl ⟨line, state', rfl, fun halike => hdiffers ?_⟩
      rcases hfirst : first.write line h with ⟨answer, h'⟩
      rcases hsecond : second.write line k with ⟨answer', k'⟩
      obtain ⟨rfl, hnext⟩ : answer = answer' ∧ related h' k' := by
        rwa [hfirst, hsecond] at halike
      simp only [hstep, hfirst, hsecond]
      cases answer with
      | error reason => exact .failed _ hnext
      | ok _ => exact .outOfFuel state' hnext
  | read state' =>
      refine .inr ⟨state', rfl, fun halike => hdiffers ?_⟩
      rcases hfirst : first.read h with ⟨answer, h'⟩
      rcases hsecond : second.read k with ⟨answer', k'⟩
      obtain ⟨rfl, hnext⟩ : answer = answer' ∧ related h' k' := by
        rwa [hfirst, hsecond] at halike
      simp only [hstep]
      rcases answer with reason | _ | line
      · exact .failed _ hnext
      · exact .failed _ hnext
      · exact .outOfFuel _ hnext

end

section

variable {σ : Type} {host : Host σ} {le : σ → σ → Prop}

theorem host_runFrom_write {m : CodeModule} {state state' : MachineState} {line : String}
    (hstep : m.step state = .write line state') (h : σ) :
    (m.runFrom host 1 state h).host = (host.write line h).2 := by
  simp only [runFrom, hstep]
  rcases host.write line h with ⟨reason | _, h'⟩ <;> rfl

theorem host_runFrom_read {m : CodeModule} {state state' : MachineState}
    (hstep : m.step state = .read state') (h : σ) :
    (m.runFrom host 1 state h).host = (host.read h).2 := by
  simp only [runFrom, hstep]
  rcases host.read h with ⟨reason | _ | line, h'⟩ <;> rfl

/-- A run that comes to a step in which it fails has failed. -/
theorem Leads.runFrom_failed {m : CodeModule} {steps fuel : Nat} {a b : MachineState × σ}
    (hleads : m.Leads host steps a b) (hlt : steps < fuel) {error : RuntimeError} {h : σ}
    (hfailed : m.runFrom host 1 b.1 b.2 = .failed error h) :
    m.runFrom host fuel a.1 a.2 = .failed error h := by
  obtain ⟨rest, rfl⟩ : ∃ rest, fuel = steps + (1 + rest) := ⟨fuel - steps - 1, by omega⟩
  rw [hleads.runFrom_add, m.runFrom_add host 1 rest _ _ (by simp [hfailed]), hfailed]

/-- A run that failed came to a step in which it fails. -/
theorem exists_leads_of_failed {m : CodeModule} {fuel : Nat} {state : MachineState} {h h' : σ}
    {error : RuntimeError} (hfailed : m.runFrom host fuel state h = .failed error h') :
    ∃ steps state' k, steps < fuel ∧ m.Leads host steps (state, h) (state', k) ∧
      m.runFrom host 1 state' k = .failed error h' := by
  obtain ⟨steps, state', k, hlt, hleads, hlast⟩ := exists_leads_of_ended (h := h) (by
    rw [hfailed]
    nofun)
  exact ⟨steps, state', k, hlt, hleads, hlast.trans hfailed⟩

/-- Only a read comes to the end of the input. -/
theorem read_of_endOfInput {m : CodeModule} {state : MachineState} {h h' : σ}
    (hfails : m.runFrom host 1 state h = .failed .endOfInput h') :
    host.read h = (.ok none, h') := by
  simp only [runFrom] at hfails
  cases hstep : m.step state with
  | next state' => rw [hstep] at hfails; cases hfails
  | halt state' => rw [hstep] at hfails; cases hfails
  | fault error =>
      rw [hstep] at hfails
      cases hfails
      exact (ofMachine_of_fault hstep).elim
  | write line state' =>
      rcases hwrite : host.write line h with ⟨reason | _, k⟩ <;>
        simp only [hstep, hwrite] at hfails <;> cases hfails
  | read state' =>
      rcases hread : host.read h with ⟨reason | _ | line, k⟩ <;>
        simp only [hstep, hread] at hfails <;> cases hfails
      rfl

/-- What is recorded in a step that a run comes to stays recorded. -/
theorem Leads.le_host {m : CodeModule} (hrecords : host.Records le) {steps fuel : Nat}
    {a b : MachineState × σ} (hleads : m.Leads host steps a b) (hlt : steps < fuel) :
    le (m.runFrom host 1 b.1 b.2).host (m.runFrom host fuel a.1 a.2).host := by
  obtain ⟨rest, rfl⟩ : ∃ rest, fuel = steps + (1 + rest) := ⟨fuel - steps - 1, by omega⟩
  rw [hleads.runFrom_add]
  exact m.le_host_runFrom_add hrecords 1 rest b.1 b.2

end

end CodeModule

/-! ## A longer input -/

namespace Script

/-- The same calls were made, with the same answers. -/
def SameEvents (first second : Script) : Prop :=
  first.events = second.events

/-- The second script has more lines to read. -/
def Longer (extra : List String) (first second : Script) : Prop :=
  second = { first with input := first.input ++ extra }

variable {extra : List String} {first second : Script}

theorem Longer.sameEvents (hlonger : Longer extra first second) : SameEvents first second := by
  rw [SameEvents, hlonger]

theorem Longer.write (hlonger : Longer extra first second) (line : String) :
    Host.Alike (Longer extra) (host.write line first) (host.write line second) := by
  subst hlonger
  simp only [host, Script.write]
  split
  · exact ⟨rfl, rfl⟩
  · exact ⟨rfl, rfl⟩

/-- A read is alike, unless no line is left. -/
theorem Longer.read (hlonger : Longer extra first second) :
    Host.Alike (Longer extra) (host.read first) (host.read second) ∨
      ∃ script, host.read first = (.ok none, script) := by
  subst hlonger
  simp only [host, Script.read]
  split
  · exact .inl ⟨rfl, rfl⟩
  · cases hinput : first.input with
    | nil => exact .inr ⟨_, rfl⟩
    | cons line rest => exact .inl ⟨rfl, rfl⟩

theorem events_of_read_none {script script' : Script}
    (hread : host.read script = (.ok none, script')) :
    script'.events = script.events.push (.read none) := by
  simp only [host, Script.read] at hread
  split at hread
  · cases hread
  · obtain ⟨hhead, rfl⟩ := Prod.mk.inj hread
    rw [Except.ok.inj hhead]

end Script

namespace CodeModule

/-- With more lines to read a run goes the same way, unless it comes to the end of the
input. -/
theorem longer_runFrom (m : CodeModule) (fuel : Nat) (state : MachineState)
    {extra : List String} {first second : Script} (hlonger : Script.Longer extra first second) :
    Outcome.Matches (Script.Longer extra) (m.runFrom Script.host fuel state first)
        (m.runFrom Script.host fuel state second) ∨
      ∃ script, m.runFrom Script.host fuel state first = .failed .endOfInput script := by
  refine (m.matches_runFrom_or_differs fuel state hlonger).imp_right ?_
  rintro ⟨steps, state', s, t, hlt, hfirst, hsecond, hst, hdiffers⟩
  rcases call_of_differs hst hdiffers with ⟨line, next, -, hcall⟩ | ⟨next, hstep, hcall⟩
  · exact absurd (hst.write line) hcall
  · obtain ⟨script, hread⟩ := hst.read.resolve_left hcall
    exact ⟨script, hfirst.runFrom_failed hlt (by simp only [runFrom, hstep, hread])⟩

/-- What a run recorded before it came to the end of the input is recorded also with more
lines to read. -/
theorem longer_endOfInput (m : CodeModule) {fuel : Nat} {state : MachineState}
    {extra : List String} {first second script : Script}
    (hlonger : Script.Longer extra first second)
    (hend : m.runFrom Script.host fuel state first = .failed .endOfInput script) :
    ∃ before, script.events.toList = before ++ [.read none] ∧ ∀ later, fuel ≤ later →
      before <+: (m.runFrom Script.host later state second).host.events.toList := by
  obtain ⟨steps, state', s, hlt, hleads, hfails⟩ := exists_leads_of_failed hend
  have hread := read_of_endOfInput hfails
  refine ⟨s.events.toList, ?_, fun later hle => ?_⟩
  · rw [Script.events_of_read_none hread, Array.toList_push]
  · have hbefore : m.runFrom Script.host steps state first = .outOfFuel state' s := hleads
    rcases m.longer_runFrom steps state hlonger with hmatches | ⟨ended, hended⟩
    · have hsame := hmatches.host.sameEvents
      rw [hbefore] at hsame
      obtain ⟨rest, rfl⟩ : ∃ rest, later = steps + rest := ⟨later - steps, by omega⟩
      have hgrows := m.le_host_runFrom_add Script.records_host steps rest state second
      rwa [← hsame] at hgrows
    · rw [hbefore] at hended
      cases hended

end CodeModule

/-! ## A refused call -/

namespace Event

/-- Whether the call wrote a line. -/
def isWrite : Event → Bool
  | wrote _ => true
  | read _ => false

/-- Whether the call was a read. -/
def isRead : Event → Bool
  | wrote _ => false
  | read _ => true

end Event

namespace Script

/-- The answers to a call when the first script refuses it and the second does not: the call
is the counted one after `bound` of them. -/
structure Parts {α : Type} (counted : Event → Bool) (bound : Nat) (reason : String)
    (first : Script) (one two : Except String α × Script) : Prop where
  count : first.events.countP counted = bound
  refused : one = (.error reason, first)
  granted : ∃ call, counted call = true ∧ two.2.events = first.events.push call

/-- Of two related scripts the first refuses the counted call after `bound` of them, and they
answer all other calls alike. -/
structure Refusal (counted : Event → Bool) (bound : Nat) (reason : String)
    (related : Script → Script → Prop) : Prop where
  same : ∀ {first second}, related first second → SameEvents first second
  le : ∀ {first second}, related first second → first.events.countP counted ≤ bound
  write : ∀ line first second, related first second →
    Host.Alike related (host.write line first) (host.write line second) ∨
      Parts counted bound reason first (host.write line first) (host.write line second)
  read : ∀ first second, related first second →
    Host.Alike related (host.read first) (host.read second) ∨
      Parts counted bound reason first (host.read first) (host.read second)

/-- The first script refuses the write after `bound` writes for the given reason, and the
second no write. -/
structure RefusesWrite (bound : Nat) (reason : String) (first second : Script) : Prop where
  free : second = { first with failWrite := none }
  limit : first.failWrite = some bound
  reason : first.writeReason = reason
  count : first.events.countP Event.isWrite = first.writes
  le : first.writes ≤ bound

/-- The first script refuses the read after `bound` reads for the given reason, and the second
no read. -/
structure RefusesRead (bound : Nat) (reason : String) (first second : Script) : Prop where
  free : second = { first with failRead := none }
  limit : first.failRead = some bound
  reason : first.readReason = reason
  count : first.events.countP Event.isRead = first.reads
  le : first.reads ≤ bound

theorem refusal_write (bound : Nat) (reason : String) :
    Refusal Event.isWrite bound reason (RefusesWrite bound reason) where
  same hrelated := by rw [SameEvents, hrelated.free]
  le hrelated := hrelated.count ▸ hrelated.le
  write line first second hrelated := by
    obtain ⟨rfl, hlimit, rfl, hcount, hle⟩ := hrelated
    simp only [host, Script.write, hlimit, reduceCtorEq, if_false, Option.some.injEq]
    split
    case isTrue hlast => exact .inr ⟨hcount.trans hlast.symm, rfl, .wrote line, rfl, rfl⟩
    case isFalse hlast =>
      refine .inl ⟨rfl, rfl, rfl, rfl, ?_, Nat.lt_of_le_of_ne hle (Ne.symm hlast)⟩
      simp [Array.countP_push, hcount, Event.isWrite]
  read first second hrelated := by
    obtain ⟨rfl, hlimit, rfl, hcount, hle⟩ := hrelated
    simp only [host, Script.read]
    split
    · exact .inl ⟨rfl, rfl, hlimit, rfl, hcount, hle⟩
    · exact .inl ⟨rfl, rfl, hlimit, rfl, by simp [hcount, Event.isWrite], hle⟩

theorem refusal_read (bound : Nat) (reason : String) :
    Refusal Event.isRead bound reason (RefusesRead bound reason) where
  same hrelated := by rw [SameEvents, hrelated.free]
  le hrelated := hrelated.count ▸ hrelated.le
  write line first second hrelated := by
    obtain ⟨rfl, hlimit, rfl, hcount, hle⟩ := hrelated
    simp only [host, Script.write]
    split
    · exact .inl ⟨rfl, rfl, hlimit, rfl, hcount, hle⟩
    · exact .inl ⟨rfl, rfl, hlimit, rfl, by simp [hcount, Event.isRead], hle⟩
  read first second hrelated := by
    obtain ⟨rfl, hlimit, rfl, hcount, hle⟩ := hrelated
    simp only [host, Script.read, hlimit, reduceCtorEq, if_false, Option.some.injEq]
    split
    case isTrue hlast => exact .inr ⟨hcount.trans hlast.symm, rfl, .read _, rfl, rfl⟩
    case isFalse hlast =>
      refine .inl ⟨rfl, rfl, rfl, rfl, ?_, Nat.lt_of_le_of_ne hle (Ne.symm hlast)⟩
      simp [Array.countP_push, hcount, Event.isRead]

end Script

/-- What a refusal after `bound` counted calls makes of a run: nothing, if the undisturbed
run makes no more of them; otherwise the run fails for the reason given, and its record is
that of the undisturbed run up to the refused call. -/
structure Outcome.Refused (counted : Event → Bool) (bound : Nat) (reason : String)
    (disturbed free : Outcome Script) : Prop where
  unchanged : free.host.events.countP counted ≤ bound →
    Outcome.Matches Script.SameEvents disturbed free
  cut : bound < free.host.events.countP counted → ∃ script call after,
    disturbed = .failed (.hostFailure reason) script ∧
      script.events.countP counted = bound ∧ counted call = true ∧
      free.host.events.toList = script.events.toList ++ call :: after

namespace CodeModule

variable {counted : Event → Bool} {bound : Nat} {reason : String}
  {related : Script → Script → Prop}

/-- Where the scripts part in a step, the first run fails there, and the call is recorded in
the second. -/
theorem refused_step (hrefusal : Script.Refusal counted bound reason related) {m : CodeModule}
    {state : MachineState} {first second : Script} (hrelated : related first second)
    (hdiffers : ¬Outcome.Matches related (m.runFrom Script.host 1 state first)
      (m.runFrom Script.host 1 state second)) :
    first.events.countP counted = bound ∧
      m.runFrom Script.host 1 state first = .failed (.hostFailure reason) first ∧
      ∃ call, counted call = true ∧
        (m.runFrom Script.host 1 state second).host.events = first.events.push call := by
  rcases call_of_differs hrelated hdiffers with ⟨line, next, hstep, hcall⟩ | ⟨next, hstep, hcall⟩
  · obtain ⟨hcount, hrefused, hgranted⟩ := (hrefusal.write line _ _ hrelated).resolve_left hcall
    rw [host_runFrom_write hstep]
    exact ⟨hcount, by simp only [runFrom, hstep, hrefused], hgranted⟩
  · obtain ⟨hcount, hrefused, hgranted⟩ := (hrefusal.read _ _ hrelated).resolve_left hcall
    rw [host_runFrom_read hstep]
    exact ⟨hcount, by simp only [runFrom, hstep, hrefused], hgranted⟩

theorem refused_runFrom (hrefusal : Script.Refusal counted bound reason related) (m : CodeModule)
    (fuel : Nat) (state : MachineState) {first second : Script}
    (hrelated : related first second) :
    Outcome.Refused counted bound reason (m.runFrom Script.host fuel state first)
      (m.runFrom Script.host fuel state second) := by
  rcases m.matches_runFrom_or_differs fuel state hrelated with hmatches |
    ⟨steps, state', s, t, hlt, hfirst, hsecond, hst, hdiffers⟩
  · have hcount := hrefusal.le hmatches.host
    rw [hrefusal.same hmatches.host] at hcount
    exact ⟨fun _ => hmatches.imp fun _ _ => hrefusal.same, fun hmore => absurd hcount (by omega)⟩
  · obtain ⟨hbound, hfailed, call, hcall, hgranted⟩ := refused_step hrefusal hst hdiffers
    obtain ⟨after, hafter⟩ := hsecond.le_host Script.records_host hlt
    have hevents : (m.runFrom Script.host fuel state second).host.events.toList =
        s.events.toList ++ call :: after := by
      rw [← hafter, hgranted, Array.toList_push, List.append_assoc, List.singleton_append]
    refine ⟨fun hfew => ?_, fun _ =>
      ⟨s, call, after, hfirst.runFrom_failed hlt hfailed, hbound, hcall, hevents⟩⟩
    -- With the refused call there are more than `bound`.
    rw [← Array.countP_toList, hevents, List.countP_append, List.countP_cons, hcall,
      Array.countP_toList, hbound, if_pos rfl] at hfew
    omega

end CodeModule

/-! ## Runs from the start -/

/-- Runs on scripted hosts agree up to the first difference of the hosts.  More lines to read
change nothing if a run does not come to the end of the input, and otherwise nothing before
the read that failed.  A write that is refused after `bound` writes, and a read after `bound`
reads, cuts the run off before that call with the reason of the host, or changes nothing if
the run makes no such call. -/
theorem CodeModule.runs_agree_until_hosts_differ (m : CodeModule) (input extra : List String)
    (failWrite failRead : Option Nat) (writeReason readReason : String) (bound fuel : Nat) :
    ((∀ script, m.run Script.host fuel
          (.prepared input failWrite failRead writeReason readReason) ≠
        .failed .endOfInput script) →
      Outcome.Matches Script.SameEvents
        (m.run Script.host fuel (.prepared input failWrite failRead writeReason readReason))
        (m.run Script.host fuel
          (.prepared (input ++ extra) failWrite failRead writeReason readReason))) ∧
    (∀ script, m.run Script.host fuel
          (.prepared input failWrite failRead writeReason readReason) =
        .failed .endOfInput script →
      ∃ before, script.events.toList = before ++ [.read none] ∧ ∀ later, fuel ≤ later →
        before <+: (m.run Script.host later (.prepared (input ++ extra) failWrite failRead
          writeReason readReason)).host.events.toList) ∧
    Outcome.Refused Event.isWrite bound writeReason
      (m.run Script.host fuel (.prepared input (some bound) failRead writeReason readReason))
      (m.run Script.host fuel (.prepared input none failRead writeReason readReason)) ∧
    Outcome.Refused Event.isRead bound readReason
      (m.run Script.host fuel (.prepared input failWrite (some bound) writeReason readReason))
      (m.run Script.host fuel (.prepared input failWrite none writeReason readReason)) := by
  have hlonger : Script.Longer extra (.prepared input failWrite failRead writeReason readReason)
      (.prepared (input ++ extra) failWrite failRead writeReason readReason) := rfl
  refine ⟨fun hgoes => ?_, fun script hend => m.longer_endOfInput hlonger hend, ?_, ?_⟩
  · rcases m.longer_runFrom fuel (.start m) hlonger with hmatches | ⟨script, hend⟩
    · exact hmatches.imp fun _ _ => Script.Longer.sameEvents
    · exact absurd hend (hgoes script)
  · exact m.refused_runFrom (Script.refusal_write bound writeReason) fuel _
      ⟨rfl, rfl, rfl, rfl, Nat.zero_le _⟩
  · exact m.refused_runFrom (Script.refusal_read bound readReason) fuel _
      ⟨rfl, rfl, rfl, rfl, Nat.zero_le _⟩

/-- Writes every line that it reads, and ends only with the input. -/
def CodeModule.echo : CodeModule where
  name := "echo"
  entry := "main"
  locals := #[]
  constants := #[]
  code := #[.callHost .readLine, .callHost .writeLine, .jump 0]

theorem CodeModule.echo_runs_agree :
    Outcome.Matches Script.SameEvents (echo.run Script.host 6 (.start ["a", "b"] none none))
      (echo.run Script.host 6 (.start ["a", "b", "c"] none none)) ∧
    (∃ script before,
      echo.run Script.host 7 (.start ["a", "b"] none none) = .failed .endOfInput script ∧
      script.events.toList = before ++ [.read none] ∧ ∀ later, 7 ≤ later →
        before <+: (echo.run Script.host later
          (.start ["a", "b", "c"] none none)).host.events.toList) ∧
    (∃ script call after,
      echo.run Script.host 7 (.prepared ["a", "b"] (some 1) none "disk full" "closed") =
        .failed (.hostFailure "disk full") script ∧
      script.events.countP Event.isWrite = 1 ∧ call.isWrite = true ∧
      (echo.run Script.host 7
          (.prepared ["a", "b"] none none "disk full" "closed")).host.events.toList =
        script.events.toList ++ call :: after) ∧
    Outcome.Matches Script.SameEvents
      (echo.run Script.host 7 (.start ["a", "b"] none (some 3)))
      (echo.run Script.host 7 (.start ["a", "b"] none none)) := by
  obtain ⟨hgoes, -⟩ := echo.runs_agree_until_hosts_differ ["a", "b"] ["c"] none none
    "write refused" "read refused" 1 6
  obtain ⟨-, hend, -, -⟩ := echo.runs_agree_until_hosts_differ ["a", "b"] ["c"] none none
    "write refused" "read refused" 1 7
  obtain ⟨-, -, hwrite, -⟩ := echo.runs_agree_until_hosts_differ ["a", "b"] ["c"] none none
    "disk full" "closed" 1 7
  obtain ⟨-, -, -, hread⟩ := echo.runs_agree_until_hosts_differ ["a", "b"] ["c"] none none
    "write refused" "read refused" 3 7
  refine ⟨hgoes fun script hended => ?_, ?_, hwrite.cut (by decide +kernel),
    hread.unchanged (by decide +kernel)⟩
  · cases hended
  · obtain ⟨before, hbefore⟩ := hend _ rfl
    exact ⟨_, before, rfl, hbefore⟩

end SlotLang
