import SlotLang.Machine.Basic

/-!
# Runs

A run answers the requests of the machine from a host.  A host is a pair of
functions on a state of its own; either may refuse with a reason, and moves on
to a new state in any case.

Runs need not end, so they take a bound on the number of steps, and using it
up is an outcome apart from the others.

* `Host` — how lines are written and read.
* `Outcome` — how a run ends.
* `CodeModule.runFrom`, `CodeModule.run` — the run of a module.
* `CodeModule.runFrom_add` — more steps do not change a run that has ended.
-/

namespace SlotLang

/-- How lines are written and read, with states of type `σ`. -/
structure Host (σ : Type) where
  /-- Writes a line, or refuses with a reason. -/
  write : String → σ → Except String Unit × σ
  /-- Reads a line, or none at the end of input, or refuses with a reason. -/
  read : σ → Except String (Option String) × σ

/-- How a run ends. -/
inductive Outcome (σ : Type) where
  /-- The module came to its end. -/
  | finished (state : MachineState) (host : σ)
  /-- The run failed. -/
  | failed (error : RuntimeError) (host : σ)
  /-- The bound on the number of steps was used up. -/
  | outOfFuel (state : MachineState) (host : σ)

namespace Outcome

/-- The state of the host at the end. -/
def host {σ : Type} : Outcome σ → σ
  | finished _ host => host
  | failed _ host => host
  | outOfFuel _ host => host

end Outcome

namespace CodeModule

/-- The run of a module from a state, for at most `fuel` steps. -/
def runFrom {σ : Type} (m : CodeModule) (host : Host σ) :
    (fuel : Nat) → MachineState → σ → Outcome σ
  | 0, state, h => .outOfFuel state h
  | fuel + 1, state, h =>
      match m.step state with
      | .next state' => m.runFrom host fuel state' h
      | .halt state' => .finished state' h
      | .fault error => .failed error h
      | .write line state' =>
          match host.write line h with
          | (.error reason, h') => .failed (.hostFailure reason) h'
          | (.ok (), h') => m.runFrom host fuel state' h'
      | .read state' =>
          match host.read h with
          | (.error reason, h') => .failed (.hostFailure reason) h'
          | (.ok none, h') => .failed .endOfInput h'
          | (.ok (some line), h') => m.runFrom host fuel (state'.push (.string line)) h'

/-- A run that has ended stays as it is under a greater bound. -/
theorem runFrom_add {σ : Type} (m : CodeModule) (host : Host σ) (fuel extra : Nat)
    (state : MachineState) (h : σ)
    (hended : ∀ state' h', m.runFrom host fuel state h ≠ .outOfFuel state' h') :
    m.runFrom host (fuel + extra) state h = m.runFrom host fuel state h := by
  induction fuel generalizing state h with
  | zero => exact absurd rfl (hended state h)
  | succ fuel ih =>
      rw [show fuel + 1 + extra = (fuel + extra) + 1 by omega]
      simp only [runFrom] at hended ⊢
      cases hstep : m.step state with
      | next state' =>
          simp only [hstep] at hended ⊢
          exact ih state' h hended
      | halt state' => rfl
      | fault error => rfl
      | write line state' =>
          simp only [hstep] at hended ⊢
          rcases hwrite : host.write line h with ⟨reason | _, h'⟩
          · rfl
          · simp only [hwrite] at hended ⊢
            exact ih state' h' hended
      | read state' =>
          simp only [hstep] at hended ⊢
          rcases hread : host.read h with ⟨reason | _ | line, h'⟩
          · rfl
          · rfl
          · simp only [hread] at hended ⊢
            exact ih _ h' hended

/-- The run of a module from its start. -/
def run {σ : Type} (m : CodeModule) (host : Host σ) (fuel : Nat) (h : σ) : Outcome σ :=
  m.runFrom host fuel (.start m) h

end CodeModule

end SlotLang
