import WatchMe.Model.Event

/-! # The recovery state machine

`RecoveryMachine` of one watcher. Its methods work in place, and what a method has
written before it returns an error stays written, so they are state programs with errors.
Durations are in nanoseconds.
-/
namespace WatchMe

inductive RecoveryState where
  | needsRevalidation
  | observing
  | confirmed
  | acting
  | waiting
  | verifying
  | recovered
  | humanRequired
  | stopped
  deriving DecidableEq, Repr

structure Budget where
  maxAttempts : Nat
  maxCumulativeWait : Nat
  plannerCalls : Nat
  cooldown : Nat
  deriving DecidableEq, Repr

structure ClockSnapshot where
  monotonicSeconds : Nat
  wallSeconds : Int
  deriving DecidableEq, Repr

inductive RecoveryCommand where
  | revalidated
  | confirm (fingerprint : String)
  | beginAction (fingerprint : String) (clock : ClockSnapshot)
  | actionFailed (fingerprint : String) (wait : Nat) (clock : ClockSnapshot)
  | actionSucceeded (fingerprint : String)
  | rearmAfterWait
  | reservePlanner
  deriving DecidableEq, Repr

structure AuditTransition where
  fromState : RecoveryState
  toState : RecoveryState
  reason : String
  deriving DecidableEq, Repr

/-- Decoding does not check `schema_version`; `restore_for_restart` does. -/
structure RecoveryMachine where
  schemaVersion : Nat
  state : RecoveryState
  budget : Budget
  attempts : Nat
  cumulativeWait : Nat
  lastAttemptMono : Option Nat
  completed : Std.ExtTreeSet String
  current : Option String
  plannerCalls : Nat
  audit : List AuditTransition
  deriving DecidableEq

def nanosPerSecond : Nat := 10 ^ 9

def durationMax : Nat := (2 ^ 64 - 1) * nanosPerSecond + (nanosPerSecond - 1)

abbrev MachineM := ExceptT String (StateM RecoveryMachine)

namespace RecoveryMachine

def new (budget : Budget) : RecoveryMachine where
  schemaVersion := 1
  state := .needsRevalidation
  budget := budget
  attempts := 0
  cumulativeWait := 0
  lastAttemptMono := none
  completed := ∅
  current := none
  plannerCalls := 0
  audit := []

def validTransition : RecoveryState → RecoveryState → Bool
  | .needsRevalidation, .observing
  | .observing, .confirmed
  | .confirmed, .acting
  | .acting, .waiting
  | .recovered, .observing
  | .acting, .verifying
  | .waiting, .confirmed
  | .verifying, .recovered => true
  | _, _ => false

def moved (m : RecoveryMachine) (next : RecoveryState) (reason : String) : RecoveryMachine :=
  { m with state := next, audit := m.audit ++ [⟨m.state,next,reason⟩] }

def transition (next : RecoveryState) : MachineM Unit := do
  let m ← get
  if validTransition m.state next then set (m.moved next "validated transition")
  else throw "invalid recovery transition"

def restoreForRestart (m : RecoveryMachine) : Except String RecoveryMachine :=
  if m.schemaVersion != 1 then .error "unsupported recovery schema"
  else .ok (m.moved .needsRevalidation "restart requires live revalidation")

def revalidated : MachineM Unit := transition .observing

def confirm (fingerprint : String) : MachineM Unit := do
  transition .confirmed
  modify fun m => { m with current := some fingerprint }

def beginAction (fingerprint : String) (now : ClockSnapshot) : MachineM Unit := do
  let m ← get
  if m.state = .needsRevalidation then throw "revalidation required"
  if m.completed.contains fingerprint then throw "duplicate action"
  if m.current ≠ some fingerprint then throw "stale evidence"
  if m.budget.maxAttempts ≤ m.attempts then throw "attempt budget exhausted"
  if m.lastAttemptMono.any (fun last =>
      now.monotonicSeconds - last < m.budget.cooldown / nanosPerSecond) then
    throw "cooldown active"
  transition .acting
  modify fun m => { m with
    attempts := m.attempts + 1, lastAttemptMono := some now.monotonicSeconds }

def actionFailed (fingerprint : String) (wait : Nat) : MachineM Unit := do
  let m ← get
  if m.current ≠ some fingerprint
      ∨ m.budget.maxCumulativeWait < min (m.cumulativeWait + wait) durationMax then
    throw "wait budget exhausted"
  -- the panic of `Duration`'s `+=`
  if durationMax < m.cumulativeWait + wait then throw "overflow when adding durations"
  modify fun m => { m with cumulativeWait := m.cumulativeWait + wait }
  transition .waiting
  transition .confirmed

def actionSucceeded (fingerprint : String) : MachineM Unit := do
  let m ← get
  if m.current ≠ some fingerprint then throw "stale evidence"
  transition .verifying
  transition .recovered
  modify fun m => { m with completed := m.completed.insert fingerprint }

def rearmAfterWait : MachineM Unit := do
  let m ← get
  if m.state ≠ .recovered then throw "wait rearm requires a completed action"
  modify fun m => { m with current := none }
  transition .observing

def reservePlannerCall : MachineM Unit := do
  let m ← get
  if m.budget.plannerCalls ≤ m.plannerCalls then throw "planner budget exhausted"
  modify fun m => { m with plannerCalls := m.plannerCalls + 1 }

def apply : RecoveryCommand → MachineM Unit
  | .revalidated => revalidated
  | .confirm fingerprint => confirm fingerprint
  | .beginAction fingerprint clock => beginAction fingerprint clock
  | .actionFailed fingerprint wait _ => actionFailed fingerprint wait
  | .actionSucceeded fingerprint => actionSucceeded fingerprint
  | .rearmAfterWait => rearmAfterWait
  | .reservePlanner => reservePlannerCall

def applied (m : RecoveryMachine) (command : RecoveryCommand) :
    Except String RecoveryMachine :=
  match (apply command).run m with
  | (.ok (),m') => .ok m'
  | (.error reason,_) => .error reason

/-- A state program that never changes the observed part, even when it fails. -/
def Preserves {α β : Type} (part : RecoveryMachine → β) (x : MachineM α) : Prop :=
  ∀ m, part (x.run m).2 = part m

namespace Preserves
variable {α β γ : Type} {part : RecoveryMachine → γ}

theorem throw (reason : String) : Preserves part (throw reason : MachineM α) := fun _ => rfl

theorem get : Preserves part (get : MachineM RecoveryMachine) := fun _ => rfl

theorem modify {f : RecoveryMachine → RecoveryMachine} (h : ∀ m, part (f m) = part m) :
    Preserves part (modify f : MachineM PUnit) := h

theorem bind {x : MachineM α} {f : α → MachineM β} (hx : Preserves part x)
    (hf : ∀ a, Preserves part (f a)) : Preserves part (x >>= f) := by
  intro m
  have hrun : (x >>= f).run m = match x.run m with
      | (.ok a,m') => (f a).run m'
      | (.error e,m') => (.error e,m') := by
    simp only [ExceptT.run_bind]
    change (x.run.bind _) m = _
    simp only [StateT.bind]
    rcases x.run m with ⟨_ | a,m'⟩ <;> rfl
  rw [hrun]
  have hxm := hx m
  rcases h : x.run m with ⟨e | a,m'⟩
  · rw [h] at hxm
    exact hxm
  · rw [h] at hxm
    exact (hf a m').trans hxm

theorem ite {c : Prop} [Decidable c] {x y : MachineM α} (hx : Preserves part x)
    (hy : Preserves part y) : Preserves part (if c then x else y) := by
  split
  · exact hx
  · exact hy

end Preserves

def fixedPart (m : RecoveryMachine) : Nat × Budget := (m.schemaVersion,m.budget)

theorem transition_preserves (next : RecoveryState) : Preserves fixedPart (transition next) := by
  intro m
  change fixedPart ((if validTransition m.state next = true then
    set (m.moved next "validated transition") else throw _ : MachineM Unit).run m).2 = _
  split <;> rfl

theorem apply_preserves (command : RecoveryCommand) : Preserves fixedPart (apply command) := by
  have hmodify := fun (f : RecoveryMachine → RecoveryMachine)
    (h : ∀ m, fixedPart (f m) = fixedPart m) => @Preserves.modify _ fixedPart f h
  cases command with
  | revalidated => exact transition_preserves _
  | confirm => exact (transition_preserves _).bind fun _ => hmodify _ fun _ => rfl
  | beginAction | actionFailed | actionSucceeded | rearmAfterWait | reservePlanner =>
    -- the guards throw; after them come transitions and writes of other fields
    refine Preserves.get.bind fun m => ?_
    repeat' first
      | with_reducible apply Preserves.ite
      | with_reducible refine Preserves.bind ?_ fun _ => ?_
      | with_reducible exact .throw _
      | with_reducible exact transition_preserves _
      | exact hmodify _ fun _ => rfl

theorem applied_fixedPart {m m' : RecoveryMachine} {command : RecoveryCommand}
    (h : m.applied command = .ok m') : m'.fixedPart = m.fixedPart := by
  have hkeep := apply_preserves command m
  unfold applied at h
  split at h
  · next heq =>
    rw [heq] at hkeep
    cases h
    exact hkeep
  · cases h

end RecoveryMachine

end WatchMe
