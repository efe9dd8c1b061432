import WatchMe.Daemon.Commit
import WatchMe.Recovery.Transaction

/-! # The budget a begun action is authorised with

The coordinator counts an attempt when it begins it, and the context that the policy sees is
derived from the watcher after that.
-/
namespace WatchMe
open RecoveryMachine Transaction

theorem check_error_iff {ε β : Type} {x : Except ε Unit} {f : Unit → Except ε β} {e : ε} :
    (x >>= f) = .error e ↔ x = .error e ∨ (x = .ok () ∧ f () = .error e) := by
  cases x with
  | error => simp [bind,Except.bind]
  | ok => simp [bind,Except.bind]

@[simp] theorem refuseIf_error_iff {ε : Type} {bad : Bool} {error e : ε} :
    refuseIf bad error = .error e ↔ bad = true ∧ error = e := by
  cases bad <;> simp [refuseIf]

def RecoveryContext.fromWatcher (watcher : WatcherState) (nowMonotonicSeconds : Nat) :
    Except String RecoveryContext :=
  match watcher.recovery with
  | none => .error "missing recovery machine"
  | some machine =>
    match watcher.lastObservation with
    | none => .error "missing current evidence"
    | some event =>
      if (machine.state = .confirmed ∨ machine.state = .acting)
          ∧ event.category.isActionable = true then
        .ok {
          attemptsRemaining := machine.budget.maxAttempts - machine.attempts
          cumulativeWaitRemainingSeconds :=
            (machine.budget.maxCumulativeWait - machine.cumulativeWait) / nanosPerSecond
          plannerCallsRemaining := machine.budget.plannerCalls - machine.plannerCalls
          plannerConcurrencyAvailable := false
          -- an action that was begun owns the cooldown slot already
          cooldownReady := machine.state == .acting
            || !machine.lastAttemptMono.any (fun last =>
              decide (nowMonotonicSeconds - last < machine.budget.cooldown / nanosPerSecond))
          sessionId := event.sessionId
          failedProviderFamily := event.providerFamily
          plannerProviderFamily := none }
      else .error "recovery is not confirmed"

theorem fromWatcher_ok {w : WatcherState} {now : Nat} {m : RecoveryMachine}
    {context : RecoveryContext} (hm : w.recovery = some m)
    (h : RecoveryContext.fromWatcher w now = .ok context) :
    context.attemptsRemaining = m.budget.maxAttempts - m.attempts ∧
      context.cumulativeWaitRemainingSeconds =
        (m.budget.maxCumulativeWait - m.cumulativeWait) / nanosPerSecond ∧
      (m.state = .acting → context.cooldownReady = true) := by
  simp only [RecoveryContext.fromWatcher,hm] at h
  split at h
  · cases h
  · split at h
    · cases h
      exact ⟨rfl,rfl,fun hacting => by simp [hacting]⟩
    · cases h

def attemptDenial : String := "attempt or cooldown budget denied"

section Denial
variable [Chrono]

theorem validate_ne_attemptDenial (action : Action) :
    action.validate ≠ .error attemptDenial := by
  simp [Action.validate,check_error_iff,attemptDenial]

theorem waitRefusal_ne_attemptDenial (kind : ActionKind) (context : PolicyContext) :
    waitRefusal kind context ≠ .error attemptDenial := by
  unfold waitRefusal
  split
  · simp [attemptDenial]
  · split
    · simp [attemptDenial]
    · simp [attemptDenial]
  · simp

theorem authorize_attemptDenial_iff {action : Action} {context : PolicyContext} :
    authorize action context = .error attemptDenial ↔ action.validate = .ok () ∧
      (!context.targetRevalidated || !context.evidenceCurrent || context.humanIntervened
        || !context.processAlive || !context.paneMatches) = false ∧
      (plannerEscalation action.kind && (context.failedProviderFamily.isNone
        || context.plannerProviderFamily.isNone
        || context.failedProviderFamily == context.plannerProviderFamily)) = false ∧
      (context.attemptsRemaining == 0 || !context.cooldownReady) = true := by
  have hvalidate := validate_ne_attemptDenial action
  have hwait := waitRefusal_ne_attemptDenial action.kind context
  simp only [authorize,check_error_iff,hvalidate,hwait,refuseIf_error_iff,refuseIf_ok_iff,
    false_or]
  simp [attemptDenial]

end Denial

namespace Sample

theorem resume_valid [Chrono] : resume.action.validate = .ok () := by
  rfl

theorem resume_denied [Chrono] {context : RecoveryContext} (h : context.attemptsRemaining = 0)
    (wall : String) :
    authorize resume.action (policyContext paused context wall) = .error attemptDenial := by
  refine authorize_attemptDenial_iff.2 ⟨resume_valid,rfl,rfl,?_⟩
  simp [policyContext,h]

end Sample

/-- The attempt that was begun is not denied for its own budget exactly when it is not the
last one: the context is computed after the attempt was counted. -/
theorem begun_attempt_usable_iff [Chrono] [JsonText] {R R' : Registry} {id fingerprint : String}
    {clock : ClockSnapshot} {now later : Nat} {host : WriteOutcome} {state : RecoveryState}
    {w w' : WatcherState} {m : RecoveryMachine} {context : RecoveryContext}
    (hw : R.get id = some w) (hm : w.recovery = some m)
    (hbegin : R.applyRecoveryTransition id (.beginAction fingerprint clock) now host =
      (.ok state,R'))
    (hw' : R'.get id = some w') (hcontext : RecoveryContext.fromWatcher w' later = .ok context) :
    (∀ action live wall, authorize action (policyContext live context wall) ≠
      .error attemptDenial) ↔ m.attempts + 1 < m.budget.maxAttempts := by
  have hp := RegistryCall.perform_performed
    (RecoveryCoordinator.beginAction id fingerprint clock now) R host
  rw [RecoveryCoordinator.beginAction,RegistryCall.perform,hbegin] at hp
  obtain ⟨v,v',_,hv,⟨m₀,m₁,hm₀,happlied,rfl⟩,hnext⟩ := hp.stored_edit rfl rfl
  obtain rfl := Option.some.inj (hw.symm.trans hv)
  obtain rfl := Option.some.inj (hm.symm.trans hm₀)
  rw [Registry.get,hnext,StrMap.getElem?_insert,if_pos rfl] at hw'
  obtain rfl := Option.some.inj hw'
  cases applied_effect happlied with
  | begun =>
    obtain ⟨hremaining,-,hcooldown⟩ := fromWatcher_ok rfl hcontext
    replace hremaining : context.attemptsRemaining =
      m.budget.maxAttempts - (m.attempts + 1) := hremaining
    constructor
    · intro h
      by_contra hlast
      exact h Sample.resume.action Sample.paused "" (Sample.resume_denied (by omega) _)
    · intro hlt action live wall hdenied
      have hdenial := (authorize_attemptDenial_iff.1 hdenied).2.2.2
      have hready : context.cooldownReady = true := hcooldown rfl
      simp [policyContext,hready,hremaining] at hdenial
      omega

namespace Sample
open Registry

def twiceTried : RecoveryMachine := { validated with attempts := 2 }

def thirdAttempt : RecoveryMachine :=
  { twiceTried.advanced .acting with attempts := 3, lastAttemptMono := some 5 }

end Sample

attribute [local instance] Sample.chrono Sample.jsonText

theorem begun_attempt_usable_first :
    let _ := Sample.chrono
    let _ := Sample.jsonText
    ∃ (R R' : Registry) (w' : WatcherState) (context : RecoveryContext),
      R.applyRecoveryTransition "watcher-1" (.beginAction Sample.fingerprint ⟨5,5⟩) 2 .stored =
        (.ok .acting,R') ∧
      R'.get "watcher-1" = some w' ∧ RecoveryContext.fromWatcher w' 5 = .ok context ∧
      ∀ action live wall, authorize action (policyContext live context wall) ≠
        .error attemptDenial := by
  let R := Sample.registry.put "watcher-1" Sample.reopened
  have hbegin : R.applyRecoveryTransition "watcher-1" (.beginAction Sample.fingerprint ⟨5,5⟩) 2
      .stored = (.ok .acting,_) := Prod.ext (by decide) rfl
  have hget : (R.applyRecoveryTransition "watcher-1" (.beginAction Sample.fingerprint ⟨5,5⟩) 2
      .stored).2.get "watcher-1" =
        some (Sample.withMachine Sample.reopened Sample.attempted 2) := by decide
  exact ⟨_,_,_,_,hbegin,hget,rfl,
    (begun_attempt_usable_iff (Registry.get_put _ _ _) rfl hbegin hget rfl).2 (by decide)⟩

/-- The third attempt of a budget of three begins, and is then denied. -/
theorem third_attempt_denied :
    let _ := Sample.chrono
    let _ := Sample.jsonText
    ∃ (R R' : Registry) (w w' : WatcherState) (m : RecoveryMachine) (context : RecoveryContext),
      R.get "watcher-1" = some w ∧ w.recovery = some m ∧ m.budget.maxAttempts = 3 ∧
      m.attempts = 2 ∧
      R.applyRecoveryTransition "watcher-1" (.beginAction Sample.fingerprint ⟨5,5⟩) 3 .stored =
        (.ok .acting,R') ∧
      R'.get "watcher-1" = some w' ∧ RecoveryContext.fromWatcher w' 5 = .ok context ∧
      authorize Sample.resume.action (policyContext Sample.paused context "") =
        .error attemptDenial := by
  let w := Sample.withMachine Sample.reopened Sample.twiceTried 2
  exact ⟨Sample.registry.put "watcher-1" w,_,w,Sample.withMachine w Sample.thirdAttempt 3,
    Sample.twiceTried,_,Registry.get_put _ _ _,rfl,rfl,rfl,Prod.ext (by decide) rfl,
    by decide,rfl,Sample.resume_denied rfl ""⟩

end WatchMe
