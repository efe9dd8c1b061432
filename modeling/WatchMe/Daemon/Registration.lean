import WatchMe.Daemon.Commit
import WatchMe.Hooks.Claude

/-! # Registration

The watchers that a client builds for its agent, and what their registration does to the
recovery machine of an entry. No client builds a machine.
-/
namespace WatchMe
open Effects RecoveryMachine
variable {w : WatcherState}

def invalidSession (id : String) : Bool := id == "" || decide (256 < id.utf8ByteSize)

namespace WatcherState

def setClaudeSession (w : WatcherState) (reference : ClaudeSessionReference) :
    Except String WatcherState := do
  refuseIf (invalidSession reference.sessionId || !isAbsolute reference.transcriptPath
    || !isAbsolute reference.markerPath || !isAbsolute reference.processCwd
    || reference.targetSession.any invalidSession) "invalid trusted Claude session reference"
  return { w with claudeSession := some reference }

def setCodexSession (w : WatcherState) (reference : CodexSessionReference) :
    Except String WatcherState := do
  refuseIf (invalidSession reference.threadId || !isAbsolute reference.rolloutPath
    || !isAbsolute reference.processCwd || reference.targetSession.any invalidSession
    || reference.appServerStatePath.any (fun path => !isAbsolute path))
    "invalid trusted Codex session reference"
  return { w with codexSession := some reference }

end WatcherState

/-- The sessions that were found open in the process of the agent. -/
structure OpenSessions where
  claude : Option ClaudeSessionReference
  codex : Option CodexSessionReference

def attachClaudeSession (w : WatcherState) : Option ClaudeSessionReference → WatcherState
  | none => w
  | some reference => (w.setClaudeSession reference).toOption.getD w

def attachCodexSession (w : WatcherState) : Option CodexSessionReference → WatcherState
  | none => w
  | some reference => (w.setCodexSession reference).toOption.getD w

def attachSessions (w : WatcherState) (sessions : OpenSessions) : WatcherState :=
  attachCodexSession (attachClaudeSession w sessions.claude) sessions.codex

def processRegistration (resolved : ProcessIdentity) (sessions : OpenSessions) (now : Nat) :
    WatcherState :=
  let id := "process-" ++ toString resolved.pid ++ "-" ++ toString resolved.startTime
  attachSessions (.new id (.process resolved) .registered 0 now) sessions

def normalizeTty (tty : String) : List Char :=
  if "/dev/".toList.isPrefixOf tty.toList then tty.toList.drop 5 else tty.toList

def TargetIdentity.tmux (pane : MuxIdentity) (process : ProcessIdentity)
    (chrome : Option TrustedScreenBoundary) : TargetIdentity :=
  .multiplexer "tmux" pane.server pane.paneId process (some pane.sessionId)
    (some (.tmux pane.server pane.serverInstance pane.sessionId pane.windowId pane.paneId
      pane.tty)) chrome false

def TargetIdentity.herdr (pane : MuxIdentity) (process : ProcessIdentity)
    (wireProtocol : HerdrWireProtocol) : TargetIdentity :=
  .multiplexer "herdr" pane.server pane.paneId process (some pane.sessionId)
    (some (.herdr pane.server pane.serverInstance pane.sessionId pane.windowId pane.paneId
      pane.tty wireProtocol)) none false

def herdrRegistration (resolved : ProcessIdentity) (pane : MuxIdentity) (sessions : OpenSessions)
    (now : Nat) : Except String WatcherState := do
  refuseIf (pane.process != resolved
    || normalizeTty pane.tty != normalizeTty (resolved.tty.getD ""))
    "agent ancestor and Herdr pane process/TTY identities do not match"
  let id := "herdr-" ++ pane.paneId ++ "-" ++ toString resolved.pid ++ "-"
    ++ toString resolved.startTime
  let wireProtocol :=
    if containsText "-protocol-16-".toList pane.serverInstance.toList then .native16 else .bridgeV1
  return attachSessions (.new id (.herdr pane resolved wireProtocol) .registered 0 now) sessions

def tmuxRegistration (resolved : ProcessIdentity) (pane : MuxIdentity) (sessions : OpenSessions)
    (now : Nat) : Except String WatcherState := do
  refuseIf (normalizeTty (resolved.tty.getD "") != normalizeTty (pane.process.tty.getD ""))
    "agent process and tmux pane TTY identities do not match"
  let paneNumber := String.ofList (pane.paneId.toList.dropWhile (· == '%'))
  let id := "tmux-" ++ paneNumber ++ "-" ++ toString resolved.pid ++ "-"
    ++ toString resolved.startTime
  return attachSessions (.new id (.tmux pane resolved none) .registered 0 now) sessions

/-- The watchers a client can ask to register. -/
inductive Built : WatcherState → Prop
  | process (resolved : ProcessIdentity) (sessions : OpenSessions) (now : Nat) :
      Built (processRegistration resolved sessions now)
  | tmux {resolved : ProcessIdentity} {pane : MuxIdentity} {sessions : OpenSessions} {now : Nat}
      {w : WatcherState} : tmuxRegistration resolved pane sessions now = .ok w → Built w
  | herdr {resolved : ProcessIdentity} {pane : MuxIdentity} {sessions : OpenSessions} {now : Nat}
      {w : WatcherState} : herdrRegistration resolved pane sessions now = .ok w → Built w

/-- No machine, and a target for which no restart makes one. -/
structure Unequipped (w : WatcherState) : Prop where
  recovery : w.recovery = none
  target : w.target.needsRevalidation = false

theorem Unequipped.getD {result : Except String WatcherState} (h : Unequipped w)
    (hok : ∀ w', result = .ok w' → Unequipped w') : Unequipped (result.toOption.getD w) := by
  cases hr : result with
  | error => exact h
  | ok w' => exact hok w' hr

theorem Unequipped.attachSessions (h : Unequipped w) (sessions : OpenSessions) :
    Unequipped (attachSessions w sessions) := by
  have hclaude : Unequipped (attachClaudeSession w sessions.claude) := by
    cases sessions.claude with
    | none => exact h
    | some =>
      refine h.getD fun w' hset => ?_
      obtain ⟨-,heq⟩ := check_ok_iff.1 hset
      cases heq
      exact ⟨h.recovery,h.target⟩
  unfold WatchMe.attachSessions
  cases sessions.codex with
  | none => exact hclaude
  | some =>
    refine hclaude.getD fun w' hset => ?_
    obtain ⟨-,heq⟩ := check_ok_iff.1 hset
    cases heq
    exact ⟨hclaude.recovery,hclaude.target⟩

theorem Built.unequipped (h : Built w) : Unequipped w := by
  cases h with
  | process resolved sessions => exact Unequipped.attachSessions ⟨rfl,rfl⟩ sessions
  | tmux h =>
    obtain ⟨-,heq⟩ := check_ok_iff.1 h
    cases heq
    exact Unequipped.attachSessions ⟨rfl,rfl⟩ _
  | herdr h =>
    obtain ⟨-,heq⟩ := check_ok_iff.1 h
    cases heq
    exact Unequipped.attachSessions ⟨rfl,rfl⟩ _

/-- The call brings no machine to its watcher, now or at a later restart. -/
def BringsNoMachine : RegistryCall → Prop
  | .register fresh => Unequipped fresh
  | .persistRecovery _ _ _ => False
  | _ => True

def Strips (existing fresh : WatcherState) : Prop :=
  (Registry.refreshOf existing fresh).processPromotion = true ∨
    (Registry.refreshOf existing fresh).attachmentUpgrade = true ∨
    ((Registry.refreshOf existing fresh).replayRevalidated = true ∧ fresh.recovery = none)

def KeepsMachine (id : String) (R : Registry) (e : RegistryEvent) : Prop :=
  ∀ fresh answer existing, e = RegistryCall.answered (.register fresh) answer →
    R.resolves fresh = some id → R.get id = some existing → ¬ Strips existing fresh

theorem withProcess_needsRevalidation (target : TargetIdentity) (process : ProcessIdentity) :
    (target.withProcess process).needsRevalidation = target.needsRevalidation := by
  cases target <;> rfl

theorem refreshed_target (refresh : Registry.Refresh) (existing fresh : WatcherState) :
    (Registry.refreshed refresh existing fresh).target = fresh.target := by
  unfold Registry.refreshed
  split
  · rfl
  · split <;> rfl

theorem refreshed_recovery (refresh : Registry.Refresh) (existing fresh : WatcherState) :
    (Registry.refreshed refresh existing fresh).recovery =
      if refresh.processPromotion || refresh.attachmentUpgrade then none
      else if refresh.replayRevalidated then fresh.recovery else existing.recovery := by
  unfold Registry.refreshed
  split
  · rfl
  · split <;> rfl

theorem Unequipped.edit {c : RegistryCall} {w' : WatcherState} (h : Unequipped w)
    (hc : BringsNoMachine c) (he : RegistryCall.Edit w w' c) : Unequipped w' := by
  cases c with
  | register fresh =>
    cases he
    refine ⟨?_,(refreshed_target _ w fresh).symm ▸ hc.target⟩
    rw [refreshed_recovery,h.recovery,hc.recovery,ite_self,ite_self]
  | persistRecovery => exact hc.elim
  | _ =>
    obtain ⟨htarget,-,-,hrecovery⟩ := he.frame fun _ h => by cases h
    refine ⟨?_,?_⟩
    · simpa [h.recovery,RegistryCall.recovery] using hrecovery
    · rw [htarget]
      first | exact h.target | exact (withProcess_needsRevalidation _ _).trans h.target

theorem Unequipped.afterRestart (h : Unequipped w) : Unequipped (Registry.afterRestart w) := by
  refine ⟨?_,h.target⟩
  simp [Registry.afterRestart,Registry.restoredRecovery,Registry.machineAtRestart,h.recovery,
    h.target]

theorem isSome_edit {c : RegistryCall} {w' : WatcherState} (h : w.recovery.isSome = true)
    (hc : ∀ fresh, c = .register fresh → ¬ Strips w fresh) (he : RegistryCall.Edit w w' c) :
    w'.recovery.isSome = true := by
  cases c with
  | register fresh =>
    cases he
    have hkeeps := hc fresh rfl
    simp only [Strips,not_or,not_and] at hkeeps
    rw [refreshed_recovery]
    simp only [Bool.not_eq_true] at hkeeps
    simp only [hkeeps.1,hkeeps.2.1,Bool.or_self,Bool.false_eq_true,if_false]
    split
    · next hreplay => exact Option.isSome_iff_ne_none.2 (hkeeps.2.2 hreplay)
    · exact h
  | _ => rw [(he.frame fun _ h => by cases h).2.2.2,h,Bool.true_or]

theorem isSome_afterRestart (h : w.recovery.isSome = true) :
    (Registry.afterRestart w).recovery.isSome = true := by
  obtain ⟨m,hm⟩ := Option.isSome_iff_exists.1 h
  simp [Registry.afterRestart,Registry.restoredRecovery,Registry.machineAtRestart,hm]

section Runs
variable [Chrono] [JsonText] {R R' : Registry} {id : String} {h : List RegistryEvent}
variable {host : WriteOutcome} {w : WatcherState}

theorem unequipped_runs (hhas : R.Has id Unequipped) (hr : registryMachine.Runs R h R')
    (hcalls : ∀ c answer, RegistryCall.answered c answer ∈ h → BringsNoMachine c) :
    R'.Has id Unequipped := by
  refine hr.invariant
    (fun _ => hhas) ?_ hcalls
  rintro h R ⟨op,answer⟩ R' ih hs hcalls
  have hhas := ih fun c answer hmem => hcalls c answer (List.mem_append_left _ hmem)
  cases op with
  | restart => exact hhas.reloads (fun w h => h.afterRestart) hs
  | call c =>
    obtain ⟨host,hcall⟩ := hs
    have hp := c.perform_performed R host
    rw [hcall] at hp
    refine hhas.performed hp fun v v' now _ hv hedit _ => ?_
    have hv' := hv.edit (hcalls c answer (by simp [RegistryCall.answered])) hedit
    exact ⟨hv'.recovery,hv'.target⟩

theorem equipped_runs (hhas : R.Has id fun w => w.recovery.isSome = true)
    (hr : (registryMachine.restrict (KeepsMachine id)).Runs R h R') :
    R'.Has id fun w => w.recovery.isSome = true := by
  refine hr.invariant
    hhas ?_
  rintro h R ⟨op,answer⟩ R' hhas ⟨hkeeps,hs⟩
  cases op with
  | restart => exact hhas.reloads (fun w h => isSome_afterRestart h) hs
  | call c =>
    obtain ⟨host,hcall⟩ := hs
    have hp := c.perform_performed R host
    rw [hcall] at hp
    refine hhas.performed hp fun v v' now hget hv hedit habout => ?_
    have hv' : v'.recovery.isSome = true := by
      refine isSome_edit hv ?_ hedit
      rintro fresh rfl
      exact hkeeps fresh answer v rfl habout hget
    exact hv'

omit [Chrono] in
theorem persistWatchers_ok {β : Type} {next : StrMap WatcherState} {v v' : β}
    (h : R.persistWatchers next v host = (.ok v',R')) :
    v' = v ∧ R' = ⟨next,some (Registry.encoded next)⟩ := by
  unfold Registry.persistWatchers at h
  split at h
  · cases h
  · cases host with
    | stored =>
      cases h
      exact ⟨rfl,rfl⟩
    | lost | landed => cases h

omit [Chrono] in
theorem register_ok {fresh : WatcherState} {outcome : RegistrationOutcome}
    (h : R.register fresh host = (.ok outcome,R')) :
    (outcome = .added fresh.watcherId ∧ R.resolves fresh = none ∧
      R' = R.put fresh.watcherId fresh) ∨
    ∃ id, R.resolves fresh = some id ∧ ((outcome = .existing id ∧ R' = R) ∨
      ∃ w revision, R.watchers[id]? = some w ∧ (revalidates (Registry.refreshOf w fresh) = true ∨
          (Registry.refreshOf w fresh).targetUpgraded = true) ∧
        outcome = (if revalidates (Registry.refreshOf w fresh) then .revalidated id
          else .existing id) ∧
        R' = R.put id { Registry.refreshed (Registry.refreshOf w fresh) w fresh with
          revision, updatedAtUnixMs := fresh.updatedAtUnixMs }) := by
  rcases RegistryCall.register_cases R fresh host with
    ⟨id,hid,heq | ⟨heq,-⟩⟩ | ⟨hnone,⟨error,heq⟩ | ⟨-,-,heq⟩⟩ <;> rw [heq] at h
  · refine .inr ⟨id,hid,?_⟩
    rcases RegistryCall.refreshExisting_cases R id fresh host with
      ⟨error,heq⟩ | heq | ⟨w,hw,hcause,heq⟩ <;> rw [heq] at h
    · cases h
    · cases h
      exact .inl ⟨rfl,rfl⟩
    · unfold Registry.mutate at h
      simp only [hw] at h
      split at h
      · cases h
      · obtain ⟨rfl,rfl⟩ := persistWatchers_ok h
        exact .inr ⟨w,_,hw,hcause,rfl,rfl⟩
  · cases h
    exact .inr ⟨id,hid,.inl ⟨rfl,rfl⟩⟩
  · cases h
  · obtain ⟨rfl,rfl⟩ := persistWatchers_ok h
    exact .inl ⟨rfl,hnone,rfl⟩

omit [Chrono] in
theorem register_added {i : String} (hadd : R.register w host = (.ok (.added i),R')) :
    i = w.watcherId ∧ R' = R.put w.watcherId w := by
  rcases register_ok hadd with ⟨heq,-,hR⟩ | ⟨id,-,⟨heq,-⟩ | ⟨v,revision,-,-,heq,-⟩⟩
  · cases heq
    exact ⟨rfl,hR⟩
  · cases heq
  · split at heq <;> cases heq

def missingRecovery : RegistryError := .corrupt "missing recovery state"

omit [Chrono] in
theorem applyRecoveryTransition_missing (hw : R.get id = some w) (hrec : w.recovery = none)
    (command : RecoveryCommand) (now : Nat) (host : WriteOutcome) :
    (R.applyRecoveryTransition id command now host).1 = .error missingRecovery := by
  rw [Registry.get] at hw
  simp only [Registry.applyRecoveryTransition,Registry.mutate,hw,hrec]
  rfl

omit [Chrono] in
theorem applyRecoveryTransition_equipped (hw : R.get id = some w) (hrec : w.recovery.isSome = true)
    (command : RecoveryCommand) (now : Nat) (host : WriteOutcome) :
    (R.applyRecoveryTransition id command now host).1 ≠ .error missingRecovery := by
  obtain ⟨m,hm⟩ := Option.isSome_iff_exists.1 hrec
  rw [Registry.get] at hw
  simp only [Registry.applyRecoveryTransition,Registry.mutate,hw,hm,applyCommand]
  cases happlied : m.applied command with
  | error =>
    rintro ⟨⟩
    exact absurd (applied_refusal happlied) (by decide)
  | ok =>
    dsimp only [Except.mapError,bind,Except.bind,pure,Except.pure]
    split
    · next hrevision =>
      unfold nextRevision at hrevision
      split at hrevision <;> cases hrevision
      exact fun h => by cases h
    · unfold Registry.persistWatchers
      split
      · exact fun h => by cases h
      · cases host <;> exact fun h => by cases h

/-- After a client's watcher was added, its entry has no machine in any state of any run that
brings none, so every transition of its recovery is refused; and from a state in which memory
and file have one, it stays as long as no registration strips the entry. -/
theorem registered_machine {w : WatcherState} {host : WriteOutcome} {i : String}
    (hkeyed : R.Keyed) (hbuilt : Built w) (hadd : R.register w host = (.ok (.added i),R')) :
    (∀ h R₁, registryMachine.Runs R' h R₁ →
      (∀ c answer, RegistryCall.answered c answer ∈ h → BringsNoMachine c) →
      R₁.Has i Unequipped ∧ ∀ command now host,
        (R₁.applyRecoveryTransition i command now host).1 = .error missingRecovery) ∧
    ∀ h R₁ h' R₂, registryMachine.Runs R' h R₁ →
      (R₁.Has i fun w => w.recovery.isSome = true) →
      (registryMachine.restrict (KeepsMachine i)).Runs R₁ h' R₂ →
      (R₂.Has i fun w => w.recovery.isSome = true) ∧ ∀ command now host,
        (R₂.applyRecoveryTransition i command now host).1 ≠ .error missingRecovery := by
  obtain ⟨rfl,rfl⟩ := register_added hadd
  constructor
  · intro h R₁ hr hcalls
    have hkeyed' : ∀ (j : String) (v : WatcherState),
        (R.watchers.insert w.watcherId w)[j]? = some v → v.watcherId = j := by
      intro j v hv
      rw [StrMap.getElem?_insert] at hv
      split at hv
      · next heq =>
        cases hv
        exact heq
      · exact hkeyed j v hv
    have hself : (R.watchers.insert w.watcherId w)[w.watcherId]? = some w := by
      rw [StrMap.getElem?_insert,if_pos rfl]
    have hstart : (R.put w.watcherId w).Has w.watcherId Unequipped :=
      ⟨hkeyed',⟨w,hself,hbuilt.unequipped⟩,_,rfl,hkeyed',w,hself,hbuilt.unequipped⟩
    have hhas := unequipped_runs hstart hr hcalls
    obtain ⟨v,hv,hnone⟩ := hhas.memory
    exact ⟨hhas,applyRecoveryTransition_missing hv hnone.recovery⟩
  · intro h R₁ h' R₂ _ hhas hr
    have hhas' := equipped_runs hhas hr
    obtain ⟨v,hv,hsome⟩ := hhas'.memory
    exact ⟨hhas',applyRecoveryTransition_equipped hv hsome⟩

end Runs

namespace Sample
open Registry

def client : WatcherState := processRegistration (.new 7 1) ⟨none,none⟩ 0

theorem client_added :
    let _ := jsonText
    Registry.register ⟨∅,none⟩ client .stored =
      (.ok (.added "process-7-1"),Registry.put ⟨∅,none⟩ "process-7-1" client) := by
  intro _
  rfl

end Sample

theorem registered_machine_process :
    let _ := Sample.chrono
    let _ := Sample.jsonText
    ∃ R, Registry.register ⟨∅,none⟩ Sample.client .stored = (.ok (.added "process-7-1"),R) ∧
      R.Has "process-7-1" Unequipped := by
  intro _ _
  have hkeyed : Registry.Keyed ⟨∅,none⟩ := fun id w hw => by simp at hw
  have hruns : registryMachine.Runs (Registry.put ⟨∅,none⟩ "process-7-1" Sample.client) [] _ :=
    .start
  exact ⟨_,Sample.client_added,((registered_machine hkeyed (.process (.new 7 1) ⟨none,none⟩ 0)
    Sample.client_added).1 [] _ hruns fun _ _ h => by cases h).1⟩

/-- A process registration leaves an entry whose recovery can never begin. -/
theorem registered_without_machine :
    let _ := Sample.chrono
    let _ := Sample.jsonText
    ∃ R w, Built Sample.client ∧
      Registry.register ⟨∅,none⟩ Sample.client .stored = (.ok (.added "process-7-1"),R) ∧
      R.get "process-7-1" = some w ∧ w.recovery = none ∧
      ∀ clock now host, (R.applyRecoveryTransition "process-7-1"
        (.beginAction Sample.fingerprint clock) now host).1 = .error missingRecovery := by
  intro _ _
  have hget := Registry.get_put ⟨∅,none⟩ "process-7-1" Sample.client
  exact ⟨_,_,.process (.new 7 1) ⟨none,none⟩ 0,Sample.client_added,hget,rfl,
    fun clock => applyRecoveryTransition_missing hget rfl _⟩

structure Retains (m m' : RecoveryMachine) : Prop where
  attempts : m.attempts ≤ m'.attempts
  cumulativeWait : m.cumulativeWait ≤ m'.cumulativeWait
  plannerCalls : m.plannerCalls ≤ m'.plannerCalls
  completed : ∀ fingerprint ∈ m.completed, fingerprint ∈ m'.completed

theorem Retains.refl (m : RecoveryMachine) : Retains m m :=
  ⟨Nat.le_refl _,Nat.le_refl _,Nat.le_refl _,fun _ h => h⟩

section Again
variable [JsonText] {R R' : Registry} {id : String} {fresh w : WatcherState}
  {host : WriteOutcome} {answer : Except RegistryError RegistrationOutcome}

theorem register_resolves (host : WriteOutcome) (hresolves : R.resolves fresh = some id) :
    R.register fresh host = R.refreshExisting id fresh host ∨
      R.register fresh host = (.ok (.existing id),R) ∧
        ∃ existing, R.find (fun existing => exactProcessEq existing.target fresh.target) =
            some existing ∧ existing.watcherId = id ∧
          isRicherTarget fresh.target existing.target = true := by
  rcases RegistryCall.register_cases R fresh host with ⟨id',hid,h⟩ | ⟨hnone,-⟩
  · obtain rfl := Option.some.inj (hid.symm.trans hresolves)
    exact h
  · cases hnone.symm.trans hresolves

end Again

namespace Sample
open Registry

end Sample

attribute [local instance] Sample.chrono Sample.jsonText

end WatchMe
