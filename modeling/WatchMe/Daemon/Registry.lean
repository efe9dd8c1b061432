import WatchMe.Model.State

/-! # The watcher registry

`Registry` keeps the watchers in memory and in one file. The daemon holds it in a mutex, so each
method is one atomic step. A method works on a copy of the map; the copy replaces the map only after
it was written, and a failed write leaves the old or the new file. All methods but `register` and
`refresh_existing` edit one watcher by `mutate`.
-/
namespace WatchMe

inductive RegistryError where
  | store (reason : String)
  | unknown (id : String)
  | idCollision (id : String)
  | revisionOverflow (id : String)
  | corrupt (reason : String)
  deriving DecidableEq, Repr

def RegistryError.text : RegistryError → String
  | store reason => reason
  | unknown id => "unknown watcher " ++ id
  | idCollision id => "watcher ID collision: " ++ id
  | revisionOverflow id => "watcher revision overflow: " ++ id
  | corrupt reason => "corrupt watcher registry quarantined at " ++ reason

inductive RegistrationOutcome where
  | added (id : String)
  | existing (id : String)
  | revalidated (id : String)
  deriving DecidableEq, Repr

def RegistrationOutcome.id : RegistrationOutcome → String
  | added id | existing id | revalidated id => id

def restartRevalidationReason : String := "target revalidation required after daemon restart"

structure PersistedRegistry where
  version : Nat
  watchers : List WatcherWire

/-- The length of the JSON text in which a registry is written. -/
class JsonText where
  registryBytes : PersistedRegistry → Nat

def maxStateBytes : Nat := 4 * 1024 * 1024

/-- What the file system makes of a write: a durable file, or an error that left the old
(`lost`) or the new (`landed`) content. -/
inductive WriteOutcome where
  | stored
  | lost (error : String)
  | landed (error : String)
  deriving DecidableEq, Repr

structure Registry where
  watchers : StrMap WatcherState
  disk : Option PersistedRegistry

def revisionMax : Nat := 2 ^ 64 - 1

def nextRevision (watcher : WatcherState) : Except RegistryError Nat :=
  if watcher.revision < revisionMax then .ok (watcher.revision + 1)
  else .error (.revisionOverflow watcher.watcherId)

def stableTargetEq : TargetIdentity → TargetIdentity → Bool
  | .process left, .process right =>
    left.pid == right.pid && left.startTime == right.startTime
  | .multiplexer provider server pane left _ _ _ _,
      .multiplexer provider' server' pane' right _ _ _ _ =>
    provider == provider' && server == server' && pane == pane' && left.pid == right.pid
      && left.startTime == right.startTime
  | _, _ => false

def exactProcessEq (left right : TargetIdentity) : Bool :=
  left.processOf.pid == right.processOf.pid
    && left.processOf.startTime == right.processOf.startTime

def isRicherTarget : TargetIdentity → TargetIdentity → Bool
  | .process _, .multiplexer _ _ _ _ _ (some _) _ false => true
  | _, _ => false

def compatibleAttachment {α : Type} [DecidableEq α] (existing fresh : Option α) : Bool :=
  existing.isNone || fresh.isNone || existing == fresh

def applyCommand (machine : RecoveryMachine) (command : RecoveryCommand) :
    Except RegistryError RecoveryMachine :=
  (machine.applied command).mapError .corrupt

def applyIf (condition : Bool) (machine : RecoveryMachine) (command : RecoveryCommand) :
    Except RegistryError RecoveryMachine :=
  if condition then applyCommand machine command else .ok machine

namespace Registry

def get (R : Registry) (id : String) : Option WatcherState := R.watchers[id]?

def encoded (watchers : StrMap WatcherState) : PersistedRegistry :=
  ⟨1,watchers.toList.map fun p => p.2.encode⟩

section Write
variable [JsonText]

/-- `self.persist_watchers(&updated)?; self.watchers = updated; Ok(value)`. -/
def persistWatchers {β : Type} (R : Registry) (updated : StrMap WatcherState) (value : β)
    (host : WriteOutcome) : Except RegistryError β × Registry :=
  if maxStateBytes < JsonText.registryBytes (encoded updated) then
    (.error (.store "state path is unsafe: serialized state exceeds size limit"),R)
  else match host with
    | .stored => (.ok value,⟨updated,some (encoded updated)⟩)
    | .lost error => (.error (.store error),R)
    | .landed error => (.error (.store error),{ R with disk := some (encoded updated) })

def mutate {β : Type} (R : Registry) (id : String) (now : Nat)
    (edit : WatcherState → Except RegistryError (WatcherState × β)) (host : WriteOutcome) :
    Except RegistryError β × Registry :=
  match R.watchers[id]? with
  | none => (.error (.unknown id),R)
  | some watcher =>
    match edit watcher with
    | .error error => (.error error,R)
    | .ok (edited,value) =>
      match nextRevision edited with
      | .error error => (.error error,R)
      | .ok revision =>
        R.persistWatchers
          (R.watchers.insert id { edited with revision, updatedAtUnixMs := now }) value host

def update (R : Registry) (id : String) (now : Nat) (edit : WatcherState → WatcherState)
    (host : WriteOutcome) : Except RegistryError Unit × Registry :=
  R.mutate id now (fun watcher => .ok (edit watcher,())) host

end Write

structure Refresh where
  processPromotion : Bool
  targetUpgraded : Bool
  replayRevalidated : Bool
  attachmentUpgrade : Bool

def refreshOf (existing fresh : WatcherState) : Refresh where
  processPromotion := isRicherTarget existing.target fresh.target
  targetUpgraded := existing.target.needsRevalidation && !fresh.target.needsRevalidation
  replayRevalidated := existing.lifecycle == .humanRequired restartRevalidationReason
  attachmentUpgrade := (existing.codexSession.isNone && fresh.codexSession.isSome)
    || (existing.claudeSession.isNone && fresh.claudeSession.isSome)

def refreshed (refresh : Refresh) (existing fresh : WatcherState) : WatcherState :=
  let watcher := { existing with target := fresh.target }
  if refresh.processPromotion || refresh.attachmentUpgrade then
    { watcher with
      lifecycle := .registered
      recovery := none
      lastObservation := none
      observationSchedule := { watcher.observationSchedule with eventWakePending := true }
      codexSession := fresh.codexSession.orElse fun _ => watcher.codexSession
      claudeSession := fresh.claudeSession.orElse fun _ => watcher.claudeSession }
  else if refresh.replayRevalidated then
    { watcher with lifecycle := .registered, recovery := fresh.recovery }
  else watcher

section Operations
variable [JsonText]

def refreshExisting (R : Registry) (id : String) (fresh : WatcherState) (host : WriteOutcome) :
    Except RegistryError RegistrationOutcome × Registry :=
  match R.watchers[id]? with
  | none => (.error (.unknown id),R)
  | some existing =>
    let refresh := refreshOf existing fresh
    if !compatibleAttachment existing.codexSession fresh.codexSession
        || !compatibleAttachment existing.claudeSession fresh.claudeSession then
      (.error (.idCollision fresh.watcherId),R)
    else if !refresh.processPromotion && !refresh.targetUpgraded && !refresh.replayRevalidated
        && !refresh.attachmentUpgrade then
      (.ok (.existing id),R)
    else
      let outcome :=
        if refresh.processPromotion || refresh.attachmentUpgrade || refresh.replayRevalidated then
          RegistrationOutcome.revalidated id
        else .existing id
      R.mutate id fresh.updatedAtUnixMs
        (fun watcher => .ok (refreshed refresh watcher fresh,outcome)) host

def find (R : Registry) (p : WatcherState → Bool) : Option WatcherState :=
  (R.watchers.toList.find? fun entry => p entry.2).map (·.2)

def register (R : Registry) (watcher : WatcherState) (host : WriteOutcome) :
    Except RegistryError RegistrationOutcome × Registry :=
  match R.watchers[watcher.watcherId]? with
  | some existing =>
    if stableTargetEq existing.target watcher.target then
      R.refreshExisting existing.watcherId watcher host
    else (.error (.idCollision watcher.watcherId),R)
  | none =>
    match R.find (fun existing => stableTargetEq existing.target watcher.target) with
    | some existing => R.refreshExisting existing.watcherId watcher host
    | none =>
      match R.find (fun existing => exactProcessEq existing.target watcher.target) with
      | some existing =>
        if isRicherTarget existing.target watcher.target then
          R.refreshExisting existing.watcherId watcher host
        else if isRicherTarget watcher.target existing.target then
          (.ok (.existing existing.watcherId),R)
        else (.error (.idCollision watcher.watcherId),R)
      | none =>
        R.persistWatchers (R.watchers.insert watcher.watcherId watcher)
          (.added watcher.watcherId) host

def transition (R : Registry) (id : String) (lifecycle : WatcherLifecycle) (now : Nat) :
    WriteOutcome → Except RegistryError Unit × Registry :=
  R.update id now fun watcher => { watcher with lifecycle }

def retargetProcess (R : Registry) (id : String) (process : ProcessIdentity) (now : Nat) :
    WriteOutcome → Except RegistryError Unit × Registry :=
  R.update id now fun watcher => { watcher with target := watcher.target.withProcess process }

def persistRecovery (R : Registry) (id : String) (recovery : RecoveryMachine) (now : Nat) :
    WriteOutcome → Except RegistryError Unit × Registry :=
  R.update id now fun watcher => { watcher with recovery := some recovery }

def applyRecoveryTransition (R : Registry) (id : String) (command : RecoveryCommand)
    (now : Nat) : WriteOutcome → Except RegistryError RecoveryState × Registry :=
  R.mutate id now fun watcher =>
    match watcher.recovery with
    | none => .error (.corrupt "missing recovery state")
    | some machine => do
      let machine ← applyCommand machine command
      return ({ watcher with recovery := some machine },machine.state)

def persistObservationSchedule (R : Registry) (id : String) (schedule : ObservationSchedule)
    (now : Nat) : WriteOutcome → Except RegistryError Unit × Registry :=
  R.update id now fun watcher => { watcher with observationSchedule := schedule }

def persistObservationEvent (R : Registry) (id : String) (event : Event) (now : Nat) :
    WriteOutcome → Except RegistryError Unit × Registry :=
  R.update id now fun watcher => { watcher with lastObservation := some event }

def served (schedule : ObservationSchedule) (now : Nat) : ObservationSchedule :=
  { schedule with
    lastWakeCompletedWallMs :=
      if schedule.eventWakePending then some now else schedule.lastWakeCompletedWallMs
    eventWakePending := false }

def completeObservation (R : Registry) (id : String) (event : Option Event) (now : Nat) :
    WriteOutcome → Except RegistryError Unit × Registry :=
  R.update id now fun watcher =>
    { watcher with
      lastObservation := event.orElse fun _ => watcher.lastObservation
      observationSchedule := served watcher.observationSchedule now }

/-- A limit reported by the hook after the menu of an earlier one was answered. -/
def freshClaudeLimitAfterMenu (machine : RecoveryMachine) (event : Event) : Bool :=
  machine.state == .recovered && event.source.kind == .hook
    && event.source.sourceId == "claude_stop_failure" && event.policyHint == .waitAllowed
    && event.metadata.contains "claude_reset_at"
    && machine.current != some event.evidenceFingerprint

def resumesAfterWait (lifecycle : WatcherLifecycle) (event : Event) : Bool :=
  (match lifecycle with
    | .waiting _ _ => true
    | _ => false)
    && (event.metadata["claude_resume"]? == some (.bool true)
      || event.metadata["codex_resume"]? == some (.bool true))

def screenIsStable (schedule : ObservationSchedule) (event : Event) : Bool :=
  event.source.kind != .screenDetection || decide (2 ≤ schedule.screenStableCount)

/-- What `commit_observation` does with the machine of a watcher on an event. -/
def observedBy (watcher : WatcherState) (machine : RecoveryMachine) (event : Event) :
    Except RegistryError WatcherState := do
  let revalidates := machine.state == .needsRevalidation
  let machine ← applyIf revalidates machine .revalidated
  let lifecycle := if revalidates then .observing else watcher.lifecycle
  let rearms := machine.state == .recovered && (resumesAfterWait lifecycle event
    || freshClaudeLimitAfterMenu machine event)
  let machine ← applyIf rearms machine .rearmAfterWait
  let confirms := event.category.isActionable && screenIsStable watcher.observationSchedule event
    && machine.state == .observing
  let machine ← applyIf confirms machine (.confirm event.evidenceFingerprint)
  return { watcher with lifecycle, recovery := some machine }

def observedMachine (watcher : WatcherState) (event : Event) :
    Except RegistryError WatcherState :=
  match watcher.recovery with
  | none => .ok watcher
  | some machine => observedBy watcher machine event

def observed (schedule : ObservationSchedule) (event : Option Event) (now : Nat)
    (watcher : WatcherState) : Except RegistryError WatcherState :=
  let watcher := { watcher with observationSchedule := served schedule now }
  match event with
  | none => .ok watcher
  | some event =>
    (observedMachine watcher event).map fun watcher =>
      { watcher with lastObservation := some event }

def commitObservation (R : Registry) (id : String) (schedule : ObservationSchedule)
    (event : Option Event) (now : Nat) : WriteOutcome → Except RegistryError Unit × Registry :=
  R.mutate id now fun watcher => (observed schedule event now watcher).map fun w => (w,())

def wakeCooldownMs : Nat := 60000

def wakeObservation (R : Registry) (id fingerprint : String) (now : Nat)
    (host : WriteOutcome) : Except RegistryError Unit × Registry :=
  if !validHash fingerprint then (.error (.corrupt "invalid wake fingerprint"),R)
  else match R.watchers[id]? with
    | none => (.error (.unknown id),R)
    | some watcher =>
      let schedule := watcher.observationSchedule
      let duplicateInCooldown := schedule.lastWakeFingerprint == some fingerprint
        && schedule.lastWakeCompletedWallMs.any (fun completed =>
          decide (now < min (completed + wakeCooldownMs) (2 ^ 64 - 1)))
      if schedule.eventWakePending || duplicateInCooldown then (.ok (),R)
      else R.persistObservationSchedule id
        { schedule with eventWakePending := true, lastWakeFingerprint := some fingerprint }
        now host

end Operations

/-- What the file system answers to `load`: an error of the read, where a corrupt file was
copied to, and the outcome of the write. -/
structure LoadHost where
  readError : Option String
  quarantine : Except String String
  write : WriteOutcome

inductive LoadOutcome where
  | missing
  | present (version : Nat) (watchers : List WatcherState)
  | corrupt (quarantine : String)

/-- `LoadOutcome::Present(saved)`: collecting into a map keeps the last of equal keys. -/
def collected (watchers : List WatcherState) : StrMap WatcherState :=
  .ofList (watchers.map fun watcher => (watcher.watcherId,watcher))

def restartBudget : Budget := ⟨3,300 * nanosPerSecond,0,60 * nanosPerSecond⟩

def endsAtRestart : WatcherLifecycle → Bool
  | .stopped _ | .targetTerminated | .humanRequired _ => true
  | _ => false

def machineAtRestart (watcher : WatcherState) : Option RecoveryMachine :=
  if watcher.target.needsRevalidation && watcher.recovery.isNone then
    some (.new restartBudget)
  else watcher.recovery

/-- `restore_for_restart`, with `replay_transitioned`. -/
def restoredMachine (watcher : WatcherState) : Except RegistryError (WatcherState × Bool) :=
  match machineAtRestart watcher with
  | none => .ok (watcher,false)
  | some machine =>
    (machine.restoreForRestart.mapError fun _ => .corrupt "invalid recovery state").map
      fun machine => ({ watcher with recovery := some machine },true)

/-- A watcher that had not ended waits for its target to be validated. -/
def restoredLifecycle (watcher : WatcherState) (transitioned : Bool) :
    Except RegistryError (WatcherState × Bool) :=
  if endsAtRestart watcher.lifecycle then .ok (watcher,transitioned)
  else
    let watcher := { watcher with lifecycle := .humanRequired restartRevalidationReason }
    (nextRevision watcher).map fun revision => ({ watcher with revision },true)

def restarted (watcher : WatcherState) : Except RegistryError (WatcherState × Bool) := do
  let (watcher,transitioned) ← restoredMachine watcher
  restoredLifecycle watcher transitioned

def restartedEntry (entry : String × WatcherState) :
    Except RegistryError ((String × WatcherState) × Bool) :=
  (restarted entry.2).map fun (watcher,transitioned) => ((entry.1,watcher),transitioned)

def replay (watchers : StrMap WatcherState) :
    Except RegistryError (StrMap WatcherState × Bool) := do
  let entries ← watchers.toList.mapM restartedEntry
  return (.ofList (entries.map (·.1)),entries.any (·.2))

section Load
variable [Chrono] [JsonText]

/-- `store.load()`. A file that is too long or does not decode is quarantined. -/
def readStore (disk : Option PersistedRegistry) (host : LoadHost) :
    Except RegistryError LoadOutcome :=
  match host.readError, disk with
  | some error, _ => .error (.store error)
  | none, none => .ok .missing
  | none, some saved =>
    let quarantined := (host.quarantine.mapError RegistryError.store).map LoadOutcome.corrupt
    if maxStateBytes < JsonText.registryBytes saved then quarantined
    else match saved.watchers.mapM WatcherWire.decode with
      | .error _ => quarantined
      | .ok watchers => .ok (.present saved.version watchers)

def loadWatchers (disk : Option PersistedRegistry) (host : LoadHost) :
    Except RegistryError (StrMap WatcherState) := do
  match ← readStore disk host with
  | .missing => return ∅
  | .corrupt quarantine => throw (.corrupt quarantine)
  | .present version watchers =>
    if version = 1 then return collected watchers
    else throw (.corrupt "unsupported registry version")

/-- The loaded registry, and the file that a failed load leaves. -/
def load (disk : Option PersistedRegistry) (host : LoadHost) :
    Except RegistryError Registry × Option PersistedRegistry :=
  match loadWatchers disk host >>= replay with
  | .error error => (.error error,disk)
  | .ok (watchers,transitioned) =>
    let R : Registry := ⟨watchers,disk⟩
    if transitioned then
      let (written,R) := R.persistWatchers watchers () host.write
      (written.map fun _ => R,R.disk)
    else (.ok R,disk)

end Load

def dispatchSnapshot (R : Registry) (id : String) : Except RegistryError WatcherState :=
  match R.get id with
  | none => .error (.unknown id)
  | some watcher => .ok watcher

def matchesDispatchSnapshot (R : Registry) (snapshot : WatcherState) : Bool :=
  R.get snapshot.watcherId == some snapshot

end Registry

end WatchMe
