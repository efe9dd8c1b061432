import WatchMe.Model.Identity
import WatchMe.Recovery.StateMachine

/-! # The durable state of a watcher -/
namespace WatchMe

def watcherStateSchemaVersion : Nat := 1

structure ObservationSchedule where
  nextDueWallMs : Nat
  lastCheckWallMs : Option Nat
  eventWakePending : Bool
  intervalSequence : Nat
  lastWakeFingerprint : Option String
  lastWakeCompletedWallMs : Option Nat
  herdrAfterSequence : Nat
  screenFingerprint : Option String
  screenStableCount : Nat
  deriving DecidableEq, Repr

def ObservationSchedule.default : ObservationSchedule := ⟨0,none,false,0,none,none,0,none,0⟩

structure TranscriptBinding where
  canonicalPath : String
  device : Nat
  inode : Nat
  deriving DecidableEq, Repr

structure ClaudeSessionReference where
  sessionId : String
  transcriptPath : String
  markerPath : String
  processStartTime : Nat
  processCwd : String
  targetSession : Option String
  transcriptBinding : Option TranscriptBinding
  deriving DecidableEq, Repr

structure CodexRolloutBinding where
  device : Nat
  inode : Nat
  size : Nat
  mtimeSecs : Int
  deriving DecidableEq, Repr

structure CodexBoundFile where
  canonicalPath : String
  device : Nat
  inode : Nat
  ownerUid : Nat
  deriving DecidableEq, Repr

structure CodexStructuredStateReference where
  rollout : CodexBoundFile
  threadDb : CodexBoundFile
  goalsDb : CodexBoundFile
  deriving DecidableEq, Repr

structure CodexSessionReference where
  threadId : String
  rolloutPath : String
  processStartTime : Nat
  processCwd : String
  targetSession : Option String
  rolloutBinding : Option CodexRolloutBinding
  appServerStatePath : Option String
  structuredState : Option CodexStructuredStateReference
  deriving DecidableEq, Repr

inductive WatcherLifecycle where
  | registered
  | observing
  | paused
  | recovering (evidenceFingerprint : String)
  | waiting (untilUnixMs : Nat) (reason : String)
  | humanRequired (reason : String)
  | targetTerminated
  | stopped (reason : String)
  deriving DecidableEq, Repr

structure WatcherState where
  schemaVersion : Nat
  watcherId : String
  target : TargetIdentity
  lifecycle : WatcherLifecycle
  revision : Nat
  updatedAtUnixMs : Nat
  recovery : Option RecoveryMachine
  observationSchedule : ObservationSchedule
  lastObservation : Option Event
  claudeSession : Option ClaudeSessionReference
  codexSession : Option CodexSessionReference
  schema_eq : schemaVersion = watcherStateSchemaVersion
  deriving DecidableEq

def WatcherState.new (watcherId : String) (target : TargetIdentity)
    (lifecycle : WatcherLifecycle) (revision updatedAtUnixMs : Nat) : WatcherState where
  schemaVersion := watcherStateSchemaVersion
  watcherId := watcherId
  target := target
  lifecycle := lifecycle
  revision := revision
  updatedAtUnixMs := updatedAtUnixMs
  recovery := none
  observationSchedule := .default
  lastObservation := none
  claudeSession := none
  codexSession := none
  schema_eq := rfl

structure WatcherWire where
  schemaVersion : Nat
  watcherId : String
  target : TargetWire
  lifecycle : WatcherLifecycle
  revision : Nat
  updatedAtUnixMs : Nat
  recovery : Option RecoveryMachine
  observationSchedule : ObservationSchedule
  lastObservation : Option Event
  claudeSession : Option ClaudeSessionReference
  codexSession : Option CodexSessionReference
  deriving DecidableEq

def WatcherState.encode (w : WatcherState) : WatcherWire :=
  ⟨w.schemaVersion,w.watcherId,w.target.encode,w.lifecycle,w.revision,w.updatedAtUnixMs,
    w.recovery,w.observationSchedule,w.lastObservation,w.claudeSession,w.codexSession⟩

variable [Chrono]

/-- Decoding an event validates it. -/
def decodeObservation : Option Event → Except String Unit
  | none => .ok ()
  | some event => event.validate

def WatcherWire.decode (wire : WatcherWire) : Except String WatcherState := do
  let target ← wire.target.decode
  decodeObservation wire.lastObservation
  if h : wire.schemaVersion = watcherStateSchemaVersion then
    return ⟨wire.schemaVersion,wire.watcherId,target,wire.lifecycle,wire.revision,
      wire.updatedAtUnixMs,wire.recovery,wire.observationSchedule,wire.lastObservation,
      wire.claudeSession,wire.codexSession,h⟩
  else throw "unsupported watcher state schema version"

def WatcherState.Decodable (w : WatcherState) : Prop :=
  decodeObservation w.lastObservation = .ok ()

theorem WatcherState.decode_encode_iff (w w' : WatcherState) :
    w.encode.decode = .ok w' ↔ w.Decodable ∧ w' = w := by
  have hdecode : w.encode.decode =
      (decodeObservation w.lastObservation >>= fun _ => .ok w) := by
    unfold WatcherWire.decode
    have htarget : w.encode.target.decode = .ok w.target := w.target.decode_encode
    have hschema : w.encode.schemaVersion = watcherStateSchemaVersion := w.schema_eq
    simp only [htarget,dif_pos hschema]
    rfl
  rw [hdecode,check_ok_iff,Decodable,Except.ok.injEq,eq_comm (a := w)]

end WatchMe
