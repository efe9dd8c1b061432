import WatchMe.Audit.Log
import WatchMe.Daemon.ServiceTraces
import WatchMe.Effects.Remarks

/-! # What a recovery job writes into the audit log

A job records what is decided about its action: that the policy allows or denies it, and what
became of it. The records are remarks of the job, whose failures it ignores. What is logged as
allowed by the policy is an action that the coordinator has begun; the policy itself is asked
later, by the transaction, if the job comes that far.
-/
namespace WatchMe
open Effects Program Transaction Service

inductive DecisionPhase where
  | policyAllow
  | policyDeny
  | actionBegin
  | actionVerify
  | actionCancel
  deriving DecidableEq, Repr

def DecisionPhase.debug : DecisionPhase → String
  | policyAllow => "PolicyAllow"
  | policyDeny => "PolicyDeny"
  | actionBegin => "ActionBegin"
  | actionVerify => "ActionVerify"
  | actionCancel => "ActionCancel"

def lifecycleLabel : WatcherLifecycle → String
  | .registered => "REGISTERED"
  | .observing => "OBSERVING"
  | .paused => "PAUSED"
  | .recovering _ => "RECOVERING"
  | .waiting _ _ => "WAITING"
  | .humanRequired _ => "HUMAN_REQUIRED"
  | .targetTerminated => "TARGET_TERMINATED"
  | .stopped _ => "STOPPED"

def actionTypeLabel : ActionKind → String
  | .waitUntil _ => "WAIT_UNTIL"
  | .waitDuration _ => "WAIT_DURATION"
  | .capture _ _ => "CAPTURE"
  | .checkStatus _ => "CHECK_STATUS"
  | .sendText _ => "SEND_TEXT"
  | .submitText _ => "SUBMIT_TEXT"
  | .sendKeys _ => "SEND_KEYS"
  | .notify _ _ => "NOTIFY"
  | .escalate _ => "ESCALATE"
  | .stopWatching => "STOP_WATCHING"
  | .noop => "NOOP"

def SourceKind.debugLower : SourceKind → String
  | typedApi => "typedapi"
  | hook => "hook"
  | structuredLog => "structuredlog"
  | processMetadata => "processmetadata"
  | herdrAgentState => "herdragentstate"
  | screenDetection => "screendetection"
  | planner => "planner"
  | internal => "internal"

def ActionPhase.debugLower : ActionPhase → String
  | prepared => "prepared"
  | begun => "begun"
  | sent => "sent"
  | verifying => "verifying"
  | succeeded => "succeeded"
  | failed => "failed"
  | uncertain => "uncertain"
  | humanRequired => "humanrequired"

structure DecisionChain where
  watcherId : String
  detector : String
  evidence : String
  state : String
  policyDecision : String
  attemptedAction : String
  verification : String

def decisionChainFromWatcher (watcher : WatcherState) (phase : DecisionPhase)
    (policyDecision attemptedAction verification : String) : DecisionChain where
  watcherId := watcher.watcherId
  detector := (watcher.lastObservation.map (·.source.kind.debugLower)).getD "none"
  evidence := (watcher.lastObservation.map fun event =>
    event.category.debugUpper.map Char.toLower ++ ":" ++ event.evidenceFingerprint).getD "none"
  state := phase.debug ++ ":" ++ lifecycleLabel watcher.lifecycle
  policyDecision := policyDecision
  attemptedAction := attemptedAction
  verification := verification

def DecisionChain.entry (chain : DecisionChain) (recordedAt : String) : AuditEvent where
  schemaVersion := "1.0"
  recordedAt := recordedAt
  watcherId := some chain.watcherId
  kind := "decision"
  detector := some chain.detector
  evidence := some chain.evidence
  state := some chain.state
  policyDecision := some chain.policyDecision
  attemptedAction := some chain.attemptedAction
  verification := some chain.verification
  message := "decision chain"

def AuditEvent.IsPolicyAllow (entry : AuditEvent) : Prop :=
  ∃ lifecycle, entry.state = some (DecisionPhase.policyAllow.debug ++ ":" ++ lifecycle)

inductive RecordOp where
  | createOwnerOnly
  | stateFile
  | openLog
  | nowRfc3339
  | append (entry : AuditEvent)
  | persistWatcherSnapshot (watcher : WatcherState)

@[reducible] def RecordOp.Answer : RecordOp → Type
  | nowRfc3339 => String
  | createOwnerOnly | stateFile | openLog | append _ | persistWatcherSnapshot _ =>
    Except String Unit

abbrev recordSig : Signature := ⟨RecordOp,RecordOp.Answer⟩

abbrev decisionSig : Signature := serviceSig.plus recordSig
abbrev DecisionEvent := decisionSig.Event

namespace Decisions

def tell (op : RecordOp) : Program decisionSig op.Answer :=
  request (S := decisionSig) (.inr op)

def recordRecoveryDecision (watcher : WatcherState) (phase : DecisionPhase)
    (policyDecision attemptedAction verification : String) :
    Program decisionSig (Except String Unit) := do
  let _ ← tell .createOwnerOnly
  match ← tell .stateFile with
  | .error error => return .error error
  | .ok () =>
    match ← tell .openLog with
    | .error error => return .error error
    | .ok () =>
      let time ← tell .nowRfc3339
      match ← tell (.append ((decisionChainFromWatcher watcher phase policyDecision attemptedAction
        verification).entry time)) with
      | .error error => return .error error
      | .ok () => tell (.persistWatcherSnapshot watcher)

def record (watcher : WatcherState) (phase : DecisionPhase)
    (policyDecision attemptedAction verification : String) : Program decisionSig Unit := do
  let _ ← recordRecoveryDecision watcher phase policyDecision attemptedAction verification

structure Verifying where
  label : String
  dispatched : Dispatched
  poll : Poll

/-- The match on the result of `RecoveryEngine::execute`. -/
def conclude (label : String) (d : Dispatched) :
    Except TransactionError (Option (Poll ⊕ ActionRecord)) → Program decisionSig (Verifying ⊕ Unit)
  | .ok none => do
    record d.current .policyDeny "DENY no executable action" label "no_action"
    return .inr ()
  | .ok (some (.inl p)) => return .inl ⟨label,d,p⟩
  | .ok (some (.inr result)) => do
    if result.phase = .succeeded then
      if (← (askDaemon .cancellationRequested).within) = true then
        record d.current .actionCancel ("ALLOW " ++ label) label "cancelled_after_side_effect"
        (handOff d.current.watcherId cancelledReason).within
      else
        let now ← (askDaemon .nowMs).within
        let _ ← (askDaemon (.registry (RecoveryCoordinator.actionSucceeded d.current.watcherId
          d.fingerprint now))).within
        record d.current .actionVerify ("ALLOW " ++ label) label "verified"
    else
      record d.current .actionCancel ("ALLOW " ++ label) label result.phase.debugLower
    return .inr ()
  | .error error => do
    match error with
    | .policy _ => record d.current .policyDeny ("DENY " ++ error.text) label "cancelled"
    | _ => record d.current .actionCancel ("ALLOW " ++ label) label "cancelled"
    (handOff d.current.watcherId (reviewReason error)).within
    return .inr ()

section Jobs
variable [Chrono] [Render] [Digest] (recipes : WatcherState → Option Action)
  (owner : OwnerIdentity)

def verify (v : Verifying) : Program decisionSig (Verifying ⊕ Unit) := do
  let result ← ((Transaction.poll v.poll).run.interpret (handleTx v.dispatched.current)).within
  conclude v.label v.dispatched (result.map some)

end Jobs

end Decisions

open Decisions

section Machine
variable [Chrono] [Render] [Digest] (recipes : WatcherState → Option Action)
  (owner : OwnerIdentity)

end Machine

namespace Decisions

section Jobs
variable [Chrono] [Render] [Digest] {recipes : WatcherState → Option Action}
  {owner : OwnerIdentity}

end Jobs

end Decisions

end WatchMe
