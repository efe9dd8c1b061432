import WatchMe.Daemon.RegistryCalls
import WatchMe.Recovery.Transaction

/-! # The daemon's action executor

`DaemonActionExecutor::execute` as a program. What it does under the registry lock is one request:
the check of the snapshot together with the multiplexer command or the capture, and the two writes
of a scheduled wait.
-/
namespace WatchMe
open Effects

structure MuxIdentity where
  provider : String
  serverInstance : String
  server : String
  sessionId : String
  windowId : String
  paneId : String
  tty : String
  process : ProcessIdentity

def processIdentityKey (target : TargetIdentity) : String :=
  "process:" ++ toString target.processOf.pid ++ ":" ++ toString target.processOf.startTime

def muxIdentityKey (identity : MuxIdentity) : String :=
  ":".intercalate [identity.provider,identity.server,identity.serverInstance,
    identity.sessionId,identity.windowId,identity.paneId,toString identity.process.pid,
    toString identity.process.startTime]

/-- A target that is no multiplexer pane, or one that has to be validated first, has no
multiplexer identity. -/
def watcherMuxIdentity (watcher : WatcherState) : Except String (Option MuxIdentity) :=
  match watcher.target with
  | .multiplexer provider server pane process _ (some context) _ false =>
    match context with
    | .tmux socketPath serverInstance sessionId windowId paneId tty =>
      if provider = "tmux" ∧ server = socketPath ∧ pane = paneId then
        .ok (some ⟨provider,serverInstance,socketPath,sessionId,windowId,paneId,tty,process⟩)
      else .error "stored mux context contradicts target"
    | .herdr socketPath serverInstance workspaceId tabId paneId tty _ =>
      if provider = "herdr" ∧ server = socketPath ∧ pane = paneId then
        .ok (some ⟨provider,serverInstance,socketPath,workspaceId,tabId,paneId,tty,process⟩)
      else .error "stored mux context contradicts target"
  | _ => .ok none

/-- The fields of `LiveEvidence` as `FreshTargetEvidence::read` fills them. -/
structure FreshEvidence where
  identity : String
  targetRevalidated : Bool
  processAlive : Bool
  paneMatches : Bool
  evidenceCurrent : Bool
  composerSafe : Bool
  humanIntervened : Bool
  event : Event

inductive DaemonOp where
  | registry (call : RegistryCall)
  | beginAction (id fingerprint : String)
  | scheduleWait (id : String) (untilMs now : Nat)
  | muxCommand (snapshot : WatcherState) (action : Action)
  | capture (snapshot : WatcherState) (source : String) (maxLines : Nat)
  | watcher (id : String)
  | nowMs
  | cancellationRequested
  | processAlive (target : TargetIdentity)
  | validateMux (watcher : WatcherState) (identity : MuxIdentity)
  | composerSafe (watcher : WatcherState) (identity : MuxIdentity)
  | notify (severity message : String)

/-- The answer `none` of a dispatch says that the snapshot did not match. -/
@[reducible] def DaemonOp.Answer : DaemonOp → Type
  | registry _ => Except RegistryError RegistryReply
  | beginAction _ _ | watcher _ => Option WatcherState
  | scheduleWait _ _ _ | notify _ _ => Except String Unit
  | muxCommand _ _ | capture _ _ _ => Option (Except ExecutionError ExecutionOutput)
  | nowMs => Nat
  | cancellationRequested | processAlive _ | validateMux _ _ | composerSafe _ _ => Bool

abbrev daemonSig : Signature := ⟨DaemonOp,DaemonOp.Answer⟩
abbrev DaemonEvent := daemonSig.Event
abbrev Exec := ExceptT ExecutionError (Program daemonSig)

namespace Executor

def ask (op : DaemonOp) : Exec op.Answer := ExceptT.lift (Program.request (S := daemonSig) op)

def fail {α : Type} (error : ExecutionError) : Exec α := throw error

def settled {α : Type} : Except ExecutionError α → Exec α
  | .ok a => pure a
  | .error error => throw error

def boundedClaudeMenu (event : Event) : Bool :=
  event.source.kind == .screenDetection && event.source.sourceId == "claude"
    && (match event.metadata["claude_menu_moves"]? with
      | some (.number moves) => moves.den == 1 && decide (-128 ≤ moves) && decide (moves ≤ 127)
      | _ => false)

def endedOrHeld : WatcherLifecycle → Bool
  | .paused | .stopped _ | .humanRequired _ | .targetTerminated => true
  | _ => false

structure TargetProbe where
  targetRevalidated : Bool
  paneMatches : Bool
  identity : String
  composerSafe : Bool

def probe (watcher : WatcherState) (alive : Bool) : Exec TargetProbe :=
  match watcherMuxIdentity watcher with
  | .ok (some identity) => do
    let validated ← ask (.validateMux watcher identity)
    if validated = true then
      let safe ← ask (.composerSafe watcher identity)
      return ⟨true,true,muxIdentityKey identity,safe⟩
    else return ⟨false,false,muxIdentityKey identity,false⟩
  | .ok none => return ⟨alive,true,processIdentityKey watcher.target,false⟩
  | .error _ => return ⟨false,false,processIdentityKey watcher.target,false⟩

def evidenceOf [Digest] (snapshot watcher : WatcherState) (event : Event) (alive : Bool)
    (probed : TargetProbe) : FreshEvidence where
  identity := probed.identity
  targetRevalidated := probed.targetRevalidated
  processAlive := alive
  paneMatches := probed.paneMatches
  evidenceCurrent := event.watcherId == watcher.watcherId
    && event.targetIdentityHash == targetIdentityHash watcher.target
  composerSafe := probed.composerSafe || boundedClaudeMenu event
  humanIntervened :=
    !(decide (watcher.target = snapshot.target) && decide (watcher.lifecycle = snapshot.lifecycle))
      || endedOrHeld watcher.lifecycle || event.category == .humanIntervention
  event := event

/-- `FreshTargetEvidence::read`, its error already wrapped by the caller. -/
def readEvidence [Digest] (snapshot : WatcherState) : Exec FreshEvidence := do
  match ← ask (.watcher snapshot.watcherId) with
  | none => fail (.integration "recovery watcher disappeared")
  | some watcher =>
    match watcher.lastObservation with
    | none => fail (.integration "missing current observation")
    | some event =>
      let alive ← ask (.processAlive watcher.target)
      let probed ← probe watcher alive
      return evidenceOf snapshot watcher event alive probed

def targetChanged : ExecutionError := .unsafe_ "target changed before dispatch"

def confirmLiveEvidence [Digest] (snapshot : WatcherState) : Exec Unit := do
  let live ← readEvidence snapshot
  if live.humanIntervened || !live.targetRevalidated || !live.processAlive
      || !live.paneMatches then
    fail targetChanged

def rejectIfCancelled : Exec Unit := do
  if (← ask .cancellationRequested) = true then
    fail (.unsafe_ "recovery cancellation requested")

/-- `str::parse::<u64>`: digits, after an optional sign `+`. -/
def parseU64 (text : List Char) : Option Nat :=
  let digits := if text.head? = some '+' then text.tail else text
  let value := digits.foldl (fun n c => 10 * n + (c.toNat - '0'.toNat)) 0
  if digits ≠ [] ∧ digits.all Char.isDigit ∧ value ≤ u64Max then some value else none

/-- `strip_prefix("monotonic+")` and `strip_suffix('s')`. -/
def monotonicSeconds (deadline : String) : Option (List Char) :=
  let label := "monotonic+".toList
  if label.isPrefixOf deadline.toList then
    let rest := deadline.toList.drop label.length
    if rest.getLast? = some 's' then some rest.dropLast else none
  else none

def parseWaitDeadline [Chrono] (deadline : String) (now : Nat) : Except String Nat :=
  match monotonicSeconds deadline with
  | some text =>
    match parseU64 text with
    | some seconds => .ok (saturatingAdd now (saturatingMul seconds 1000))
    | none => .error "invalid monotonic wait deadline"
  | none =>
    match Chrono.parseFromRfc3339 deadline with
    | none => .error "invalid wall-clock wait deadline"
    | some nanos =>
      let milliseconds := nanos.fdiv 1000000
      if milliseconds < 0 then .error "wait deadline predates Unix epoch"
      else if milliseconds.toNat < now then .error "wait deadline is in the past"
      else .ok milliseconds.toNat

def runtime {α : Type} (result : Except String α) : Exec α :=
  settled (result.mapError .integration)

def schedule [Chrono] (id deadline : String) : Exec Unit := do
  let now ← ask .nowMs
  let untilMs ← runtime (parseWaitDeadline deadline now)
  runtime (← ask (.scheduleWait id untilMs now))

/-- A registry call of a service; an error of it is passed on as text. -/
def registryService (call : RegistryCall) : Exec Unit := do
  let answer ← ask (.registry call)
  runtime ((answer.mapError RegistryError.text).map fun _ => ())

def checkStatus (id : String) (check : StatusCheck) : Exec Bool := do
  if check.kind ≠ "PROCESS_ALIVE" then
    fail (.integration "unsupported runtime status check")
  else
    match ← ask (.watcher id) with
    | none => fail (.integration "unknown watcher for status check")
    | some watcher => ask (.processAlive watcher.target)

def escalate (id level : String) : Exec Unit := do
  if level ≠ "human_required" then
    fail (.integration "planner escalation is not available in the daemon runtime")
  else
    let now ← ask .nowMs
    registryService (.transition id (.humanRequired "recovery escalation requested") now)

def stopWatching (id : String) : Exec Unit := do
  let now ← ask .nowMs
  registryService (.transition id (.stopped "recovery action stopped watcher") now)

/-- `RuntimeActuator::execute` over the services of the daemon. -/
def runtimeActuator [Chrono] (id : String) (action : Action) : Exec ExecutionOutput := do
  settled (validateAction action)
  match action.kind with
  | .waitUntil deadline =>
    schedule id deadline
    return .scheduled 0
  | .waitDuration seconds =>
    schedule id ("monotonic+" ++ toString seconds ++ "s")
    return .scheduled (seconds * nanosPerSecond)
  | .capture _ _ =>
    fail (.integration "capture requires the target-bound multiplexer dispatcher")
  | .checkStatus check =>
    let holds ← checkStatus id check
    return .status (.object [("kind",.string check.kind),("matches",.bool holds)])
  | .notify severity message =>
    runtime (← ask (.notify severity message))
    return .notified
  | .escalate level =>
    escalate id level
    return .escalated
  | .stopWatching =>
    stopWatching id
    return .committed
  | .noop => return .committed
  | .sendText _ | .submitText _ | .sendKeys _ =>
    fail (.unsafe_ "input action requires multiplexer actuator")

def dispatched (answer : Option (Except ExecutionError ExecutionOutput)) :
    Exec (Except ExecutionError ExecutionOutput) :=
  match answer with
  | none => fail targetChanged
  | some result => pure result

def dispatchInput [Digest] (snapshot : WatcherState) (action : Action) :
    Exec ExecutionOutput := do
  confirmLiveEvidence snapshot
  let result ← dispatched (← ask (.muxCommand snapshot action))
  let cancelled ← ask .cancellationRequested
  if cancelled = true then
    fail (.possibleSideEffect "recovery cancellation arrived after multiplexer dispatch")
  else settled result

def dispatchCapture [Digest] (snapshot : WatcherState) (source : String) (maxLines : Nat) :
    Exec ExecutionOutput := do
  confirmLiveEvidence snapshot
  let result ← dispatched (← ask (.capture snapshot source maxLines))
  rejectIfCancelled
  settled result

def execute [Chrono] [Digest] (snapshot : WatcherState) (action : Action) :
    Exec ExecutionOutput := do
  rejectIfCancelled
  match action.kind with
  | .sendText _ | .submitText _ | .sendKeys _ => dispatchInput snapshot action
  | .capture source maxLines => dispatchCapture snapshot source maxLines
  | .notify _ _ => fail (.unsafe_ "notification is not an autonomous recovery action")
  | _ => runtimeActuator snapshot.watcherId action

end Executor

end WatchMe
