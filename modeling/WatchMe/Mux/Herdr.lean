import WatchMe.Effects.Ensures
import WatchMe.Effects.Interpret
import WatchMe.Mux.Tmux

/-! # The Herdr adapter

`Herdr` as a program over the requests it sends to its socket. The bridge protocol is written
out, with the contract of its responses; what a native socket is asked is answered as a whole.
An agent that is typed into through the bridge is looked at twice before the text is sent and
once more behind it.
-/
namespace WatchMe
open Effects Program Text

structure HerdrContext where
  socketPath : String
  workspaceId : String
  tabId : String
  paneId : String
  wireProtocol : HerdrWireProtocol
  deriving DecidableEq, Repr

structure WireProcess where
  pid : Nat
  startTime : Nat
  executable : Option String
  argvDigest : Option String
  uid : Option Nat
  processGroupId : Option Nat
  sessionLeaderId : Option Nat
  tty : Option String
  parentDigest : Option String

structure WirePane where
  serverId : String
  workspaceId : String
  workspaceName : String
  tabId : String
  tabTitle : String
  tabIndex : Nat
  paneId : String
  paneTitle : String
  paneIndex : Nat
  tty : String
  currentCommand : String
  currentPath : String
  process : WireProcess

structure ReadResult where
  text : String
  bytes : Nat
  truncated : Bool

inductive BridgeRequest where
  | paneInfo
  | paneRead (maxLines maxBytes : Nat)
  | agentStateEvents (after maxEvents : Nat)
  | sendText (text : String)
  | sendKeys (keys : List String)
  deriving DecidableEq, Repr

namespace BridgeRequest

def method : BridgeRequest → String
  | paneInfo => "pane_info"
  | paneRead _ _ => "pane_read"
  | agentStateEvents _ _ => "agent_state_events"
  | sendText _ => "send_text"
  | sendKeys _ => "send_keys"

/-- The agent's state and its events are taken as the text that is captured of them. -/
@[reducible] def Result : BridgeRequest → Type
  | paneInfo => WirePane
  | paneRead _ _ => ReadResult
  | agentStateEvents _ _ => String
  | sendText _ | sendKeys _ => Bool

end BridgeRequest

structure BridgeResponse (α : Type) where
  schemaVersion : Nat
  protocol : String
  requestId : String
  method : String
  ok : Bool
  result : Option α
  error : Option String

namespace BridgeResponse

def schema : Nat := 1
def protocolName : String := "watchme.herdr"

/-- The end of `call_async`. -/
def accept {α : Type} (response : BridgeResponse α) (requestId method : String) :
    Except MuxError α :=
  if response.schemaVersion ≠ schema ∨ response.protocol ≠ protocolName
      ∨ response.requestId ≠ requestId ∨ response.method ≠ method then
    .error (.protocol "response contract or request ID mismatch")
  else if response.ok then
    if response.error.isSome then .error (.protocol "successful response must omit error")
    else
      match response.result with
      | some result => .ok result
      | none => .error (.protocol "successful response must contain non-null result")
  else if response.result.isSome then .error (.protocol "failed response must omit result")
  else
    match response.error with
    | none => .error (.protocol "failed response must contain non-null error")
    | some error => .error (.protocol error)

def success {α : Type} (requestId method : String) (result : α) : BridgeResponse α :=
  ⟨schema,protocolName,requestId,method,true,some result,none⟩

@[simp] theorem accept_success {α : Type} (requestId method : String) (result : α) :
    (success requestId method result).accept requestId method = .ok result := by
  simp [accept,success]

end BridgeResponse

/-- `{:?}` of a multiplexer identity, in the text of an error. -/
class HerdrText where
  muxIdentity : MuxIdentity → String

/-- An exchange is answered with the parsed response; a socket that cannot be reached, a deadline
that passes and a response that does not parse are errors. -/
inductive HerdrOp where
  | validateSocket (path : String)
  | nextRequestId
  | exchange (herdr : HerdrContext) (requestId : String) (request : BridgeRequest)
  | native (herdr : HerdrContext) (op : MuxOp)

@[reducible] def HerdrOp.Answer : HerdrOp → Type
  | validateSocket _ | nextRequestId => Except MuxError String
  | exchange _ _ request => Except MuxError (BridgeResponse request.Result)
  | native _ op => op.Answer

abbrev herdrSig : Signature := ⟨HerdrOp,HerdrOp.Answer⟩
abbrev HerdrM := ExceptT MuxError (Program herdrSig)

def ComposerState.debug : ComposerState → String
  | safe => "Safe"
  | unsafe_ => "Unsafe"
  | unknown => "Unknown"
  | stale => "Stale"

namespace Herdr

def ask (op : HerdrOp) : HerdrM op.Answer := ExceptT.lift (request (S := herdrSig) op)

def settled {α : Type} : Except MuxError α → HerdrM α
  | .ok a => pure a
  | .error error => throw error

/-- `Herdr::new`: the socket is named by its physical path from now on. -/
def new (context : HerdrContext) : HerdrM HerdrContext := do
  let canonicalPath ← settled (← ask (.validateSocket context.socketPath))
  return { context with socketPath := canonicalPath }

def call (herdr : HerdrContext) (request : BridgeRequest) : HerdrM request.Result := do
  let requestId ← settled (← ask .nextRequestId)
  let response ← settled (← ask (.exchange herdr requestId request))
  settled (response.accept requestId request.method)

def WireProcess.identity (process : WireProcess) : ProcessIdentity :=
  { ProcessIdentity.new process.pid process.startTime with
    executable := process.executable
    argvDigest := process.argvDigest
    uid := process.uid
    processGroupId := process.processGroupId
    sessionLeaderId := process.sessionLeaderId
    tty := process.tty
    parentDigest := process.parentDigest }

def mapPane (socketPath : String) (pane : WirePane) : PaneInfo where
  identity := ⟨"herdr",pane.serverId,socketPath,pane.workspaceId,pane.tabId,pane.paneId,pane.tty,
    WireProcess.identity pane.process⟩
  serverId := pane.serverId
  sessionName := pane.workspaceName
  windowName := pane.tabTitle
  windowIndex := pane.tabIndex
  paneIndex := pane.paneIndex
  paneTitle := pane.paneTitle
  currentCommand := pane.currentCommand
  currentPath := pane.currentPath
  dead := false
  deadStatus := none
  startedAt := none
  deadAt := none

def pane (herdr : HerdrContext) : HerdrM PaneInfo := do
  return mapPane herdr.socketPath (← call herdr .paneInfo)

def sameIdentity (actual expected : MuxIdentity) : Bool :=
  actual.provider == expected.provider && actual.serverInstance == expected.serverInstance
    && actual.server == expected.server && actual.sessionId == expected.sessionId
    && actual.windowId == expected.windowId && actual.paneId == expected.paneId
    && actual.tty == expected.tty && decide (actual.process = expected.process)

@[simp] theorem sameIdentity_self (identity : MuxIdentity) :
    sameIdentity identity identity = true := by simp [sameIdentity]

def native (herdr : HerdrContext) : Bool := decide (herdr.wireProtocol = .native16)

def validateIdentity [HerdrText] (herdr : HerdrContext) (expected : MuxIdentity) :
    HerdrM Unit := do
  if native herdr then settled (← ask (.native herdr (.validateIdentity expected)))
  else
    let actual := (← pane herdr).identity
    if sameIdentity actual expected then return ()
    else throw (.identityChanged ("expected " ++ HerdrText.muxIdentity expected ++ ", found "
      ++ HerdrText.muxIdentity actual))

def maxCaptureLines : Nat := 10000
def maxCaptureBytes : Nat := 128 * 1024

def captureTail [HerdrText] (herdr : HerdrContext) (identity : MuxIdentity)
    (lines maxBytes : Nat) : HerdrM Capture := do
  if lines = 0 ∨ maxBytes = 0 then return ⟨"",0,false⟩
  else if maxCaptureLines < lines ∨ maxCaptureBytes < maxBytes then
    throw (.protocol "pane read bounds exceeded")
  else if native herdr then settled (← ask (.native herdr (.captureTail identity lines maxBytes)))
  else
    validateIdentity herdr identity
    let result ← call herdr (.paneRead lines maxBytes)
    if maxBytes < result.bytes ∨ result.text.utf8ByteSize ≠ result.bytes then
      throw (.protocol "pane read violated byte contract")
    else
      validateIdentity herdr identity
      return ⟨result.text,result.bytes,result.truncated⟩

def agentStateEvents [HerdrText] (herdr : HerdrContext) (identity : MuxIdentity)
    (after maxEvents : Nat) : HerdrM String := do
  validateIdentity herdr identity
  if maxEvents = 0 ∨ 1000 < maxEvents then throw (.protocol "max_events is out of bounds")
  else call herdr (.agentStateEvents after maxEvents)

abbrev Safety := MuxIdentity → HerdrM ComposerState

def requireSafe (safety : Safety) (identity : MuxIdentity) : HerdrM Unit := do
  match ← safety identity with
  | .safe => return ()
  | state => throw (.identityChanged ("composer safety is " ++ state.debug))

def validateLiteral (value : String) : Except MuxError Unit :=
  if value.toList.any forbiddenLiteralCharacter then
    .error (.invalidSelector "literal contains a control character")
  else .ok ()

/-- What `send_literal` and `send_key` share: the pane and its composer are looked at twice, the
request is sent, and both are looked at again. -/
def send [HerdrText] (herdr : HerdrContext) (safety : Safety) (identity : MuxIdentity)
    (input : HerdrM Bool) (refused : String) : HerdrM Unit := do
  validateIdentity herdr identity
  requireSafe safety identity
  validateIdentity herdr identity
  requireSafe safety identity
  if !(← input) then throw (.protocol refused)
  else
    validateIdentity herdr identity
    requireSafe safety identity

def sendLiteral [HerdrText] (herdr : HerdrContext) (safety : Safety) (identity : MuxIdentity)
    (text : String) : HerdrM Unit := do
  settled (validateLiteral text)
  send herdr safety identity (call herdr (.sendText text)) "Herdr refused literal input"

def submitLiteral (herdr : HerdrContext) (identity : MuxIdentity) (text : String) :
    HerdrM Unit := do
  if native herdr then settled (← ask (.native herdr (.submitLiteral identity text)))
  else throw (.command "atomic text submission requires native Herdr")

def keyName : SymbolicKey → String
  | .enter => "Enter"
  | .escape => "Escape"
  | .up => "Up"
  | .down => "Down"
  | .left => "Left"
  | .right => "Right"
  | .tab => "Tab"

def sendKey [HerdrText] (herdr : HerdrContext) (safety : Safety) (identity : MuxIdentity)
    (key : SymbolicKey) : HerdrM Unit :=
  send herdr safety identity (call herdr (.sendKeys [keyName key])) "Herdr refused symbolic input"

/-- `capture_mux_target` of a Herdr target. -/
def captureTarget [HerdrText] (watcher : WatcherState) (identity : MuxIdentity)
    (lines maxBytes : Nat) : HerdrM Capture :=
  match watcher.target.observationContext with
  | some (.herdr socketPath _ workspaceId tabId paneId _ wireProtocol) => do
    let herdr ← new ⟨socketPath,workspaceId,tabId,paneId,wireProtocol⟩
    captureTail herdr identity lines maxBytes
  | _ => throw (.identityChanged "missing concrete multiplexer context")

def observe [HerdrText] (watcher : WatcherState) : Safety := fun identity => do
  let capture ← captureTarget watcher identity (RuntimeComposerSafety.captureLines watcher)
    (RuntimeComposerSafety.captureBytes watcher)
  return RuntimeComposerSafety.stateOf watcher capture.text.toList

/-- The calls of a multiplexer, made to a Herdr pane. -/
def muxCall [HerdrText] (herdr : HerdrContext) (safety : Safety) :
    (op : MuxOp) → Program herdrSig op.Answer
  | .connect _ => (new herdr).run >>= fun r => .done (r.map fun _ => ())
  | .validateIdentity identity => (validateIdentity herdr identity).run
  | .captureTail identity lines maxBytes => (captureTail herdr identity lines maxBytes).run
  | .agentStateEvents identity after maxEvents =>
    (agentStateEvents herdr identity after maxEvents).run
  | .sendLiteral identity text => (sendLiteral herdr safety identity text).run
  | .submitLiteral identity text => (submitLiteral herdr identity text).run
  | .sendKey identity key => (sendKey herdr safety identity key).run

def actuate [Chrono] [HerdrText] (herdr : HerdrContext) (safety : Safety)
    (identity : MuxIdentity) (source : EventSource) (action : Action) :
    ExceptT ExecutionError (Program herdrSig) ExecutionOutput :=
  ExceptT.mk ((Mux.actuate identity source action).run.interpret (muxCall herdr safety))

end Herdr

end WatchMe
