import WatchMe.Effects.Interpret
import WatchMe.Mux.Composer

/-! # Multiplexer commands

The `Multiplexer` trait is a signature whose answers are arbitrary. `MuxActuator`, the daemon's
checks before it and `DaemonActionExecutor` around it are programs over it, so that a trace of an
execution shows which commands reached the multiplexer.
-/
namespace WatchMe
open Effects Program

inductive MuxError where
  | invalidSelector (reason : String)
  | timeout
  | command (reason : String)
  | malformed (reason : String)
  | identityChanged (reason : String)
  | invalidUtf8
  | protocol (reason : String)
  | incompatibleProtocol (reason : String)
  | unsafeSocket (reason : String)
  | commandOutcomeUnknown (reason : String)
  deriving DecidableEq, Repr

def MuxError.text : MuxError → String
  | invalidSelector reason => "invalid tmux selector: " ++ reason
  | timeout => "tmux command timed out"
  | command reason => "tmux command failed: " ++ reason
  | malformed reason => "malformed tmux metadata: " ++ reason
  | identityChanged reason => "target identity changed: " ++ reason
  | invalidUtf8 => "captured output is not valid UTF-8"
  | protocol reason => "Herdr protocol error: " ++ reason
  | incompatibleProtocol reason => "incompatible Herdr protocol: " ++ reason
  | unsafeSocket reason => "unsafe Herdr socket: " ++ reason
  | commandOutcomeUnknown reason => "multiplexer command outcome is unknown: " ++ reason

structure Capture where
  text : String
  bytes : Nat
  truncated : Bool

/-- The calls of a multiplexer. `connect` is `Herdr::new`. -/
inductive MuxOp where
  | connect (context : MultiplexerContext)
  | validateIdentity (identity : MuxIdentity)
  | captureTail (identity : MuxIdentity) (lines maxBytes : Nat)
  | agentStateEvents (identity : MuxIdentity) (after maxEvents : Nat)
  | sendLiteral (identity : MuxIdentity) (text : String)
  | submitLiteral (identity : MuxIdentity) (text : String)
  | sendKey (identity : MuxIdentity) (key : SymbolicKey)

@[reducible] def MuxOp.Answer : MuxOp → Type
  | captureTail _ _ _ => Except MuxError Capture
  | agentStateEvents _ _ _ => Except MuxError String
  | _ => Except MuxError Unit

def MuxOp.sends : MuxOp → Bool
  | sendLiteral _ _ | submitLiteral _ _ | sendKey _ _ => true
  | _ => false

abbrev muxSig : Signature := ⟨MuxOp,MuxOp.Answer⟩
abbrev MuxM (ε : Type) := ExceptT ε (Program muxSig)

namespace Mux

def ask {ε : Type} (op : MuxOp) : MuxM ε op.Answer := ExceptT.lift (Program.request (S := muxSig) op)

/-- `result?`, the error wrapped. -/
def orThrow {ε ε' α : Type} (wrap : ε → ε') : Except ε α → MuxM ε' α
  | .ok a => pure a
  | .error error => throw (wrap error)

def integration (error : MuxError) : ExecutionError := .integration error.text

def possibleSideEffect (error : MuxError) : ExecutionError := .possibleSideEffect error.text

/-- The multiplexer of the watcher's context. Only Herdr has to be connected to. -/
def connected (watcher : WatcherState) : MuxM MuxError Unit :=
  match watcher.target.observationContext with
  | some (.tmux _ _ _ _ _ _) => pure ()
  | some context => do orThrow id (← ask (.connect context))
  | none => throw (.identityChanged "missing concrete multiplexer context")

def validateMuxTarget (watcher : WatcherState) (identity : MuxIdentity) : MuxM MuxError Unit := do
  connected watcher
  orThrow id (← ask (.validateIdentity identity))

def captureMuxTarget (watcher : WatcherState) (identity : MuxIdentity) (lines bytes : Nat) :
    MuxM MuxError Capture := do
  connected watcher
  orThrow id (← ask (.captureTail identity lines bytes))

def observeComposer (watcher : WatcherState) (identity : MuxIdentity) :
    MuxM MuxError ComposerState := do
  let capture ← captureMuxTarget watcher identity (RuntimeComposerSafety.captureLines watcher)
    (RuntimeComposerSafety.captureBytes watcher)
  return RuntimeComposerSafety.stateOf watcher capture.text.toList

def muxCaptureSourceMatches (requested : String) (source : EventSource) : Bool :=
  (requested == "screen_detection" || requested == "screen_recent")
    && source.kind == .screenDetection && source.sourceId == "tmux"

def maxCaptureBytes : Nat := 64 * 1024

def sendKeys (identity : MuxIdentity) : List String → MuxM ExecutionError Unit
  | [] => pure ()
  | key :: keys =>
    match symbolicKey key with
    -- the `expect` of the source: the action was validated
    | none => throw (.unsafe_ "validated")
    | some symbol => do
      orThrow possibleSideEffect (← ask (.sendKey identity symbol))
      sendKeys identity keys

def actuate [Chrono] (identity : MuxIdentity) (source : EventSource) (action : Action) :
    MuxM ExecutionError ExecutionOutput := do
  orThrow id (validateAction action)
  orThrow integration (← ask (.validateIdentity identity))
  match action.kind with
  | .sendText text =>
    orThrow possibleSideEffect (← ask (.sendLiteral identity text))
    return .committed
  | .submitText text =>
    orThrow possibleSideEffect (← ask (.submitLiteral identity text))
    return .committed
  | .sendKeys keys =>
    sendKeys identity keys
    return .committed
  | .capture requested maxLines =>
    if !muxCaptureSourceMatches requested source then
      throw (.unsafe_ "capture source is not the bound mux screen observation")
    else
      let capture ← orThrow integration (← ask (.captureTail identity maxLines maxCaptureBytes))
      return .captured capture.text
  | .waitDuration seconds => return .scheduled (seconds * nanosPerSecond)
  | .waitUntil _ => return .scheduled 0
  | .checkStatus check =>
    return .status (.object [("kind",.string check.kind),
      ("value",match check.value with
        | some value => .string value
        | none => .null)])
  | .notify _ _ => return .notified
  | .escalate _ => return .escalated
  | .stopWatching | .noop => return .committed

/-- `watcher_mux_identity(..)?.ok_or(..)?`. -/
def identityOf (watcher : WatcherState) (missing : String) : Except ExecutionError MuxIdentity :=
  match watcherMuxIdentity watcher with
  | .error reason => .error (integration (.identityChanged reason))
  | .ok none => .error (.unsafe_ missing)
  | .ok (some identity) => .ok identity

def executeMuxAction [Chrono] (watcher : WatcherState) (action : Action) :
    MuxM ExecutionError ExecutionOutput :=
  match watcher.lastObservation with
  | none => throw (.unsafe_ "mux action requires a current observation source")
  | some event => do
    let identity ← orThrow id (identityOf watcher "input or capture requires a multiplexer target")
    match watcher.target.observationContext with
    | none => throw (.unsafe_ "missing concrete multiplexer context")
    | some (.tmux _ _ _ _ _ _) => actuate identity event.source action
    | some context =>
      orThrow integration (← ask (.connect context))
      actuate identity event.source action

def captureSourceMatches (watcher : WatcherState) (requested : String) : Bool :=
  match watcher.lastObservation with
  | none => false
  | some event =>
    match requested, watcher.target.observationContext with
    | "screen_detection", some (.tmux _ _ _ _ _ _) | "screen_recent", some (.tmux _ _ _ _ _ _) =>
      event.source.kind == .screenDetection && event.source.sourceId == "tmux"
    | "structured_state", some (.herdr _ _ _ _ _ _ _) =>
      event.source.kind == .herdrAgentState && event.source.sourceId == "herdr"
        && event.source.ruleOrField == "typed_pane_state"
    | _, _ => false

/-- `capture_source_matches` has already compared the source of the event. -/
def captureHerdrStructuredState (watcher : WatcherState) (identity : MuxIdentity)
    (maxEvents : Nat) : MuxM ExecutionError ExecutionOutput :=
  match watcher.target.observationContext, watcher.lastObservation with
  | some (.herdr socketPath serverInstance workspaceId tabId paneId tty wire), some event =>
    if event.source.kind ≠ .herdrAgentState ∨ event.source.sourceId ≠ "herdr"
        ∨ event.source.ruleOrField ≠ "typed_pane_state" then
      throw (.unsafe_ "structured state source is not Herdr typed state")
    else do
      orThrow integration (← ask (.connect
        (.herdr socketPath serverInstance workspaceId tabId paneId tty wire)))
      let state ← orThrow integration (← ask (.agentStateEvents identity
        watcher.observationSchedule.herdrAfterSequence maxEvents))
      return .captured state
  | some (.herdr _ _ _ _ _ _ _), none => throw (.unsafe_ "missing current observation")
  | _, _ => throw (.unsafe_ "structured state requires a Herdr target")

def executeCapture (watcher : WatcherState) (source : String) (maxLines : Nat) :
    MuxM ExecutionError ExecutionOutput :=
  if !captureSourceMatches watcher source then
    throw (.unsafe_ "capture source does not match current adapter observation")
  else do
    let identity ← orThrow id (identityOf watcher "capture requires a multiplexer target")
    if source = "structured_state" then captureHerdrStructuredState watcher identity maxLines
    else
      let capture ← ExceptT.adapt integration
        (captureMuxTarget watcher identity maxLines (32 * 1024))
      return .captured capture.text

end Mux

end WatchMe
