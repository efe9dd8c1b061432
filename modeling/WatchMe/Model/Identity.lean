import WatchMe.Model.Event

/-! # Target identities

What a watcher is attached to. Schema versions are private fields of the source that only
`new` and the decoders set, so a value carries the proof of its own.
-/
namespace WatchMe

inductive HerdrWireProtocol where
  | auto
  | bridgeV1
  | native16
  deriving DecidableEq, Repr

inductive MultiplexerContext where
  | tmux (socketPath serverInstance sessionId windowId paneId tty : String)
  | herdr (socketPath serverInstance workspaceId tabId paneId tty : String)
      (wireProtocol : HerdrWireProtocol)
  deriving DecidableEq, Repr

def processIdentitySchemaVersion : Nat := 1
def targetIdentitySchemaVersion : Nat := 2

structure ProcessIdentity where
  schemaVersion : Nat
  pid : Nat
  startTime : Nat
  executable : Option String
  argvDigest : Option String
  uid : Option Nat
  processGroupId : Option Nat
  sessionLeaderId : Option Nat
  tty : Option String
  parentDigest : Option String
  schema_eq : schemaVersion = processIdentitySchemaVersion
  deriving DecidableEq

def ProcessIdentity.new (pid startTime : Nat) : ProcessIdentity :=
  ⟨processIdentitySchemaVersion,pid,startTime,none,none,none,none,none,none,none,rfl⟩

/-- `TmuxChrome`: the first live line of a pane, as its adapter states it. -/
structure TrustedScreenBoundary where
  adapter : String
  version : Nat
  firstLiveLine : Nat
  deriving DecidableEq, Repr

inductive TargetIdentity where
  | process (process : ProcessIdentity)
  | multiplexer (provider server pane : String) (process : ProcessIdentity)
      (session : Option String) (context : Option MultiplexerContext)
      (chrome : Option TrustedScreenBoundary) (needsRevalidation : Bool)
  deriving DecidableEq

namespace TargetIdentity

def needsRevalidation : TargetIdentity → Bool
  | process _ => false
  | multiplexer _ _ _ _ _ _ _ needs => needs

def processOf : TargetIdentity → ProcessIdentity
  | process p | multiplexer _ _ _ p _ _ _ _ => p

def withProcess (p : ProcessIdentity) : TargetIdentity → TargetIdentity
  | process _ => process p
  | multiplexer provider server pane _ session context chrome needs =>
    multiplexer provider server pane p session context chrome needs

def observationContext : TargetIdentity → Option MultiplexerContext
  | process _ => none
  | multiplexer _ _ _ _ _ context _ _ => context

def session : TargetIdentity → Option String
  | process _ => none
  | multiplexer _ _ _ _ session _ _ _ => session

end TargetIdentity

/-- SHA-256 in lower case hexadecimal, and the JSON bytes of a target. -/
class Digest where
  sha256Hex : List UInt8 → String
  targetBytes : TargetIdentity → List UInt8
  sha256Hex_valid (bytes : List UInt8) : validHash (sha256Hex bytes) = true

def targetIdentityHash [Digest] (target : TargetIdentity) : String :=
  Digest.sha256Hex (Digest.targetBytes target)

/-! ### Written forms

A file holds the fields; the decoders check the versions. -/

structure ProcessWire where
  schemaVersion : Nat
  pid : Nat
  startTime : Nat
  executable : Option String
  argvDigest : Option String
  uid : Option Nat
  processGroupId : Option Nat
  sessionLeaderId : Option Nat
  tty : Option String
  parentDigest : Option String
  deriving DecidableEq

def ProcessIdentity.encode (p : ProcessIdentity) : ProcessWire :=
  ⟨p.schemaVersion,p.pid,p.startTime,p.executable,p.argvDigest,p.uid,p.processGroupId,
    p.sessionLeaderId,p.tty,p.parentDigest⟩

def ProcessWire.decode (w : ProcessWire) : Except String ProcessIdentity :=
  if h : w.schemaVersion = processIdentitySchemaVersion then
    .ok ⟨w.schemaVersion,w.pid,w.startTime,w.executable,w.argvDigest,w.uid,w.processGroupId,
      w.sessionLeaderId,w.tty,w.parentDigest,h⟩
  else .error "unsupported process identity schema version"

theorem ProcessIdentity.decode_encode (p : ProcessIdentity) : p.encode.decode = .ok p := by
  have h : p.encode.schemaVersion = processIdentitySchemaVersion := p.schema_eq
  rw [ProcessWire.decode,dif_pos h]
  rfl

inductive TargetWire where
  | process (schemaVersion : Nat) (process : ProcessWire)
  | multiplexer (schemaVersion : Nat) (provider server pane : String) (process : ProcessWire)
      (session : Option String) (context : Option MultiplexerContext)
      (chrome : Option TrustedScreenBoundary) (needsRevalidation : Bool)
  deriving DecidableEq

def TargetIdentity.encode : TargetIdentity → TargetWire
  | process p => .process targetIdentitySchemaVersion p.encode
  | multiplexer provider server pane p session context chrome needs =>
    .multiplexer targetIdentitySchemaVersion provider server pane p.encode session context
      chrome needs

namespace TargetWire

def schemaVersion : TargetWire → Nat
  | process version _ | multiplexer version _ _ _ _ _ _ _ _ => version

/-- A multiplexer target written under version 1 has to be validated anew. -/
def target : TargetWire → Except String TargetIdentity
  | process _ p => do return .process (← p.decode)
  | multiplexer version provider server pane p session context chrome needs => do
    return .multiplexer provider server pane (← p.decode) session context chrome
      (version == 1 || needs)

def decode (wire : TargetWire) : Except String TargetIdentity := do
  let target ← wire.target
  refuseIf (wire.schemaVersion != 1 && wire.schemaVersion != targetIdentitySchemaVersion)
    "unsupported target identity schema version"
  return target

end TargetWire

theorem TargetIdentity.decode_encode (target : TargetIdentity) :
    target.encode.decode = .ok target := by
  unfold TargetWire.decode
  have htarget : target.encode.target = .ok target := by
    cases target <;>
      simp only [encode,TargetWire.target,ProcessIdentity.decode_encode] <;> rfl
  have hversion : target.encode.schemaVersion = targetIdentitySchemaVersion := by
    cases target <;> rfl
  rw [htarget,hversion]
  rfl

end WatchMe
