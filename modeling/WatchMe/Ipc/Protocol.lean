import WatchMe.Daemon.Lifecycle
import WatchMe.Daemon.Persistence

/-! # Frames of the daemon's protocol

A frame is an envelope around a message, with the version of the protocol. It is written as JSON
text; here a frame is the value that the text stands for and the length of the text is a parameter,
so plain values come back as they were written. Reading is not plain where a message holds watchers:
each of them is checked, with the event it saw last, and nothing of that was checked when the
message was made.
-/
namespace WatchMe

inductive ProtocolError where
  | oversized
  | malformed (error : String)
  | version (version : Nat)
  deriving DecidableEq, Repr

def protocolVersion : Nat := 1

def maxFrameBytes : Nat := 64 * 1024

/-- `EncodeEnvelope` and `DecodeEnvelope`, around the written form of a message. -/
structure Envelope (ω : Type) where
  version : Nat
  payload : ω

/-- `Serialize` and `Deserialize` of a message with the written form `ω`. -/
class Serde (τ : Type) (ω : outParam Type) where
  serialize : τ → ω
  deserialize : ω → Except String τ

/-- The length of the JSON text of an envelope. -/
class FrameText (ω : Type) where
  frameBytes : Envelope ω → Nat

section Frames
variable {τ ω : Type} [Serde τ ω] [FrameText ω]

def encodeFrame (value : τ) : Except ProtocolError (Envelope ω) :=
  let frame : Envelope ω := ⟨protocolVersion,Serde.serialize value⟩
  if FrameText.frameBytes frame > maxFrameBytes then .error .oversized else .ok frame

def decodeFrame (frame : Envelope ω) : Except ProtocolError τ :=
  if FrameText.frameBytes frame > maxFrameBytes then .error .oversized
  else match Serde.deserialize frame.payload with
    | .error error => .error (.malformed error)
    | .ok value =>
      if frame.version ≠ protocolVersion then .error (.version frame.version) else .ok value

end Frames

inductive ResponseWire where
  | status (running : Bool) (watchers : List WatcherWire)
  | watchers (watchers : List WatcherWire)
  | registered (watcherId : String) (existing : Bool)
  | updated (watcher : WatcherWire)
  | stopped
  | acknowledged
  | error (code message : String)

def Response.encode : Response → ResponseWire
  | .status running list => .status running (list.map (·.encode))
  | .watchers list => .watchers (list.map (·.encode))
  | .registered watcherId existing => .registered watcherId existing
  | .updated watcher => .updated watcher.encode
  | .stopped => .stopped
  | .acknowledged => .acknowledged
  | .error code message => .error code message

def Response.shown : Response → List WatcherState
  | .status _ list | .watchers list => list
  | .updated watcher => [watcher]
  | .registered _ _ | .stopped | .acknowledged | .error _ _ => []

section Reading
variable [Chrono]

def ResponseWire.decode : ResponseWire → Except String Response
  | .status running list => return .status running (← list.mapM (·.decode))
  | .watchers list => return .watchers (← list.mapM (·.decode))
  | .registered watcherId existing => return .registered watcherId existing
  | .updated watcher => return .updated (← watcher.decode)
  | .stopped => return .stopped
  | .acknowledged => return .acknowledged
  | .error code message => return .error code message

instance : Serde Response ResponseWire := ⟨Response.encode,ResponseWire.decode⟩

omit [Chrono] in
theorem wrapped_ok_iff {ε α β : Type} {x : Except ε α} {a : α} {p : Prop}
    (hx : ∀ read, x = .ok read ↔ p ∧ read = a) (f : α → β) (b : β) :
    (do return f (← x) : Except ε β) = .ok b ↔ p ∧ b = f a := by
  rw [bind_ok_iff]
  constructor
  · rintro ⟨read,hread,heq⟩
    obtain ⟨hp,rfl⟩ := (hx read).1 hread
    exact ⟨hp,(Except.ok.inj heq).symm⟩
  · rintro ⟨hp,rfl⟩
    exact ⟨a,(hx a).2 ⟨hp,rfl⟩,rfl⟩

theorem decodeAll_encode_iff (list read : List WatcherState) :
    (list.map (·.encode)).mapM WatcherWire.decode = .ok read ↔
      (∀ w ∈ list, w.Decodable) ∧ read = list := by
  rw [List.mapM_map]
  refine (mapM_ok_iff (g := id) WatcherState.decode_encode_iff).trans ?_
  rw [List.map_id]

theorem Response.decode_encode_iff (response read : Response) :
    response.encode.decode = .ok read ↔
      (∀ w ∈ response.shown, w.Decodable) ∧ read = response := by
  have hplain : ∀ r : Response, r.shown = [] →
      (Except.ok (ε := String) r = .ok read ↔ (∀ w ∈ r.shown, w.Decodable) ∧ read = r) := by
    intro r hr
    rw [hr,Except.ok.injEq,eq_comm (a := r)]
    exact (and_iff_right fun _ h => absurd h List.not_mem_nil).symm
  cases response with
  | status running list =>
    exact wrapped_ok_iff (decodeAll_encode_iff list) (Response.status running) read
  | watchers list => exact wrapped_ok_iff (decodeAll_encode_iff list) Response.watchers read
  | updated watcher =>
    refine (wrapped_ok_iff watcher.decode_encode_iff Response.updated read).trans ?_
    exact and_congr_left' List.forall_mem_singleton.symm
  | registered => exact hplain _ rfl
  | stopped => exact hplain _ rfl
  | acknowledged => exact hplain _ rfl
  | error => exact hplain _ rfl

inductive StatusQuery where
  | status (id : Option String)
  | list

namespace StatusQuery

def request : StatusQuery → Request
  | .status id => .status id
  | .list => .list

/-- The answer of `handle_request`, which neither fails nor writes. -/
def answer (R : Registry) : StatusQuery → Response
  | .status none => .status true R.list
  | .status (some id) => .status true (R.get id).toList
  | .list => .watchers R.list

variable [FrameText ResponseWire]

def Readable [JsonText] (query : StatusQuery) (R : Registry) (writes : HostWrites) : Prop :=
  ∃ (response : Response) (frame : Envelope ResponseWire),
    (R.handleRequest writes query.request).1 = .ok response ∧
      encodeFrame response = .ok frame ∧ decodeFrame frame = .ok response

def Fits (query : StatusQuery) (R : Registry) : Prop :=
  FrameText.frameBytes ⟨protocolVersion,(query.answer R).encode⟩ ≤ maxFrameBytes

end StatusQuery

end Reading

attribute [local instance] Sample.texts Sample.digest Sample.snapshotBytes Sample.jsonText

end WatchMe
