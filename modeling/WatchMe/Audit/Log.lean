import WatchMe.Agents.Codex
import WatchMe.Effects.Ensures
import WatchMe.Effects.Pool
import WatchMe.Logs.Bounded
import WatchMe.Text.Json
import WatchMe.Text.Utf8

/-! # The audit log

The daemon appends events to the log, one line each. The command that shows the log first applies
the retention to it: it reads the file, truncates it and writes back what is to be kept.
-/
namespace WatchMe
open Effects Program Text

structure AuditEvent where
  schemaVersion : String
  recordedAt : String
  watcherId : Option String
  kind : String
  detector : Option String
  evidence : Option String
  state : Option String
  policyDecision : Option String
  attemptedAction : Option String
  verification : Option String
  message : String
  deriving DecidableEq

/-- `redact_text` without further names, and `serde_json::from_str` at audit events. -/
class AuditText extends Chrono where
  redactText : String → String
  eventOfStr : String → Option AuditEvent

namespace AuditEvent

def redact [AuditText] (event : AuditEvent) : AuditEvent :=
  { event with
    detector := event.detector.map AuditText.redactText
    evidence := event.evidence.map AuditText.redactText
    policyDecision := event.policyDecision.map AuditText.redactText
    attemptedAction := event.attemptedAction.map AuditText.redactText
    verification := event.verification.map AuditText.redactText
    message := AuditText.redactText event.message }

def optionalField (key : String) (value : Option String) : List (String × String) :=
  value.toList.map fun text => (key,jsonString text)

def json (event : AuditEvent) : String :=
  jsonObject ([("schema_version",jsonString event.schemaVersion),
      ("recorded_at",jsonString event.recordedAt)] ++
    optionalField "watcher_id" event.watcherId ++ [("kind",jsonString event.kind)] ++
    optionalField "detector" event.detector ++ optionalField "evidence" event.evidence ++
    optionalField "state" event.state ++ optionalField "policy_decision" event.policyDecision ++
    optionalField "attempted_action" event.attemptedAction ++
    optionalField "verification" event.verification ++ [("message",jsonString event.message)])

def line (event : AuditEvent) : List UInt8 := encodeUtf8 event.json.toList ++ [10]

def encodedSize (event : AuditEvent) : Nat := event.json.utf8ByteSize + 1

end AuditEvent

section Retention
variable [AuditText]

/-- `read_all`: lines that are blank or no events are passed over. -/
def readAll (bytes : List UInt8) : Except String (List AuditEvent) := do
  let lines ← (bufLines 10 13 bytes).mapM fun line =>
    (fromUtf8 line).mapError fun _ => "stream did not contain valid UTF-8"
  return lines.filterMap fun line =>
    if trim (.ofList line) = "" then none
    else (AuditText.eventOfStr (.ofList line)).map AuditEvent.redact

structure RetentionPolicy where
  eventsDays : Nat
  auditDays : Nat
  maxLogBytes : Nat

/-- `parse_rfc3339`: a `SystemTime`, in nanoseconds, of whole seconds and not before the epoch. -/
def systemTimeOf (text : String) : Option Int :=
  (Chrono.parseFromRfc3339 text).map fun stamp => max (stamp / 1000000000) 0 * 1000000000

/-- `SystemTime::checked_sub`, whose seconds are an `i64`. -/
def checkedSub (time : Int) (seconds : Nat) : Option Int :=
  let earlier := time - seconds * 1000000000
  if -(2 ^ 63) * 1000000000 ≤ earlier then some earlier else none

def RetentionPolicy.cutoff (policy : RetentionPolicy) (now : Int) : Int :=
  let cutoffDays := max policy.auditDays policy.eventsDays
  (checkedSub now (min (cutoffDays * 86400) (2 ^ 64 - 1))).getD 0

/-- The events from the cutoff on, and those without a time. -/
def RetentionPolicy.rule (policy : RetentionPolicy) (now : Int) : Logs.Rule AuditEvent where
  keep event := (systemTimeOf event.recordedAt).all fun stamp => decide (policy.cutoff now ≤ stamp)
  limit := policy.maxLogBytes

def RetentionPolicy.kept (policy : RetentionPolicy) (now : Int) (events : List AuditEvent) :
    List AuditEvent :=
  Logs.prune AuditEvent.encodedSize AuditEvent.redact (policy.rule now) events

end Retention

inductive AuditOp where
  | openAppend
  | setPermissions
  /-- One write of the line of the event, at the end of the file. -/
  | append (event : AuditEvent)
  | systemTime
  | pathExists
  | read
  /-- The file is empty when it is open, and written from its start. -/
  | openTruncate
  /-- One write of the line of the event at a place of the file. -/
  | write (offset : Nat) (event : AuditEvent)
  deriving DecidableEq

@[reducible] def AuditOp.Answer : AuditOp → Type
  | systemTime => Int
  | pathExists => Bool
  | read => Except String (List UInt8)
  | openAppend | setPermissions | append _ | openTruncate | write _ _ => Except String Unit

abbrev auditSig : Signature := ⟨AuditOp,AuditOp.Answer⟩

abbrev LogEvent := auditSig.Event

inductive AuditCall where
  | append (event : AuditEvent)
  | applyRetention (policy : RetentionPolicy) (now : String)

namespace AuditLog
variable [AuditText]

def call (op : AuditOp) : Program auditSig op.Answer := Program.request (S := auditSig) op

def append (event : AuditEvent) : ExceptT String (Program auditSig) Unit := do
  ExceptT.mk (call .openAppend)
  let _ ← ExceptT.lift (call .setPermissions)
  ExceptT.mk (call (.append event.redact))

def timeOf (now : String) : ExceptT String (Program auditSig) Int :=
  match systemTimeOf now with
  | some time => pure time
  | none => ExceptT.lift (call .systemTime)

def load : ExceptT String (Program auditSig) (List AuditEvent) := do
  let found ← ExceptT.lift (call .pathExists)
  if found = false then return []
  else
    let bytes ← ExceptT.mk (call .read)
    ExceptT.mk (pure (readAll bytes))

def writeFrom (offset : Nat) : List AuditEvent → ExceptT String (Program auditSig) Unit
  | [] => pure ()
  | event :: rest => do
    ExceptT.mk (call (.write offset event))
    writeFrom (offset + event.line.length) rest

def applyRetention (policy : RetentionPolicy) (now : String) :
    ExceptT String (Program auditSig) Unit := do
  let time ← timeOf now
  let events ← load
  ExceptT.mk (call .openTruncate)
  let _ ← ExceptT.lift (call .setPermissions)
  writeFrom 0 (policy.kept time events)

def operation : AuditCall → ExceptT String (Program auditSig) Unit
  | .append event => append event
  | .applyRetention policy now => applyRetention policy now

def main (c : AuditCall) : Program auditSig (Empty ⊕ Except String Unit) :=
  (operation c).run >>= fun result => pure (.inr result)

end AuditLog

/-- Any number of appends and retentions, in any number of processes. -/
def auditMachine [AuditText] : Machine auditSig AuditCall (Except String Unit) :=
  Program.machine nofun AuditLog.main

structure AuditFile where
  bytes : List UInt8
  journal : List AuditEvent

/-- A write at a place of a file, which is filled up with zeros if it ends before it. -/
def writeAt (bytes : List UInt8) (offset : Nat) (text : List UInt8) : List UInt8 :=
  (bytes ++ List.replicate (offset - bytes.length) 0).take offset ++ text ++
    bytes.drop (offset + text.length)

theorem writeAt_length (bytes text : List UInt8) :
    writeAt bytes bytes.length text = bytes ++ text := by
  simp [writeAt]

/-- A write that fails has written nothing. A file that is not there has no bytes. -/
def auditWorld : World auditSig AuditFile where
  Answers s e s' := match e with
    | ⟨.append event,.ok ()⟩ => s' = ⟨s.bytes ++ event.line,s.journal ++ [event]⟩
    | ⟨.openTruncate,.ok ()⟩ => s' = ⟨[],s.journal⟩
    | ⟨.write offset event,.ok ()⟩ => s' = ⟨writeAt s.bytes offset event.line,s.journal⟩
    | ⟨.read,.ok bytes⟩ => s' = s ∧ bytes = s.bytes
    | ⟨.pathExists,found⟩ => s' = s ∧ (found = false → s.bytes = [])
    | _ => s' = s
  Restarts _ _ := False

end WatchMe
