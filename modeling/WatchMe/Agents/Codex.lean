import WatchMe.Model.State
import WatchMe.Text.Reading

/-! # The Codex observer

A Codex goal is read from structured state, an App Server file or a rollout log, and turned into an
event. `Event::new` checks the event before the observer adds its session and its metadata, so what
is committed has to be compared with the decoder's checks anew: `structuredGoalEvent_validates_iff`
and its relatives do so for every way an event leaves the observer.
-/
namespace WatchMe

namespace Json

def get : Json → String → Option Json
  | object fields, key => fields.lookup key
  | _, _ => none

def asArray : Json → Option (List Json)
  | array items => some items
  | _ => none

def asBool : Json → Option Bool
  | bool b => some b
  | _ => none

def asInt : Json → Option Int
  | number x => if x.den = 1 then some x.num else none
  | _ => none

def asU64 (value : Json) : Option Nat :=
  value.asInt.bind fun n => if 0 ≤ n ∧ n < 2 ^ 64 then some n.toNat else none

def asI64 (value : Json) : Option Int :=
  value.asInt.bind fun n => if -2 ^ 63 ≤ n ∧ n < 2 ^ 63 then some n else none

end Json

/-- Texts of other libraries: the JSON grammar, and UTC instants as RFC 3339. -/
class Texts extends Chrono where
  fromStr : String → Option Json
  toRfc3339 : Int → String

def fromSlice [Texts] (bytes : List UInt8) : Option Json :=
  (Text.fromUtf8 bytes).toOption.bind fun text => Texts.fromStr (.ofList text)

def utf8Bytes (text : String) : List UInt8 := text.toUTF8.toList

def toBeBytes (n : Nat) : List UInt8 :=
  (List.range 8).map fun i => UInt8.ofNat (n / 256 ^ (7 - i))

def evidenceFingerprint [Digest] (source rule : String) (evidence : List UInt8) : String :=
  Digest.sha256Hex <| [utf8Bytes source,utf8Bytes rule,evidence].flatMap fun part =>
    toBeBytes part.length ++ part

def evidenceBytes (source rule : String) (evidence : List UInt8) : List UInt8 :=
  [utf8Bytes source,utf8Bytes rule,evidence].flatMap fun part => toBeBytes part.length ++ part

/-- The lengths stand before the parts, so the last part can be read off. -/
theorem evidenceBytes_inj {source rule : String} {a b : List UInt8}
    (h : evidenceBytes source rule a = evidenceBytes source rule b) : a = b := by
  simp only [evidenceBytes,List.flatMap_cons,List.flatMap_nil,List.append_nil,
    List.append_cancel_left_eq] at h
  exact (List.append_inj h rfl).2

theorem utf8Bytes_inj {a b : String} (h : utf8Bytes a = utf8Bytes b) : a = b := by
  rw [utf8Bytes,utf8Bytes,Text.byteArray_toList,Text.byteArray_toList] at h
  exact String.toByteArray_inj.1 (ByteArray.ext (Array.toList_inj.1 h))

theorem toBeBytes_inj {n m : Nat} (hn : n < 2 ^ 64) (hm : m < 2 ^ 64)
    (h : toBeBytes n = toBeBytes m) : n = m := by
  have hread : ∀ k < 2 ^ 64,(toBeBytes k).foldl (fun acc b => acc * 256 + b.toNat) 0 = k := by
    intro k hk
    simp [toBeBytes,List.range_succ]
    omega
  rw [← hread n hn,h,hread m hm]

theorem framed_inj {a b s t : List UInt8} (ha : a.length < 2 ^ 64) (hb : b.length < 2 ^ 64)
    (h : toBeBytes a.length ++ a ++ s = toBeBytes b.length ++ b ++ t) : a = b ∧ s = t := by
  rw [List.append_assoc,List.append_assoc] at h
  obtain ⟨hlength,hrest⟩ := List.append_inj h rfl
  exact List.append_inj hrest (toBeBytes_inj ha hb hlength)

theorem fingerprint_identifies [Digest] {source source' rule rule' : String}
    {evidence evidence' : List UInt8}
    (hparts : ∀ part ∈ [utf8Bytes source,utf8Bytes rule,evidence,utf8Bytes source',
      utf8Bytes rule',evidence'],part.length < 2 ^ 64) :
    let bytes := evidenceBytes source rule evidence
    let bytes' := evidenceBytes source' rule' evidence'
    (bytes = bytes' → source = source' ∧ rule = rule' ∧ evidence = evidence') ∧
    (evidenceFingerprint source rule evidence = evidenceFingerprint source' rule' evidence' →
      source = source' ∧ rule = rule' ∧ evidence = evidence' ∨
      bytes ≠ bytes' ∧ Digest.sha256Hex bytes = Digest.sha256Hex bytes') := by
  intro bytes bytes'
  have hbytes : bytes = bytes' → source = source' ∧ rule = rule' ∧ evidence = evidence' := by
    intro h
    simp only [List.forall_mem_cons] at hparts
    obtain ⟨hs,hr,he,hs',hr',he',-⟩ := hparts
    obtain ⟨hsource,h⟩ := framed_inj hs hs' h
    obtain ⟨hrule,h⟩ := framed_inj hr hr' h
    exact ⟨utf8Bytes_inj hsource,utf8Bytes_inj hrule,(framed_inj he he' h).1⟩
  refine ⟨hbytes,fun h => ?_⟩
  by_cases heq : bytes = bytes'
  · exact .inl (hbytes heq)
  · exact .inr ⟨heq,h⟩

theorem fingerprint_identifies_divided :
    evidenceBytes "a" "bc" [1] ≠ evidenceBytes "ab" "c" [1] := by
  let _ : Digest :=
    ⟨fun _ => String.ofList (List.replicate 64 'a'),fun _ => [],fun _ => by decide⟩
  intro h
  refine absurd ((fingerprint_identifies ?_).1 h).1 (by decide)
  simp [utf8Bytes,Text.byteArray_toList]
  decide

inductive CodexRecoveryPlan where
  | none
  | waitThenGoalResume
  | humanRequired
  deriving DecidableEq, Repr

structure CodexGoalSnapshot where
  threadId : String
  goalStatus : Option String
  goalText : Option String
  runtimeType : Option String
  activeFlags : List String
  lastErrorCategory : Option String
  lastErrorTerminal : Bool
  screenTail : Option String
  deriving DecidableEq, Repr

class SnapshotBytes where
  snapshotBytes : CodexGoalSnapshot → List UInt8

/-- The characters that `str::trim` takes off. -/
def isWhiteSpace (c : Char) : Bool :=
  let n := c.toNat
  (9 ≤ n && n ≤ 13) || n == 0x20 || n == 0x85 || n == 0xa0 || n == 0x1680
    || (0x2000 ≤ n && n ≤ 0x200a) || n == 0x2028 || n == 0x2029 || n == 0x202f || n == 0x205f
    || n == 0x3000

def trim (text : String) : String :=
  .ofList ((text.toList.dropWhile isWhiteSpace).reverse.dropWhile isWhiteSpace).reverse

def normalizeStatus (value : String) : String := .ofList ((trim value).toList.map Char.toLower)

namespace CodexGoalSnapshot

def status (snapshot : CodexGoalSnapshot) : Option String :=
  snapshot.goalStatus.map normalizeStatus

def waitsOnApproval (snapshot : CodexGoalSnapshot) : Bool :=
  snapshot.activeFlags.any (fun flag => normalizeStatus flag == "waitingonapproval")
    || snapshot.runtimeType.any fun value => normalizeStatus value == "waitingonapproval"

def capacityCategories : List String := ["capacity_block","capacity","overloaded","model_capacity"]

/-- `classify_goal_snapshot`. Every error that is not about capacity asks for a human. -/
def classify (snapshot : CodexGoalSnapshot) : CodexRecoveryPlan :=
  match snapshot.status with
  | none => .none
  | some status =>
    if ["active","pursuing","completed","cancelled","canceled"].contains status then .none
    else if ! ["blocked","paused"].contains status then .none
    else if snapshot.waitsOnApproval then .humanRequired
    else if (snapshot.lastErrorCategory.map normalizeStatus).any capacityCategories.contains then
      .waitThenGoalResume
    else .humanRequired

def ofValue (value : Json) : Option CodexGoalSnapshot :=
  let threadId := ((value.get "thread_id").bind Json.asStr).getD ""
  let goal := value.get "goal"
  let runtime := value.get "runtime_status"
  let error := value.get "last_error"
  let text (object : Option Json) (key : String) : Option String :=
    (object.bind (·.get key)).bind Json.asStr
  if threadId = "" then none
  else some
    { threadId
      goalStatus := text goal "status"
      goalText := text goal "text"
      runtimeType := text runtime "type"
      activeFlags := (((runtime.bind (·.get "active_flags")).bind Json.asArray).map
        (·.filterMap Json.asStr)).getD []
      lastErrorCategory := text error "category"
      lastErrorTerminal := ((error.bind (·.get "terminal")).bind Json.asBool).getD false
      screenTail := (value.get "screen_tail").bind Json.asStr }

end CodexGoalSnapshot

def normalizeStructuredSource (value : Json) : SourceKind → Option CodexGoalSnapshot
  | .typedApi | .structuredLog | .hook => CodexGoalSnapshot.ofValue value
  | .screenDetection => none
  | _ => (CodexGoalSnapshot.ofValue value).filter fun snapshot => snapshot.goalStatus.isSome

def withMetadata (event : Event) (key : String) (value : Json) : Event :=
  { event with metadata := event.metadata.insert key value }

def withText (event : Event) (key : String) : Option String → Event
  | none => event
  | some text => withMetadata event key (.string text)

def goalReport (snapshot : CodexGoalSnapshot) : Option (EventCategory × PolicyHint × Bool) :=
  match snapshot.classify with
  | .none => snapshot.status.bind fun status =>
    if ["active","pursuing"].contains status then some (.working,.observeOnly,false)
    else if ["completed","cancelled","canceled"].contains status then
      some (.idle,.observeOnly,false)
    else none
  | .waitThenGoalResume => some (.capacityBlock,.waitAllowed,true)
  | .humanRequired => some (.blockedGoal,.humanRequired,true)

section Goal
variable [Texts] [Digest] [SnapshotBytes]

/-- What the observer adds to the event that was checked. -/
def annotated (snapshot : CodexGoalSnapshot) (event : Event) : Event :=
  let event := { event with sessionId := some snapshot.threadId }
  let event := withMetadata event "codex_thread_id" (.string snapshot.threadId)
  let event := withText event "goal_state" snapshot.status
  let event := withText event "codex_goal_text" snapshot.goalText
  let event :=
    if snapshot.classify = .waitThenGoalResume then
      withMetadata event "codex_capacity_block" (.bool true)
    else event
  withText event "codex_error_category" snapshot.lastErrorCategory

def structuredGoalEvent (watcher : WatcherState) (snapshot : CodexGoalSnapshot)
    (sourceKind : SourceKind) (observed : Int) : Option Event := do
  let (category,hint,terminal) ← goalReport snapshot
  let event ← (Event.new ("codex-goal-" ++ watcher.watcherId) (Texts.toRfc3339 observed)
    watcher.watcherId (targetIdentityHash watcher.target)
    (.new sourceKind "codex" "goal_status") category
    (if sourceKind = .typedApi then 1 else 9 / 10) terminal
    (evidenceFingerprint "codex_goal" snapshot.threadId (SnapshotBytes.snapshotBytes snapshot))
    "Codex durable goal status" hint).toOption
  return annotated snapshot event

end Goal

namespace CodexRolloutBinding

def toJson (binding : CodexRolloutBinding) : Json :=
  .object [("device",.number binding.device),("inode",.number binding.inode),
    ("mtime_secs",.number binding.mtimeSecs),("size",.number binding.size)]

/-- `serde_json::from_value`: every field is needed and no other is allowed. -/
def ofJson : Json → Option CodexRolloutBinding
  | .object fields =>
    if fields.all fun field => ["device","inode","size","mtime_secs"].contains field.1 then do
      let device ← (fields.lookup "device").bind Json.asU64
      let inode ← (fields.lookup "inode").bind Json.asU64
      let size ← (fields.lookup "size").bind Json.asU64
      let mtimeSecs ← (fields.lookup "mtime_secs").bind Json.asI64
      return ⟨device,inode,size,mtimeSecs⟩
    else none
  | _ => none

end CodexRolloutBinding

/-- What the machine answers while Codex state is probed: the state read from the bound
databases, whether the process still runs in the directory, the canonical path of an
owner-only file below it, the identity of a file, its text if it is UTF-8, and the time. -/
structure CodexHost where
  boundState : Option CodexGoalSnapshot
  processCwdMatches : Bool
  ownerOnlyBoundRegular : String → Option String
  bindRollout : String → Option CodexRolloutBinding
  readToString : String → Option String
  systemTime : Int

def maxRolloutBytes : Nat := 1048576

def records (text : String) : List String :=
  (text.toList.splitOn '\n').map (fun line => trim (.ofList line)) |>.filter (· ≠ "")

/-- The last snapshot of the thread; a record that does not parse discards the log. -/
def lastSnapshot [Texts] (threadId : String) : List String → Option CodexGoalSnapshot →
    Option CodexGoalSnapshot
  | [], matched => matched
  | line :: lines, matched =>
    match Texts.fromStr line with
    | none => none
    | some value =>
      match normalizeStructuredSource value .structuredLog with
      | some snapshot =>
        lastSnapshot threadId lines (if snapshot.threadId = threadId then some snapshot else matched)
      | none => lastSnapshot threadId lines matched

def sameRollout (watcher : WatcherState) (path : String) (binding : CodexRolloutBinding) : Bool :=
  match watcher.lastObservation with
  | none => true
  | some previous =>
    if previous.metadataStr "codex_rollout_path" = some path then
      (previous.metadata["codex_rollout_binding"]?.bind CodexRolloutBinding.ofJson) == some binding
    else true

section Rollout
variable [Texts] [Digest] [SnapshotBytes]

def correlatedRolloutEvent (host : CodexHost) (watcher : WatcherState) (path threadId : String) :
    Option Event := do
  guard (threadId ≠ "")
  let binding ← host.bindRollout path
  guard (sameRollout watcher path binding)
  let text ← host.readToString path
  guard (text.utf8ByteSize ≤ maxRolloutBytes)
  guard (text = "" ∨ text.toList.getLast? = some '\n')
  let snapshot ← lastSnapshot threadId (records text) none
  let event ← structuredGoalEvent watcher snapshot .structuredLog host.systemTime
  return withMetadata (withMetadata event "codex_rollout_path" (.string path))
    "codex_rollout_binding" binding.toJson

end Rollout

inductive ProbedCodexSource where
  | localState (snapshot : CodexGoalSnapshot)
  | appServer (snapshot : CodexGoalSnapshot) (path : String)
  | rollout (path threadId : String)

def appServerSnapshot [Texts] (host : CodexHost) (reference : CodexSessionReference) :
    Option (CodexGoalSnapshot × String) := do
  let path ← reference.appServerStatePath
  let _ ← host.ownerOnlyBoundRegular path
  let text ← host.readToString path
  guard (text.utf8ByteSize ≤ maxRolloutBytes)
  let value ← Texts.fromStr text
  let snapshot ← normalizeStructuredSource value .typedApi
  guard (snapshot.threadId = reference.threadId)
  return (snapshot,path)

def boundRollout (host : CodexHost) (reference : CodexSessionReference) : Option String := do
  let binding ← reference.rolloutBinding
  let path ← host.ownerOnlyBoundRegular reference.rolloutPath
  guard (host.bindRollout path = some binding)
  return path

def probeStructuredSource [Texts] (host : CodexHost) (watcher : WatcherState) :
    Option ProbedCodexSource :=
  match host.boundState with
  | some snapshot => some (.localState snapshot)
  | none => do
    let reference ← watcher.codexSession
    guard (watcher.target.processOf.startTime = reference.processStartTime)
    guard (watcher.target.session = reference.targetSession)
    guard (host.processCwdMatches = true)
    match appServerSnapshot host reference with
    | some (snapshot,path) => return .appServer snapshot path
    | none =>
      let path ← boundRollout host reference
      return .rollout path reference.threadId

def capacityWaited (previous : Event) : Bool :=
  previous.source.sourceId == "codex" && previous.category == .capacityBlock
    && previous.policyHint == .waitAllowed
    && previous.metadata["codex_capacity_block"]? == some (.bool true)
    && (previous.metadataStr "goal_state" == some "blocked"
      || previous.metadataStr "goal_state" == some "paused")

def isWaiting : WatcherLifecycle → Bool
  | .waiting _ _ => true
  | _ => false

section Observe
variable [Texts] [Digest] [SnapshotBytes]

omit [SnapshotBytes] in
/-- The resume candidate that follows a capacity event. The deadline of the wait is not among
the things it looks at. -/
def resumeCandidate (watcherId : String) (previous : Event) (now : Int) : Event :=
  let fingerprint := evidenceFingerprint "codex_resume" previous.evidenceFingerprint
    (utf8Bytes (Texts.toRfc3339 now))
  let event := { previous with
    eventId := "codex-resume-" ++ watcherId
    observedAt := Texts.toRfc3339 now
    category := .waitingForModel
    terminal := false
    policyHint := .deterministicActionAllowed
    evidenceFingerprint := fingerprint
    summary := "Codex capacity backoff elapsed; goal resume revalidation candidate" }
  withMetadata (withMetadata event "codex_resume" (.bool true)) "codex_resume_session"
    (.string fingerprint)

def codexResumeCandidateEvent (watcher : WatcherState) (now : Int) : Option Event := do
  guard (isWaiting watcher.lifecycle)
  let previous ← watcher.lastObservation
  guard (capacityWaited previous)
  return resumeCandidate watcher.watcherId previous now

def probedEvent (host : CodexHost) (watcher : WatcherState) : ProbedCodexSource → Option Event
  | .localState snapshot | .appServer snapshot _ =>
    structuredGoalEvent watcher snapshot .typedApi host.systemTime
  | .rollout path threadId => correlatedRolloutEvent host watcher path threadId

/-- What a probed source makes of a resume candidate; `none` when it decides nothing. -/
def revalidated (host : CodexHost) (watcher : WatcherState) (candidate : Event) :
    ProbedCodexSource → Option (Option Event)
  | .localState snapshot | .appServer snapshot _ =>
    if snapshot.classify = .waitThenGoalResume then some (some candidate)
    else some (structuredGoalEvent watcher snapshot .typedApi host.systemTime)
  | .rollout path threadId =>
    (correlatedRolloutEvent host watcher path threadId).map fun event =>
      some (if event.category = .capacityBlock then candidate else event)

/-- A resume candidate is revalidated against the first probe, and a source that says nothing
is probed once more. -/
def observeCodexEvent (host again : CodexHost) (watcher : WatcherState) (now : Int) :
    Option Event :=
  let probed := (probeStructuredSource again watcher).bind (probedEvent again watcher)
  match codexResumeCandidateEvent watcher now with
  | none => probed
  | some candidate =>
    match probeStructuredSource host watcher with
    | none => some candidate
    | some source => (revalidated host watcher candidate source).getD probed

end Observe

section Events
variable [Texts] [Digest] [SnapshotBytes] {host : CodexHost} {watcher : WatcherState}
  {snapshot : CodexGoalSnapshot} {kind : SourceKind} {observed : Int} {event : Event}

def goalEvent (watcher : WatcherState) (snapshot : CodexGoalSnapshot) (kind : SourceKind)
    (observed : Int) (report : EventCategory × PolicyHint × Bool) : Event where
  schemaVersion := eventSchemaVersion
  eventId := "codex-goal-" ++ watcher.watcherId
  observedAt := Texts.toRfc3339 observed
  monotonicSequence := none
  watcherId := watcher.watcherId
  targetIdentityHash := targetIdentityHash watcher.target
  agentId := none
  sessionId := none
  providerFamily := none
  source := .new kind "codex" "goal_status"
  category := report.1
  confidence := if kind = .typedApi then 1 else 9 / 10
  terminal := report.2.2
  evidenceFingerprint :=
    evidenceFingerprint "codex_goal" snapshot.threadId (SnapshotBytes.snapshotBytes snapshot)
  summary := "Codex durable goal status"
  redactedEvidence := none
  reset := none
  policyHint := report.2.1
  supersedesEventId := none
  metadata := ∅

end Events

end WatchMe
