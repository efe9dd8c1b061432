import WatchMe.Daemon.Persistence
import WatchMe.Daemon.ServiceCalls
import WatchMe.Recovery.Schedules

/-! # Schedules of the tasks

A host for the tasks of the daemon: a registry and a ledger that work, beside clocks, evidence and
an observer that are given. Concrete schedules start from a registry that holds one watcher.
-/
namespace WatchMe
open Effects Program Transaction Service

namespace Registry
variable {w : WatcherState}

def only (w : WatcherState) : StrMap WatcherState :=
  (∅ : StrMap WatcherState).insert w.watcherId w

def single (w : WatcherState) : Registry := ⟨only w,some (encoded (only w))⟩

theorem only_eq_some {v : WatcherState} {id : String} :
    (only w)[id]? = some v ↔ w.watcherId = id ∧ w = v := by
  rw [only,StrMap.getElem?_insert]
  by_cases h : w.watcherId = id
  · simp [h]
  · simp [h]

theorem single_get (w : WatcherState) : (single w).get w.watcherId = some w :=
  only_eq_some.2 ⟨rfl,rfl⟩

theorem single_keyed (w : WatcherState) : (single w).Keyed := by
  intro id v hv
  obtain ⟨hid,rfl⟩ := only_eq_some.1 hv
  exact hid

theorem single_has {φ : WatcherState → Prop} (h : φ w) : (single w).Has w.watcherId φ :=
  ⟨single_keyed w,⟨w,single_get w,h⟩,only w,rfl,single_keyed w,w,single_get w,h⟩

end Registry

deriving instance DecidableEq for Request, Response, ServiceOp, ServiceState, ServiceCall

/-- What the tasks learn from outside the registry and the ledger. -/
structure Around extends Outside where
  now : Nat
  clock : ClockSnapshot
  seen : Int
  observer : ObserverHost

section Host
variable [Texts] [Digest] [SnapshotBytes] [JsonText]

def Around.daemon (o : Around) : Host daemonWorld := daemonHost o.clock o.now o.output

def Around.answer (o : Around) (s : ServiceState) : (op : ServiceOp) → op.Answer × ServiceState
  | .daemon op => ((o.daemon.answer s.registry op).1,⟨(o.daemon.answer s.registry op).2,s.store⟩)
  | .ledger op => ((o.host.answer s.store op).1,⟨s.registry,(o.host.answer s.store op).2⟩)
  | .executed _ _ | .sleepUntilMono _ => ((),s)
  | .wallNowMs => (o.now,s)
  | .monoNowMs => (o.mono,s)
  | .list => (s.registry.list,s)
  | .observe watcher => ((o.seen,GenericObserver.observe o.observer watcher o.seen),s)
  | .commit id schedule event =>
    let (result,R) := s.registry.commitObservation id schedule event o.now .stored
    (committedWatcher result R id,⟨R,s.store⟩)
  | .handle request =>
    let (answer,R) := s.registry.serve (fun _ => (o.now,.stored)) request
    (answer,⟨R,s.store⟩)
  | .monitor => (fun _ => .alive,
    ⟨s.registry.monitorProcessLifecycles (fun _ => (o.now,.stored)) o.now fun _ => .alive,s.store⟩)
  | .jobTimedOut _ => (false,s)

def Around.serviceHost (o : Around) : Host (serviceWorld genericObserves) where
  answer := o.answer
  answers s op _ := by
    cases op with
    | daemon op => exact ⟨o.daemon.answers s.registry op rfl,rfl⟩
    | ledger op => exact ⟨o.host.answers s.store op rfl,rfl⟩
    | list => exact ⟨rfl,rfl⟩
    | observe => exact ⟨rfl,.inr ⟨_,rfl⟩⟩
    | commit => exact ⟨rfl,_,_,_,rfl,rfl⟩
    | handle => exact ⟨rfl,_,rfl⟩
    | monitor => exact ⟨rfl,_,_,rfl⟩
    | _ => rfl

end Host
/-- Neither a request of a user nor a round of the monitor. -/
def unasked : Label serviceSig ServiceCall → Bool
  | .act _ ⟨.handle _,_⟩ | .act _ ⟨.monitor,_⟩ => false
  | _ => true

/-! ### A Claude pane at its limit

The inputs of the schedules of the daemon: the hook of a Claude session has reported a limit
that resets after 140 seconds. The watcher is one of an older file, so that it has a machine. -/
namespace Sample

def stamps : List (String × Int) :=
  [("2026-01-01T00:00:00+00:00",0),("2026-01-01T00:01:10+00:00",70),
    ("2026-01-01T00:02:20+00:00",140),("2026-01-01T00:03:20+00:00",200),
    ("2026-01-01T00:03:30+00:00",210),("2026-01-01T00:04:30+00:00",270)]

def startMs : Nat := 1767225600000

def instant (seconds : Int) : Int := startMs * 1000000 + seconds * nanosPerSec

def stampAt (nanos : Int) : String :=
  ((stamps.find? fun stamp => instant stamp.2 == nanos).map (·.1)).getD ""

@[reducible] def clocks : OffsetTexts where
  parseFromRfc3339 text := (stamps.lookup text).map instant
  fromStr _ := none
  toRfc3339 := stampAt
  toRfc3339At _ := stampAt

def claudeWatcher : WatcherState :=
  { migrated with
    claudeSession := some ⟨"session-1","/work/transcript.jsonl","/work/markers.jsonl",1,"/work",
      none,some ⟨"/work/transcript.jsonl",1,2⟩⟩ }

def limit (fingerprint : String) (category : EventCategory) (observedAt reset : String) : Event :=
  { event fingerprint category with
    eventId := "claude-hook-watcher-1"
    observedAt
    sessionId := some "session-1"
    source := .new .hook "claude_stop_failure" "StopFailure"
    terminal := true
    summary := "correlated Claude StopFailure"
    reset := some ⟨"Claude StopFailure reset",reset,some "+00:00",49 / 50,some 60⟩
    policyHint := .waitAllowed
    metadata := ((∅ : StrMap Json).insert "claude_reset_at" (.string reset)).insert
      "claude_resume_margin_seconds" (.number 60) }

def noManifests : ManifestRecipes := ⟨fun _ => none,fun _ _ h => by cases h⟩

def owner : OwnerIdentity := ⟨7,1,"nonce"⟩

def claudeRestored : WatcherState := Registry.afterRestart claudeWatcher

def firstLimit : Event :=
  limit fingerprint .usageLimit "2026-01-01T00:00:00+00:00" "2026-01-01T00:02:20+00:00"

def observedAs (w : WatcherState) (event : Event) (now : Nat) : WatcherState :=
  Registry.committed w (recordResult (nextSchedule w now) ⟨some event,none⟩) event now

def claudeLimited : WatcherState := observedAs claudeRestored firstLimit startMs

def hookHost (event : Event) : ObserverHost :=
  ⟨none,some event,rolloutHost,rolloutHost,.ok ⟨none,none⟩⟩

abbrev daemon : Machine serviceSig ServiceCall Unit :=
  let _ := clocks
  let _ := render
  let _ := digest
  serviceMachine (CompositeRecipes.actionFor noManifests) owner

abbrev world : World serviceSig ServiceState :=
  let _ := clocks
  let _ := digest
  let _ := snapshotBytes
  let _ := jsonText
  serviceWorld genericObserves

def limitEvidence (event : Event) (hfp : validHash event.evidenceFingerprint = true) :
    LiveEvidence where
  identity := "pane-1"
  targetRevalidated := true
  processAlive := true
  paneMatches := true
  evidenceCurrent := true
  composerSafe := true
  humanIntervened := false
  event
  fingerprint_valid := hfp

def firstEvidence : LiveEvidence := limitEvidence firstLimit (by decide)

/-- The hook reports the event of the evidence that a job reads. -/
def around (seconds mono : Nat) (live : LiveEvidence) : Around where
  live
  after := live
  wall := stampAt (instant seconds)
  mono
  output := .ok (.scheduled 0)
  owned := true
  now := startMs + seconds * 1000
  clock := ⟨mono / 1000,mono / 1000⟩
  seen := instant seconds
  observer := hookHost live.event

def host (o : Around) : Host world :=
  let _ := clocks
  let _ := digest
  let _ := snapshotBytes
  let _ := jsonText
  o.serviceHost

def acts (i steps : Nat) (o : Around) : List (Move world ServiceCall) :=
  List.replicate steps (.act i (host o))

def opened (w : WatcherState) : Pool daemon ServiceState := ⟨⟨.single w,.fresh⟩,[]⟩

end Sample

end WatchMe
