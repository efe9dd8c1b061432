import WatchMe.Hooks.Claude
import WatchMe.Recovery.ResetTime

/-! # The hook event of a Claude session

`correlated_hook_event` turns the newest marker of the session into an event. Its fingerprint is
made of the error type, the session and the transcript; what the message says only decides the
category and the reset.
-/
namespace WatchMe
open Text

inductive ClaudeClass where
  | usageLimit
  | sessionLimit
  | weeklyLimit
  | terminalOverload
  | nativeRetry
  | humanRequired
  | unknown
  deriving DecidableEq, Repr

def containsAny (text : List Char) (needles : List String) : Bool :=
  needles.any fun needle => occurs needle text

def classifyStopFailure (errorType detail : String) (nativeRetry : Bool) : ClaudeClass :=
  let error := lowered errorType
  let text := lowered detail
  if nativeRetry || occurs "retrying" text then .nativeRetry
  else if containsAny error ["auth","billing","credit","invalid","safety","model_not_found",
        "not_found"]
      || containsAny text ["sign in","login","billing","add funds","credit","upgrade",
        "invalid request","safety","model unavailable"] then .humanRequired
  else if containsAny text ["weekly usage limit","weekly limit"] then .weeklyLimit
  else if containsAny text ["session limit"] then .sessionLimit
  else if containsAny error ["rate_limit"]
      || containsAny text ["usage limit","limit to reset","resets in"] then .usageLimit
  else if containsAny error ["overloaded","server_error"]
      || containsAny text ["api error: 529","overloaded","service capacity","api error: 500",
        "api error: 502","api error: 503","api error: 504"] then .terminalOverload
  else .unknown

/-- How a class is reported, if at all; every report is terminal. -/
def ClaudeClass.report : ClaudeClass → Option (EventCategory × PolicyHint)
  | usageLimit => some (.usageLimit,.waitAllowed)
  | sessionLimit => some (.sessionLimit,.waitAllowed)
  | weeklyLimit => some (.weeklyLimit,.waitAllowed)
  | terminalOverload => some (.transientOverload,.waitAllowed)
  | nativeRetry => none
  | humanRequired => some (.terminalFailure,.humanRequired)
  | unknown => none

theorem ClaudeClass.report_limit {c : ClaudeClass} {report : EventCategory × PolicyHint}
    (h : c.report = some report) (hlimit : isLimit report.1 = true) :
    report.2 = .waitAllowed := by
  cases c <;> cases h <;> first | rfl | cases hlimit

section Reset
variable [Zones]

def withReset (event : Event) : Option ResetTime → Event
  | none => event
  | some reset =>
    let stamp := Zones.offsetRfc3339 reset.resetAt
    let event := withMetadata event "claude_reset_at" (.string stamp)
    let event := { event with
      reset := some
        { sourceText := "Claude StopFailure reset"
          parsedAt := stamp
          timezone := some reset.timezone
          confidence := reset.confidenceMilli / 1000
          marginSeconds := some reset.marginSeconds } }
    withMetadata event "claude_resume_margin_seconds" (.number reset.marginSeconds)

theorem withReset_frame (event : Event) (reset : Option ResetTime) :
    (withReset event reset).source = event.source ∧
      (withReset event reset).category = event.category ∧
      (withReset event reset).policyHint = event.policyHint ∧
      (withReset event reset).evidenceFingerprint = event.evidenceFingerprint := by
  cases reset with
  | none => exact ⟨rfl,rfl,rfl,rfl⟩
  | some => exact ⟨rfl,rfl,rfl,rfl⟩

theorem withReset_stamp {e : Event} (hempty : e.metadata = ∅) (reset : Option ResetTime) :
    (withReset e reset).metadataStr "claude_reset_at" =
      reset.map fun reset => Zones.offsetRfc3339 reset.resetAt := by
  cases reset with
  | none => simp [withReset,Event.metadataStr,hempty]
  | some =>
    simp only [withReset,withMetadata,Event.metadataStr,StrMap.getElem?_insert,if_true]
    rw [if_neg (by decide)]
    rfl

theorem withReset_margin (event : Event) {reset : ResetTime} (hmargin : reset.marginSeconds = 60) :
    resumeMargin (withReset event (some reset)) = 60 := by
  have hnumber : (Json.number (60 : Nat)).asU64 = some 60 := by decide
  simp only [resumeMargin,withReset,withMetadata,StrMap.getElem?_insert,hmargin,if_true,
    Option.bind_some,hnumber]
  rfl

theorem waitForReset_withReset {e : Event} (hempty : e.metadata = ∅) {reset : ResetTime}
    (hmargin : reset.marginSeconds = 60)
    (hstamp : Chrono.parseFromRfc3339 (Zones.offsetRfc3339 reset.resetAt) =
      some reset.resetAt.nanos) :
    ClaudeRecipes.waitForReset (withReset e (some reset)) =
      some (waitAction "claude.wait_for_reset"
        (.waitUntil (OffsetTexts.toRfc3339At (Zones.offsetRfc3339 reset.resetAt)
          (reset.resetAt.nanos + reset.marginSeconds * nanosPerSec)))
        "correlated Claude reset time" (withReset e (some reset))) := by
  have htext := withReset_stamp hempty (some reset)
  have hseconds : toI64 (((withReset e (some reset)).reset.bind (·.marginSeconds)).getD 30) =
      some 60 := by
    simp only [withReset,withMetadata,Option.bind_some,Option.getD_some,hmargin]
    rfl
  simp only [ClaudeRecipes.waitForReset,htext,Option.map_some,hstamp,hseconds,hmargin,
    Option.bind_eq_bind,Option.bind_some,Option.pure_def]
  rfl

end Reset

section Event
variable [Zones] [Digest]

/-- The newest marker of the session that the watcher is bound to, if the process, the directory,
the pane and the transcript are those of the registration. -/
def trustedMarker (host : HookHost) (watcher : WatcherState) : Option HookMarker := do
  let reference ← watcher.claudeSession
  let binding ← reference.transcriptBinding
  let process := watcher.target.processOf
  guard (process.startTime = reference.processStartTime)
  guard (processCwdMatches host process.pid reference.processCwd)
  guard (watcher.target.session = reference.targetSession)
  guard (transcriptMatchesBinding host reference.transcriptPath reference.transcriptPath binding)
  let markers ← (readMarkers (host.markerFile reference.markerPath)).toOption
  correlateMarker markers reference.sessionId reference.transcriptPath

def markerFingerprint (marker : HookMarker) : String :=
  evidenceFingerprint "claude_stop_failure" marker.errorType
    (utf8Bytes (marker.sessionId ++ ":" ++ marker.transcriptPath))

def correlatedHookEvent (host : HookHost) (watcher : WatcherState) (observed : Int) :
    Option Event := do
  let marker ← trustedMarker host watcher
  let (category,hint) ← (classifyStopFailure marker.errorType marker.detail false).report
  let event ← (Event.new ("claude-hook-" ++ watcher.watcherId) (Texts.toRfc3339 observed)
    watcher.watcherId (targetIdentityHash watcher.target)
    (.new .hook "claude_stop_failure" "StopFailure") category 1 true (markerFingerprint marker)
    "correlated Claude StopFailure" hint).toOption
  return withReset { event with sessionId := watcher.claudeSession.map (·.sessionId) }
    (parseReset marker.detail ⟨observed,0⟩)

variable {host : HookHost} {watcher : WatcherState} {marker : HookMarker} {observed : Int}

def stopFailureEvent (watcher : WatcherState) (marker : HookMarker) (observed : Int)
    (report : EventCategory × PolicyHint) : Event where
  schemaVersion := eventSchemaVersion
  eventId := "claude-hook-" ++ watcher.watcherId
  observedAt := Texts.toRfc3339 observed
  monotonicSequence := none
  watcherId := watcher.watcherId
  targetIdentityHash := targetIdentityHash watcher.target
  agentId := none
  sessionId := watcher.claudeSession.map (·.sessionId)
  providerFamily := none
  source := .new .hook "claude_stop_failure" "StopFailure"
  category := report.1
  confidence := 1
  terminal := true
  evidenceFingerprint := markerFingerprint marker
  summary := "correlated Claude StopFailure"
  redactedEvidence := none
  reset := none
  policyHint := report.2
  supersedesEventId := none
  metadata := ∅

/-- The identifiers and the time that an event of the watcher is built from are well formed. -/
def WellNamed (watcher : WatcherState) (observed : Int) : Prop :=
  validId ("claude-hook-" ++ watcher.watcherId) = true ∧ validId watcher.watcherId = true ∧
    (Chrono.parseFromRfc3339 (Texts.toRfc3339 observed)).isSome = true

theorem stopFailureEvent_checked {report : EventCategory × PolicyHint} {checked : Event} :
    (Event.new ("claude-hook-" ++ watcher.watcherId) (Texts.toRfc3339 observed)
      watcher.watcherId (targetIdentityHash watcher.target)
      (.new .hook "claude_stop_failure" "StopFailure") report.1 1 true (markerFingerprint marker)
      "correlated Claude StopFailure" report.2).toOption = some checked ↔
    WellNamed watcher observed ∧
      checked = { stopFailureEvent watcher marker observed report with sessionId := none } := by
  have hconfidence : inUnit 1 = true := by decide
  have hvalid : ({ stopFailureEvent watcher marker observed report with
      sessionId := none } : Event).validate = .ok () ↔ WellNamed watcher observed := by
    simp only [Event.validate,check_ok_iff,refuseIf_ok_iff,Event.boundsViolated,stopFailureEvent,
      hconfidence,targetIdentityHash,markerFingerprint,evidenceFingerprint,
      Digest.sha256Hex_valid,EventSource.new,longerThan,WellNamed]
    simp +decide
  rw [toOption_eq_some,← hvalid,Event.new,check_ok_iff]
  refine and_congr_right fun _ => ?_
  rw [pure,Applicative.toPure]
  exact ⟨fun h => (Except.ok.inj h).symm,fun h => congrArg Except.ok h.symm⟩

theorem correlatedHookEvent_eq_some {event : Event} :
    correlatedHookEvent host watcher observed = some event ↔ ∃ marker report,
      trustedMarker host watcher = some marker ∧
      (classifyStopFailure marker.errorType marker.detail false).report = some report ∧
      WellNamed watcher observed ∧
      event = withReset (stopFailureEvent watcher marker observed report)
        (parseReset marker.detail ⟨observed,0⟩) := by
  simp only [correlatedHookEvent,Option.bind_eq_bind,Option.bind_eq_some_iff,
    stopFailureEvent_checked,Option.pure_def,Option.some.injEq]
  constructor
  · rintro ⟨marker,htrusted,report,hreport,checked,⟨hnamed,rfl⟩,rfl⟩
    exact ⟨marker,report,htrusted,hreport,hnamed,rfl⟩
  · rintro ⟨marker,report,htrusted,hreport,hnamed,rfl⟩
    exact ⟨marker,htrusted,report,hreport,_,⟨hnamed,rfl⟩,rfl⟩

end Event

end WatchMe
