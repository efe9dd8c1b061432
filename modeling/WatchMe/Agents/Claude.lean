import WatchMe.Agents.Codex
import WatchMe.Model.Action

/-! # The Claude adapter

The resume candidate that follows a limit once its reset has passed. Unlike its Codex
counterpart it looks at the clock.
-/
namespace WatchMe

def isLimit : EventCategory → Bool
  | .usageLimit | .sessionLimit | .weeklyLimit => true
  | _ => false

def isStopFailure (event : Event) : Bool :=
  event.source.kind == .hook && event.source.sourceId == "claude_stop_failure"

def resumeMargin (event : Event) : Nat :=
  ((event.metadata["claude_resume_margin_seconds"]?.bind Json.asU64).orElse fun _ =>
    event.reset.bind (·.marginSeconds)).getD 30

def toI64 (n : Nat) : Option Int := if n < 2 ^ 63 then some n else none

def nanosPerSec : Int := 1000000000

section Resume
variable [Texts] [Digest]

def claudeResumeCandidateEvent (watcher : WatcherState) (now : Int) : Option Event := do
  guard (isWaiting watcher.lifecycle)
  let previous ← watcher.lastObservation
  guard (isStopFailure previous && isLimit previous.category)
  let reset ← (previous.metadataStr "claude_reset_at").bind Chrono.parseFromRfc3339
  let margin ← toI64 (resumeMargin previous)
  guard (reset + margin * nanosPerSec ≤ now)
  let fingerprint := evidenceFingerprint "claude_resume" previous.evidenceFingerprint
    (utf8Bytes (Texts.toRfc3339 reset))
  let event := { previous with
    eventId := "claude-resume-" ++ watcher.watcherId
    observedAt := Texts.toRfc3339 now
    category := .waitingForModel
    terminal := false
    policyHint := .deterministicActionAllowed
    evidenceFingerprint := fingerprint
    summary := "Claude reset elapsed; resume revalidation candidate" }
  let event := withMetadata event "claude_resume" (.bool true)
  let event := withMetadata event "claude_resume_session" (.string fingerprint)
  return withMetadata event "agent_state" (.string "WORKING")

theorem claudeResumeCandidateEvent_isSome {watcher : WatcherState} {now : Int} :
    (claudeResumeCandidateEvent watcher now).isSome = true ↔
      isWaiting watcher.lifecycle = true ∧ ∃ previous, watcher.lastObservation = some previous ∧
        (isStopFailure previous && isLimit previous.category) = true ∧
        ∃ reset, (previous.metadataStr "claude_reset_at").bind Chrono.parseFromRfc3339 = some reset ∧
          ∃ margin, toI64 (resumeMargin previous) = some margin ∧
            reset + margin * nanosPerSec ≤ now := by
  simp only [claudeResumeCandidateEvent,Option.isSome_bind,Option.bind_eq_bind,Option.isSome_some,
    Option.any_eq_true,guard_eq_some,Option.pure_def,Bool.and_eq_true,and_true,exists_const]

theorem claudeResumeCandidateEvent_category {watcher : WatcherState} {now : Int} {event : Event}
    (h : claudeResumeCandidateEvent watcher now = some event) :
    event.category = .waitingForModel := by
  simp only [claudeResumeCandidateEvent,Option.bind_eq_bind,Option.bind_eq_some_iff,
    Option.pure_def,Option.some.injEq] at h
  obtain ⟨_,_,previous,_,_,_,reset,_,margin,_,_,_,rfl⟩ := h
  rfl

end Resume

end WatchMe
