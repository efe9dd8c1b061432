import WatchMe.Agents.ClaudeHook
import WatchMe.Daemon.Persistence

/-! # The limits of a Claude session

While a watcher waits for a reset, every observation builds the hook event anew from the same
marker, with the reset that its message means at that time, and the commit puts it in the place
of the one that was waited for. So the wait ends as scheduled only if the message still means the
same instant whenever it is read.
-/
namespace WatchMe
open Registry

section Rounds
variable [Zones] [Digest] [SnapshotBytes]

def resetOf (detail : String) (observed : Int) : Option Int :=
  (parseReset detail ⟨observed,0⟩).map (·.resetAt.nanos)

omit [Digest] [SnapshotBytes] in
/-- The stamps of the time, and of the reset that is read at that time, can be read back. -/
def Legible (detail : String) (observed : Int) : Prop :=
  (Chrono.parseFromRfc3339 (Texts.toRfc3339 observed)).isSome = true ∧
    ∀ reset, parseReset detail ⟨observed,0⟩ = some reset →
      Chrono.parseFromRfc3339 (Zones.offsetRfc3339 reset.resetAt) = some reset.resetAt.nanos

/-- The clocks of an observation, when it starts and when a hook event is built to check a resume
and to be reported, what else the machine would answer, and the schedule and the time of the
commit. -/
structure Round where
  now : Int
  resumeCheckedAt : Int
  hookedAt : Int
  codex : CodexHost
  codexAgain : CodexHost
  target : Except String ObservationResult
  schedule : ObservationSchedule
  committedMs : Nat

namespace Round

def observe (files : HookHost) (round : Round) (w : WatcherState) :
    Except String ObservationResult :=
  GenericObserver.observe ⟨correlatedHookEvent files w round.resumeCheckedAt,
    correlatedHookEvent files w round.hookedAt,round.codex,round.codexAgain,round.target⟩ w
    round.now

def Resumes (files : HookHost) (round : Round) (w : WatcherState) : Prop :=
  ∃ event, claudeResumeCandidateEvent w round.now = some event ∧
    round.observe files w = .ok ⟨some event,none⟩

def Legible (detail : String) (round : Round) : Prop :=
  (Chrono.parseFromRfc3339 (Texts.toRfc3339 round.resumeCheckedAt)).isSome = true ∧
    WatchMe.Legible detail round.hookedAt

end Round

structure Undisturbed (w v : WatcherState) : Prop where
  watcherId : v.watcherId = w.watcherId
  target : v.target = w.target
  claudeSession : v.claudeSession = w.claudeSession
  lastObservation : v.lastObservation = w.lastObservation
  waiting : isWaiting v.lifecycle = true

/-- Rounds of observation and commit, while the files stay as they are and the watcher waits. -/
inductive Rounds [JsonText] (files : HookHost) (id : String) (w : WatcherState) :
    List Round → WatcherState → Prop
  | start : Rounds files id w [] w
  | undisturbed {rounds : List Round} {v v' : WatcherState} :
      Rounds files id w rounds v → Undisturbed v v' → Rounds files id w rounds v'
  | round {rounds : List Round} {v v' : WatcherState} {round : Round} {R R' : Registry}
      {result : ObservationResult} {host : WriteOutcome} :
      Rounds files id w rounds v → R.get id = some v → round.observe files v = .ok result →
      R.commitObservation id round.schedule result.event round.committedMs host = (.ok (),R') →
      R'.get id = some v' → isWaiting v'.lifecycle = true →
      Rounds files id w (rounds ++ [round]) v'

/-- The reset in the last observation after a round, if it is an event of the hook that has one:
a resume candidate that was committed has none. -/
def nextHeld (detail : String) (held : Option Int) (round : Round) : Option Int :=
  if held.any fun reset => decide (reset + 60 * nanosPerSec ≤ round.now) then none
  else resetOf detail round.hookedAt

def heldAfter (detail : String) (reset : Int) (rounds : List Round) : Option Int :=
  rounds.foldl (nextHeld detail) (some reset)

variable {files : HookHost} {w v v' : WatcherState} {marker : HookMarker} {detail : String}

omit [SnapshotBytes] in
theorem candidate_of_limit {observed : Int} {report : EventCategory × PolicyHint}
    (hwaiting : isWaiting v.lifecycle = true) (hlimit : isLimit report.1 = true)
    (hlegible : Legible marker.detail observed)
    (hlast : v.lastObservation = some (withReset (stopFailureEvent w marker observed report)
      (parseReset marker.detail ⟨observed,0⟩))) (now : Int) :
    (claudeResumeCandidateEvent v now).isSome =
      (resetOf marker.detail observed).any fun reset =>
        decide (reset + 60 * nanosPerSec ≤ now) := by
  have hframe := withReset_frame (stopFailureEvent w marker observed report)
    (parseReset marker.detail ⟨observed,0⟩)
  have hstop : (isStopFailure (withReset (stopFailureEvent w marker observed report)
      (parseReset marker.detail ⟨observed,0⟩)) && isLimit (withReset (stopFailureEvent w marker
        observed report) (parseReset marker.detail ⟨observed,0⟩)).category) = true := by
    rw [isStopFailure,hframe.1,hframe.2.1]
    exact hlimit
  have hstamp := withReset_stamp (e := stopFailureEvent w marker observed report) rfl
    (parseReset marker.detail ⟨observed,0⟩)
  rw [Bool.eq_iff_iff,claudeResumeCandidateEvent_isSome]
  simp only [hwaiting,hlast,Option.some.injEq,exists_eq_left',hstop,hstamp,true_and,resetOf]
  cases hreset : parseReset marker.detail ⟨observed,0⟩ with
  | none => simp
  | some reset =>
    have hmargin : toI64 (resumeMargin (withReset (stopFailureEvent w marker observed report)
        (some reset))) = some 60 := by
      rw [withReset_margin _ (parseReset_future hreset).2]
      rfl
    simp [hlegible.2 reset hreset,hmargin]

/-- The watcher after rounds of a session, as far as observations depend on it. -/
structure Holds (w v : WatcherState) (held : Option Int) : Prop where
  watcherId : v.watcherId = w.watcherId
  target : v.target = w.target
  claudeSession : v.claudeSession = w.claudeSession
  waiting : isWaiting v.lifecycle = true
  candidate : ∀ now, (claudeResumeCandidateEvent v now).isSome =
    held.any fun reset => decide (reset + 60 * nanosPerSec ≤ now)

structure Limited (files : HookHost) (w : WatcherState) (marker : HookMarker)
    (report : EventCategory × PolicyHint) : Prop where
  trusted : trustedMarker files w = some marker
  reported : (classifyStopFailure marker.errorType marker.detail false).report = some report
  limit : isLimit report.1 = true
  eventId : validId ("claude-hook-" ++ w.watcherId) = true
  watcherId : validId w.watcherId = true

variable {report : EventCategory × PolicyHint} {held : Option Int} {round : Round}

omit [SnapshotBytes] in
theorem Limited.hook (hlimited : Limited files w marker report) (hholds : Holds w v held)
    {observed : Int}
    (hstamp : (Chrono.parseFromRfc3339 (Texts.toRfc3339 observed)).isSome = true) :
    correlatedHookEvent files v observed = some (withReset
      (stopFailureEvent v marker observed report) (parseReset marker.detail ⟨observed,0⟩)) := by
  refine correlatedHookEvent_eq_some.2 ⟨marker,report,?_,hlimited.reported,?_,rfl⟩
  · rw [trustedMarker,hholds.claudeSession,hholds.target]
    exact hlimited.trusted
  · rw [WellNamed,hholds.watcherId]
    exact ⟨hlimited.eventId,hlimited.watcherId,hstamp⟩

theorem Limited.observe (hlimited : Limited files w marker report) (hholds : Holds w v held)
    (hlegible : round.Legible marker.detail) :
    round.observe files v = .ok ⟨if (claudeResumeCandidateEvent v round.now).isSome then
      claudeResumeCandidateEvent v round.now else correlatedHookEvent files v round.hookedAt,
      none⟩ := by
  have hcheck := hlimited.hook hholds hlegible.1
  have hhook := hlimited.hook hholds hlegible.2.1
  simp only [Round.observe,GenericObserver.observe,hcheck,hhook,Option.isSome_some,Bool.and_true,
    if_true]
  split
  · rfl
  · rfl

theorem Limited.resumes_iff (hlimited : Limited files w marker report) (hholds : Holds w v held)
    (hlegible : round.Legible marker.detail) :
    round.Resumes files v ↔ ∃ reset, held = some reset ∧ reset + 60 * nanosPerSec ≤ round.now := by
  have hobserve := hlimited.observe hholds hlegible
  have hcandidate : (claudeResumeCandidateEvent v round.now).isSome = true ↔
      ∃ reset, held = some reset ∧ reset + 60 * nanosPerSec ≤ round.now := by
    rw [hholds.candidate]
    simp [Option.any_eq_true]
  rw [← hcandidate]
  constructor
  · rintro ⟨event,hevent,-⟩
    rw [hevent]
    rfl
  · intro hsome
    obtain ⟨event,hevent⟩ := Option.isSome_iff_exists.1 hsome
    refine ⟨event,hevent,?_⟩
    rw [hobserve,if_pos hsome,hevent]

variable [JsonText] {R R' : Registry} {id : String} {result : ObservationResult}
  {host : WriteOutcome}

theorem Limited.round_holds (hlimited : Limited files w marker report) (hholds : Holds w v held)
    (hlegible : round.Legible marker.detail) (hv : R.get id = some v)
    (hobserve : round.observe files v = .ok result)
    (hcommit : R.commitObservation id round.schedule result.event round.committedMs host =
      (.ok (),R')) (hv' : R'.get id = some v') (hwaiting : isWaiting v'.lifecycle = true) :
    Holds w v' (nextHeld marker.detail held round) := by
  rw [hlimited.observe hholds hlegible] at hobserve
  cases hobserve
  have hnext : nextHeld marker.detail held round =
      if (claudeResumeCandidateEvent v round.now).isSome then none
      else resetOf marker.detail round.hookedAt := by
    rw [nextHeld,hholds.candidate]
  rw [hnext]
  cases hresume : claudeResumeCandidateEvent v round.now with
  | some =>
    -- the candidate is no limit, so no other one follows it
    simp only [hresume,Option.isSome_some,if_true] at hcommit ⊢
    obtain ⟨later,hget⟩ := commitObservation_ok hv hcommit
    cases hv'.symm.trans hget
    refine ⟨hholds.watcherId,hholds.target,hholds.claudeSession,hwaiting,fun now => ?_⟩
    rw [Bool.eq_iff_iff,claudeResumeCandidateEvent_isSome]
    simp [committed,claudeResumeCandidateEvent_category hresume,isLimit]
  | none =>
    simp only [hresume,Option.isSome_none,Bool.false_eq_true,if_false,
      hlimited.hook hholds hlegible.2.1] at hcommit ⊢
    obtain ⟨later,hget⟩ := commitObservation_ok hv hcommit
    cases hv'.symm.trans hget
    exact ⟨hholds.watcherId,hholds.target,hholds.claudeSession,hwaiting,
      candidate_of_limit hwaiting hlimited.limit hlegible.2 rfl⟩

theorem Limited.rounds_hold (hlimited : Limited files w marker report) {reset : Int}
    (hstart : Holds w w (some reset)) {rounds : List Round}
    (hlegible : ∀ round ∈ rounds, round.Legible marker.detail)
    (hrounds : Rounds files id w rounds v) : Holds w v (heldAfter marker.detail reset rounds) := by
  induction hrounds with
  | start => exact hstart
  | undisturbed hrounds hkept ih =>
    have hholds := ih hlegible
    refine ⟨hkept.watcherId.trans hholds.watcherId,hkept.target.trans hholds.target,
      hkept.claudeSession.trans hholds.claudeSession,hkept.waiting,fun now => ?_⟩
    rw [← hholds.candidate now,Bool.eq_iff_iff,claudeResumeCandidateEvent_isSome,
      claudeResumeCandidateEvent_isSome,hkept.lastObservation,hkept.waiting,hholds.waiting]
  | round hrounds hv hobserve hcommit hv' hwaiting ih =>
    have hholds := ih fun round hmem => hlegible round (List.mem_append_left _ hmem)
    rw [heldAfter,List.foldl_append]
    exact hlimited.round_holds hholds (hlegible _ (List.mem_append_right _ List.mem_cons_self)) hv
      hobserve hcommit hv' hwaiting

omit [Digest] [SnapshotBytes] [JsonText] in
theorem heldAfter_same {reset : Int} {rounds : List Round}
    (hbefore : ∀ round ∈ rounds, round.now < reset + 60 * nanosPerSec)
    (hsame : ∀ round ∈ rounds, resetOf detail round.hookedAt = some reset) :
    heldAfter detail reset rounds = some reset := by
  induction rounds with
  | nil => rfl
  | cons round rounds ih =>
    have hlt := hbefore round List.mem_cons_self
    have hfirst : nextHeld detail (some reset) round = some reset := by
      rw [nextHeld,hsame round List.mem_cons_self,if_neg]
      simpa using hlt
    rw [heldAfter,List.foldl_cons,hfirst]
    exact ih (fun r hr => hbefore r (List.mem_cons_of_mem _ hr))
      fun r hr => hsame r (List.mem_cons_of_mem _ hr)

end Rounds

namespace Sample

def dayStamps : List (String × Int) :=
  [("2026-01-01T10:00:00+00:00",36000),("2026-01-01T10:30:00+00:00",37800),
    ("2026-01-01T11:00:00+00:00",39600),("2026-01-01T11:01:00+00:00",39660),
    ("2026-01-01T11:30:00+00:00",41400),("2026-01-01T12:01:00+00:00",43260),
    ("2026-01-01T15:00:00+00:00",54000)]

def atSecond (seconds : Int) : Int := (1767225600 + seconds) * nanosPerSec

def dayStamp (nanos : Int) : String :=
  ((dayStamps.find? fun stamp => atSecond stamp.2 == nanos).map (·.1)).getD ""

def markerOfLine (line : String) : Option Json :=
  match (line.toList.splitOn '|').map fun field => Json.string (.ofList field) with
  | [session,transcript,error,detail] => some (.object [("session_id",session),
      ("transcript_path",transcript),("error_type",error),("detail",detail)])
  | _ => none

@[reducible] def dayZones : Zones where
  parseFromRfc3339 text := (dayStamps.lookup text).map atSecond
  fromStr := markerOfLine
  toRfc3339 := dayStamp
  toRfc3339At _ := dayStamp
  parseTz _ := none
  offsetAt _ _ := 0
  fromLocal _ _ := .none
  offsetRfc3339 time := dayStamp time.nanos

def limitMarker (transcript detail : String) : HookMarker :=
  ⟨"session-1",transcript,"rate_limit",detail⟩

def transcript : String := "/work/t.jsonl"

def hookFiles (markers : List HookMarker) : HookHost :=
  ⟨fun _ => some "/work",some,some,fun path => .ok ⟨path,1,2⟩,
    fun _ => ⟨.ok 100,.ok true,markers.map fun marker => .ok (marker.sessionId ++ "|" ++
      marker.transcriptPath ++ "|" ++ marker.errorType ++ "|" ++ marker.detail)⟩⟩

def sessionWatcher : WatcherState :=
  { migrated with
    claudeSession := some ⟨"session-1",transcript,"/work/markers.jsonl",1,"/work",none,
      some ⟨transcript,1,2⟩⟩ }

def limitEvent (w : WatcherState) (marker : HookMarker) (observed : Int) : Event :=
  let _ := dayZones
  let _ := digest
  withReset (stopFailureEvent w marker observed (.usageLimit,.waitAllowed))
    (parseReset marker.detail ⟨observed,0⟩)

def resetWaiter (marker : HookMarker) (observed : Int) : WatcherState :=
  let _ := dayZones
  { sessionWatcher with
    lifecycle := .waiting
      (((resetOf marker.detail observed).getD 0 / 1000000 + 60000).toNat) "recovery wait scheduled"
    lastObservation := some (limitEvent sessionWatcher marker observed) }

def roundAt (now : Int) : Round :=
  ⟨now,now,now,⟨none,false,fun _ => none,fun _ => none,fun _ => none,0⟩,
    ⟨none,false,fun _ => none,fun _ => none,fun _ => none,0⟩,.ok ⟨none,none⟩,.default,0⟩

def clockText : String := "resets 3pm"
def durationText : String := "resets in 1 hour"

def clockMarker : HookMarker := limitMarker transcript clockText
def durationMarker : HookMarker := limitMarker transcript durationText

def clockReset : ResetTime := ⟨⟨atSecond 54000,0⟩,860,"+00:00",60⟩
def durationReset (seconds : Int) : ResetTime := ⟨⟨atSecond seconds,0⟩,980,"+00:00",60⟩

theorem markers_trusted : let _ := dayZones
    ∀ marker ∈ [clockMarker,durationMarker],
      trustedMarker (hookFiles [marker]) (resetWaiter marker (atSecond 36000)) = some marker := by
  decide

section Rounds
attribute [local instance] dayZones digest snapshotBytes jsonText

instance (detail : String) (observed : Int) : Decidable (Legible detail observed) :=
  decidable_of_iff ((Chrono.parseFromRfc3339 (Texts.toRfc3339 observed)).isSome = true ∧
    ((parseReset detail ⟨observed,0⟩).all fun reset => Chrono.parseFromRfc3339
      (Zones.offsetRfc3339 reset.resetAt) = some reset.resetAt.nanos) = true)
    (by simp [Legible,Option.all_eq_true])

/-- The watcher waits since ten o'clock, and is observed once more. -/
def held (marker : HookMarker) : Registry :=
  .put ⟨∅,none⟩ "watcher-1" (resetWaiter marker (atSecond 36000))

def observedAt (marker : HookMarker) (now : Int) : ObservationResult :=
  (((roundAt now).observe (hookFiles [marker])
    (resetWaiter marker (atSecond 36000))).toOption).getD ⟨none,none⟩

def recommitted (marker : HookMarker) (now : Int) : Except RegistryError Unit × Registry :=
  (held marker).commitObservation "watcher-1" .default (observedAt marker now).event 0 .stored

def waiterAt (marker : HookMarker) (now : Int) : WatcherState :=
  ((recommitted marker now).2.get "watcher-1").getD sessionWatcher

theorem one_round (marker : HookMarker) (now : Int) (h : (roundAt now).observe (hookFiles [marker])
      (resetWaiter marker (atSecond 36000)) = .ok (observedAt marker now) ∧
    (recommitted marker now).1 = .ok () ∧
    (recommitted marker now).2.get "watcher-1" = some (waiterAt marker now) ∧
    isWaiting (waiterAt marker now).lifecycle = true) :
    Rounds (hookFiles [marker]) "watcher-1" (resetWaiter marker (atSecond 36000)) [roundAt now]
      (waiterAt marker now) :=
  .round .start (Registry.get_put _ _ _) h.1 (Prod.ext h.2.1 rfl) h.2.2.1 h.2.2.2

end Rounds

end Sample

/-- A watcher waits for the reset that was read out of a marker. Whatever rounds of observation
and commit come before the deadline, the observations from the deadline on return the resume
candidate exactly if the reset in the last observation by then is not later than the one that was
waited for; and it is the same one if every round has read the same instant out of the marker. -/
theorem claude_reset_wait_ends_iff [Zones] [Digest] [SnapshotBytes] [JsonText] {files : HookHost}
    {id : String} {w v : WatcherState} {marker : HookMarker} {observed : Int} {event : Event}
    {reset : ResetTime} {rounds : List Round} (htrusted : trustedMarker files w = some marker)
    (hevent : correlatedHookEvent files w observed = some event)
    (hlast : w.lastObservation = some event) (hlimit : isLimit event.category = true)
    (hreset : parseReset marker.detail ⟨observed,0⟩ = some reset)
    (hwaiting : isWaiting w.lifecycle = true) (hread : Legible marker.detail observed)
    (hlegible : ∀ round ∈ rounds, round.Legible marker.detail)
    (hbefore : ∀ round ∈ rounds,
      round.now < reset.resetAt.nanos + reset.marginSeconds * nanosPerSec)
    (hrounds : Rounds files id w rounds v) :
    ClaudeRecipes.actionFor w = some (waitAction "claude.wait_for_reset"
      (.waitUntil (OffsetTexts.toRfc3339At (Zones.offsetRfc3339 reset.resetAt)
        (reset.resetAt.nanos + reset.marginSeconds * nanosPerSec)))
      "correlated Claude reset time" event) ∧
    ((∀ round : Round, round.Legible marker.detail →
        reset.resetAt.nanos + reset.marginSeconds * nanosPerSec ≤ round.now →
        round.Resumes files v) ↔
      ∃ last, heldAfter marker.detail reset.resetAt.nanos rounds = some last ∧
        last ≤ reset.resetAt.nanos) ∧
    ((∀ round ∈ rounds, resetOf marker.detail round.hookedAt = some reset.resetAt.nanos) →
      heldAfter marker.detail reset.resetAt.nanos rounds = some reset.resetAt.nanos) := by
  obtain ⟨_,report,htrusted',hreported,hnamed,heq⟩ := correlatedHookEvent_eq_some.1 hevent
  obtain rfl := Option.some.inj (htrusted.symm.trans htrusted')
  obtain ⟨hsource,hcategory,hhint,-⟩ := withReset_frame (stopFailureEvent w marker observed report)
    (parseReset marker.detail ⟨observed,0⟩)
  rw [← heq] at hsource hcategory hhint
  have hmargin := (parseReset_future hreset).2
  have hlimited : Limited files w marker report :=
    ⟨htrusted,hreported,by rwa [hcategory] at hlimit,hnamed.1,hnamed.2.1⟩
  have hstart : Holds w w (resetOf marker.detail observed) := ⟨rfl,rfl,rfl,hwaiting,
    candidate_of_limit hwaiting hlimited.limit hread (hlast.trans (congrArg some heq))⟩
  rw [resetOf,hreset] at hstart
  have hholds := hlimited.rounds_hold hstart hlegible hrounds
  have hbound : ∀ round ∈ rounds, round.now < reset.resetAt.nanos + 60 * nanosPerSec := by
    rw [hmargin] at hbefore
    exact hbefore
  refine ⟨?_,⟨fun hresumes => ?_,?_⟩,heldAfter_same hbound⟩
  · have hstop : isStopFailure event = true := by
      rw [isStopFailure,hsource]
      rfl
    have hkind : event.source.kind ≠ .screenDetection := by
      rw [hsource]
      exact fun h => by cases h
    have hallowed := ClaudeClass.report_limit hreported hlimited.limit
    have haction := waitForReset_withReset (e := stopFailureEvent w marker observed report) rfl
      hmargin (hread.2 reset hreset)
    rw [← hreset,← heq] at haction
    simp only [ClaudeRecipes.actionFor,hlast,Option.bind_eq_bind,Option.bind_some]
    rw [if_neg fun h => hkind h.1,if_pos hstop,ClaudeRecipes.hookAction,
      if_pos ⟨hlimit,hhint.trans hallowed⟩]
    exact haction
  · -- an observation at the deadline itself
    let round : Round := ⟨reset.resetAt.nanos + 60 * nanosPerSec,observed,observed,
      ⟨none,false,fun _ => none,fun _ => none,fun _ => none,0⟩,
      ⟨none,false,fun _ => none,fun _ => none,fun _ => none,0⟩,.ok ⟨none,none⟩,.default,0⟩
    have hround : round.Legible marker.detail := ⟨hread.1,hread⟩
    obtain ⟨last,hlast,hpast⟩ := (hlimited.resumes_iff hholds hround).1 (hresumes round hround
      (by rw [hmargin]; exact le_rfl))
    exact ⟨last,hlast,by simpa [round] using hpast⟩
  · rintro ⟨last,hlast,hle⟩ round hround hpast
    rw [hmargin] at hpast
    exact (hlimited.resumes_iff hholds hround).2 ⟨last,hlast,by omega⟩

section Waits
attribute [local instance] Sample.dayZones Sample.digest Sample.snapshotBytes Sample.jsonText

theorem claude_reset_wait_ends_clock :
    let _ := Sample.dayZones
    let _ := Sample.digest
    let _ := Sample.snapshotBytes
    let _ := Sample.jsonText
    ∃ v, Rounds (Sample.hookFiles [Sample.clockMarker]) "watcher-1"
        (Sample.resetWaiter Sample.clockMarker (Sample.atSecond 36000))
        [Sample.roundAt (Sample.atSecond 39600)] v ∧
      ∀ round : Round, round.Legible Sample.clockText → Sample.atSecond 54060 ≤ round.now →
        round.Resumes (Sample.hookFiles [Sample.clockMarker]) v := by
  have hread : Legible Sample.clockText (Sample.atSecond 36000) := by decide
  have hlater : Legible Sample.clockText (Sample.atSecond 39600) := by decide
  have hround : (Sample.roundAt (Sample.atSecond 39600)).Legible Sample.clockText :=
    ⟨hlater.1,hlater⟩
  have hreset : parseReset Sample.clockText ⟨Sample.atSecond 36000,0⟩ = some Sample.clockReset ∧
      parseReset Sample.clockText ⟨Sample.atSecond 39600,0⟩ = some Sample.clockReset := by
    decide
  have hrounds := Sample.one_round Sample.clockMarker (Sample.atSecond 39600) (by decide +kernel)
  have hwait := claude_reset_wait_ends_iff (Sample.markers_trusted _ List.mem_cons_self)
    (by decide +kernel : correlatedHookEvent _ _ (Sample.atSecond 36000) = some
      (Sample.limitEvent Sample.sessionWatcher Sample.clockMarker (Sample.atSecond 36000)))
    rfl rfl hreset.1 rfl hread (List.forall_mem_singleton.2 hround) (by decide) hrounds
  exact ⟨_,hrounds,hwait.2.1.2 ⟨_,hwait.2.2 (List.forall_mem_singleton.2
    (congrArg (Option.map _) hreset.2)),le_rfl⟩⟩

/-- A message that gives a duration: half an hour after it was read as eleven o'clock, an
observation reads it as half past eleven, and at one past eleven no candidate is returned. -/
theorem claude_duration_read_anew :
    let _ := Sample.dayZones
    let _ := Sample.digest
    let _ := Sample.snapshotBytes
    let _ := Sample.jsonText
    ∃ (event : Event) (v : WatcherState),
      trustedMarker (Sample.hookFiles [Sample.durationMarker])
          (Sample.resetWaiter Sample.durationMarker (Sample.atSecond 36000)) =
        some (Sample.durationMarker) ∧
      correlatedHookEvent (Sample.hookFiles [Sample.durationMarker])
          (Sample.resetWaiter Sample.durationMarker (Sample.atSecond 36000))
          (Sample.atSecond 36000) = some event ∧
      (Sample.resetWaiter Sample.durationMarker (Sample.atSecond 36000)).lastObservation =
        some event ∧
      parseReset Sample.durationText ⟨Sample.atSecond 36000,0⟩ =
        some (Sample.durationReset 39600) ∧
      Rounds (Sample.hookFiles [Sample.durationMarker]) "watcher-1"
        (Sample.resetWaiter Sample.durationMarker (Sample.atSecond 36000))
        [Sample.roundAt (Sample.atSecond 37800)] v ∧
      (Sample.roundAt (Sample.atSecond 39660)).Legible Sample.durationText ∧
      ¬ (Sample.roundAt (Sample.atSecond 39660)).Resumes
        (Sample.hookFiles [Sample.durationMarker]) v := by
  have hfinal : Legible Sample.durationText (Sample.atSecond 39660) := by decide
  have hnone : claudeResumeCandidateEvent (Sample.waiterAt Sample.durationMarker
      (Sample.atSecond 37800)) (Sample.atSecond 39660) = none := by decide
  refine ⟨Sample.limitEvent Sample.sessionWatcher Sample.durationMarker (Sample.atSecond 36000),_,
    Sample.markers_trusted _ (by simp),by decide +kernel,rfl,by decide,
    Sample.one_round _ _ (by decide +kernel),⟨hfinal.1,hfinal⟩,?_⟩
  rintro ⟨event,hcandidate,-⟩
  cases hnone.symm.trans hcandidate

end Waits

def markerBytes (marker : HookMarker) : List UInt8 :=
  evidenceBytes "claude_stop_failure" marker.errorType
    (utf8Bytes (marker.sessionId ++ ":" ++ marker.transcriptPath))

theorem markerBytes_inj {a b : HookMarker} (hsession : b.sessionId = a.sessionId)
    (herror : b.errorType = a.errorType) :
    markerBytes b = markerBytes a ↔ b.transcriptPath = a.transcriptPath := by
  constructor
  · intro h
    rw [markerBytes,markerBytes,hsession,herror] at h
    have htext := utf8Bytes_inj (evidenceBytes_inj h)
    rw [← String.toList_inj] at htext ⊢
    simpa using htext
  · intro h
    rw [markerBytes,markerBytes,hsession,herror,h]

section Fingerprints
variable [Zones] [Digest] {files : HookHost} {w : WatcherState} {observed : Int} {event : Event}

theorem hook_fingerprint {marker : HookMarker} (htrusted : trustedMarker files w = some marker)
    (hevent : correlatedHookEvent files w observed = some event) :
    event.evidenceFingerprint = Digest.sha256Hex (markerBytes marker) := by
  obtain ⟨_,report,htrusted',-,-,rfl⟩ := correlatedHookEvent_eq_some.1 hevent
  obtain rfl := Option.some.inj (htrusted.symm.trans htrusted')
  exact (withReset_frame _ _).2.2.2

end Fingerprints

namespace Sample

@[reducible] def parityDigest : Digest where
  sha256Hex bytes := if bytes.length % 2 = 0 then fingerprint else laterFingerprint
  targetBytes _ := []
  sha256Hex_valid bytes := by
    split
    · decide
    · decide

def respelledMarker : HookMarker := limitMarker "/work//t.jsonl" durationText

theorem newest_trusted : let _ := dayZones
    trustedMarker (hookFiles [clockMarker]) sessionWatcher = some clockMarker ∧
      trustedMarker (hookFiles [clockMarker,durationMarker]) sessionWatcher =
        some durationMarker ∧
      trustedMarker (hookFiles [clockMarker,respelledMarker]) sessionWatcher =
        some respelledMarker := by
  decide

theorem limit_hook [Digest] {files : HookHost} {marker : HookMarker} (observed : Int) :
    let _ := dayZones
    trustedMarker files sessionWatcher = some marker →
    (classifyStopFailure marker.errorType marker.detail false).report =
      some (.usageLimit,.waitAllowed) →
    (Chrono.parseFromRfc3339 (Texts.toRfc3339 observed)).isSome = true →
    ∃ event, correlatedHookEvent files sessionWatcher observed = some event := by
  intro _ htrusted hreport hstamp
  exact ⟨_,correlatedHookEvent_eq_some.2 ⟨marker,_,htrusted,hreport,⟨by decide,by decide,hstamp⟩,
    rfl⟩⟩

end Sample

/-- Two markers of one session with one error type, whatever their messages say. Their events
have different fingerprints only if the path of the transcript is spelled differently; otherwise
the machine, once it has completed the first, refuses the second as a duplicate for good. -/
theorem claude_second_limit_iff [Zones] [Digest] {files files' : HookHost} {w w' : WatcherState}
    {marker marker' : HookMarker} {observed observed' : Int} {event event' : Event}
    (htrusted : trustedMarker files w = some marker)
    (htrusted' : trustedMarker files' w' = some marker')
    (hevent : correlatedHookEvent files w observed = some event)
    (hevent' : correlatedHookEvent files' w' observed' = some event')
    (hsession : marker'.sessionId = marker.sessionId)
    (herror : marker'.errorType = marker.errorType)
    (hdigest : Digest.sha256Hex (markerBytes marker') = Digest.sha256Hex (markerBytes marker) →
      markerBytes marker' = markerBytes marker) :
    (event'.evidenceFingerprint ≠ event.evidenceFingerprint ↔
      marker'.transcriptPath ≠ marker.transcriptPath) ∧
    ∀ (m m' : RecoveryMachine) (calls : List RecoveryMachine.Call) (clock : ClockSnapshot),
      m.applied (.actionSucceeded event.evidenceFingerprint) = .ok m' →
      (m'.after calls).state ≠ .needsRevalidation →
      (event'.evidenceFingerprint ∈ (m'.after calls).completed →
        event'.evidenceFingerprint = event.evidenceFingerprint) →
      ((m'.after calls).applied (.beginAction event'.evidenceFingerprint clock) ≠
          .error "duplicate action" ↔
        marker'.transcriptPath ≠ marker.transcriptPath) := by
  have hsame : event'.evidenceFingerprint = event.evidenceFingerprint ↔
      marker'.transcriptPath = marker.transcriptPath := by
    rw [hook_fingerprint htrusted hevent,hook_fingerprint htrusted' hevent',
      ← markerBytes_inj hsession herror]
    exact ⟨hdigest,congrArg _⟩
  refine ⟨not_congr hsame,fun m m' calls clock hsucceeded hstate hfresh => not_congr ?_⟩
  have hcompleted : event.evidenceFingerprint ∈ (m'.after calls).completed := by
    refine RecoveryMachine.completed_after _ _ _ ?_
    cases RecoveryMachine.applied_effect hsucceeded with
    | succeeded => exact Std.ExtTreeSet.mem_insert_self
  rw [RecoveryMachine.begin_duplicate_iff,← hsame]
  exact ⟨fun h => hfresh h.2,fun h => ⟨hstate,h ▸ hcompleted⟩⟩

theorem claude_second_limit_respelled :
    let _ := Sample.dayZones
    let _ := Sample.parityDigest
    ∃ event event',
      correlatedHookEvent (Sample.hookFiles [Sample.clockMarker]) Sample.sessionWatcher
        (Sample.atSecond 36000) = some event ∧
      correlatedHookEvent (Sample.hookFiles [Sample.clockMarker,Sample.respelledMarker])
        Sample.sessionWatcher (Sample.atSecond 39600) = some event' ∧
      event'.evidenceFingerprint ≠ event.evidenceFingerprint := by
  intro _ _
  obtain ⟨event,hevent⟩ := Sample.limit_hook (Sample.atSecond 36000)
    Sample.newest_trusted.1 (by decide) (by decide)
  obtain ⟨event',hevent'⟩ := Sample.limit_hook (Sample.atSecond 39600)
    Sample.newest_trusted.2.2 (by decide) (by decide)
  have hdistinct : Digest.sha256Hex (markerBytes Sample.respelledMarker) ≠
      Digest.sha256Hex (markerBytes Sample.clockMarker) := by
    decide +kernel
  exact ⟨event,event',hevent,hevent',(claude_second_limit_iff Sample.newest_trusted.1
    Sample.newest_trusted.2.2 hevent hevent' rfl rfl fun h => absurd h hdistinct).1.2 (by decide)⟩

/-- A wait for three o'clock is completed, and then a limit for an hour is reported: it has the
fingerprint of the first, and the machine does not begin its action. -/
theorem claude_second_limit_refused :
    let _ := Sample.dayZones
    ∀ _ : Digest, ∃ event event',
      correlatedHookEvent (Sample.hookFiles [Sample.clockMarker]) Sample.sessionWatcher
        (Sample.atSecond 36000) = some event ∧
      correlatedHookEvent (Sample.hookFiles [Sample.clockMarker,Sample.durationMarker])
        Sample.sessionWatcher (Sample.atSecond 39600) = some event' ∧
      Sample.durationMarker.sessionId = Sample.clockMarker.sessionId ∧
      Sample.durationMarker.errorType = Sample.clockMarker.errorType ∧
      Sample.durationMarker.detail ≠ Sample.clockMarker.detail ∧
      event'.evidenceFingerprint = event.evidenceFingerprint ∧
      ∃ m m' : RecoveryMachine, m.applied (.actionSucceeded event.evidenceFingerprint) = .ok m' ∧
        ∀ clock, m'.applied (.beginAction event'.evidenceFingerprint clock) =
          .error "duplicate action" := by
  intro _ _
  obtain ⟨event,hevent⟩ := Sample.limit_hook (Sample.atSecond 36000)
    Sample.newest_trusted.1 (by decide) (by decide)
  obtain ⟨event',hevent'⟩ := Sample.limit_hook (Sample.atSecond 39600)
    Sample.newest_trusted.2.1 (by decide) (by decide)
  have hsame : event'.evidenceFingerprint = event.evidenceFingerprint :=
    (hook_fingerprint Sample.newest_trusted.2.1 hevent').trans
      (hook_fingerprint Sample.newest_trusted.1 hevent).symm
  let m : RecoveryMachine :=
    { Sample.attempted with current := some event.evidenceFingerprint }
  obtain ⟨m',hm'⟩ : ∃ m', m.applied (.actionSucceeded event.evidenceFingerprint) = .ok m' :=
    ⟨_,(RecoveryMachine.applied_ok_iff fun _ _ _ h => by cases h).2 (.succeeded _ rfl rfl)⟩
  refine ⟨event,event',hevent,hevent',rfl,rfl,by decide,hsame,m,m',hm',fun clock => ?_⟩
  rw [RecoveryMachine.begin_duplicate_iff,hsame]
  cases RecoveryMachine.applied_effect hm' with
  | succeeded => exact ⟨(fun h => by cases h),Std.ExtTreeSet.mem_insert_self⟩

end WatchMe
