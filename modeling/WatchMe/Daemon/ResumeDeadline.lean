import WatchMe.Daemon.Handoff
import WatchMe.Daemon.Jobs
import WatchMe.Daemon.JobTraces
import WatchMe.Daemon.Lifecycle
import WatchMe.Daemon.Loop
import WatchMe.Daemon.WaitBudget

/-! # A Codex resume and the deadline it follows

A capacity wait puts its deadline into the lifecycle, and the resume candidate of the observer
asks only whether the watcher waits. A resume that is begun after an observation made at the
deadline or later is one that the deadline has let through, as long as no new wait is scheduled
on the way from the observation to the begin of the job.
-/
namespace WatchMe
open Effects Program Transaction Service

/-- The deadline for which the watcher waits, if it does, has passed at the time. -/
def WatcherState.Elapsed (time : Int) (w : WatcherState) : Prop :=
  ∀ untilMs reason, w.lifecycle = .waiting untilMs reason → (untilMs : Int) * 1000000 ≤ time

def Schedules (id : String) : ServiceEvent → Prop
  | ⟨.daemon (.scheduleWait i _ _),_⟩ => i = id
  | _ => False

theorem refreshed_lifecycle (refresh : Registry.Refresh) (w fresh : WatcherState) :
    (Registry.refreshed refresh w fresh).lifecycle = w.lifecycle ∨
      (Registry.refreshed refresh w fresh).lifecycle = .registered := by
  unfold Registry.refreshed
  dsimp only
  split
  · exact .inr rfl
  · split
    · exact .inr rfl
    · exact .inl rfl

theorem elapsed_edit {id : String} {time : Int} {R₀ R : Registry} {e : ServiceEvent}
    {c : RegistryCall} {v v' : WatcherState} (hwait : ¬ Schedules id e) (hissued : Issued e.op)
    (hc : EventCalls R₀ e R c) (hv : v.Elapsed time) (hedit : RegistryCall.Edit v v' c)
    (habout : c.about R = some id) : v'.Elapsed time := by
  have hsame : v'.lifecycle = v.lifecycle → v'.Elapsed time := fun h untilMs reason hw =>
    hv untilMs reason (h.symm.trans hw)
  cases hc with
  | registry =>
    cases hissued with
    | handOff | stop =>
      cases hedit
      exact fun _ _ h => by cases h
    | succeeded =>
      obtain ⟨m,m',-,-,rfl⟩ := hedit
      exact hv
  | beginAction =>
    obtain ⟨m,m',-,-,rfl⟩ := hedit
    exact hv
  | markResume | postpone =>
    cases hedit
    exact hv
  | wait => exact (hwait (Option.some.inj habout)).elim
  | commit =>
    have hlifecycle := observed_lifecycle hedit
    split at hlifecycle
    · exact fun _ _ h => by cases hlifecycle.symm.trans h
    · exact hsame hlifecycle
  | serve request c answer R hcalls =>
    cases hcalls with
    | wake =>
      cases hedit
      exact hv
    | register watcher =>
      cases hedit
      rcases refreshed_lifecycle (Registry.refreshOf v watcher) v watcher with h | h
      · exact hsame h
      · exact fun _ _ h' => by cases h.symm.trans h'
    | stop | pause | resume | stopAll =>
      cases hedit
      exact fun _ _ h => by cases h
  | monitor decide now w c R hlist hmonitor =>
    rcases Registry.monitorCall_cases hmonitor with ⟨process,-,rfl⟩ | ⟨-,rfl⟩
    · cases hedit
      exact hv
    · cases hedit
      exact fun _ _ h => by cases h

/-- The loop has just committed the watcher, after an observation at the time. -/
def HandsOver (w : WatcherState) (time : Int) (h : List ServiceEvent) : Prop :=
  ∃ h₀ v result id schedule event,
    h = h₀ ++ [⟨.observe v,(time,.ok result)⟩,⟨.commit id schedule event,some w⟩]

/-- A job is started by the loop that has committed its watcher. -/
def ByLoop : ServiceDiscipline
  | V, .spawn (.recover w time) => ∃ t ∈ V.threads, t.alive = true ∧ t.call = .observationLoop ∧
    HandsOver w time t.history
  | _, _ => True

/-- A task is on the way from an observation of the watcher at the time to the begin of a resume:
the loop has seen nothing but a resume candidate and is about to commit, or to start the job, or
the job has not asked yet. -/
inductive Resuming (id : String) (time : Int) : ServiceCall → List ServiceEvent → Prop
  | observed (h h₀ : List ServiceEvent) (v : WatcherState) (result : ObservationResult) :
      v.watcherId = id → (∀ event ∈ result.event, isCodexResume event = true) →
      h = h₀ ++ [⟨.observe v,(time,.ok result)⟩] → Resuming id time .observationLoop h
  | committed (h : List ServiceEvent) (w : WatcherState) : w.watcherId = id →
      carriesResume w = true → HandsOver w time h → Resuming id time .observationLoop h
  | started (w : WatcherState) (h : List ServiceEvent) : w.watcherId = id →
      carriesResume w = true → (∀ e ∈ h, e.op = .daemon .cancellationRequested) →
      Resuming id time (.recover w time) h

def Patient (id : String) : ServiceDiscipline
  | V, .act _ ⟨.observe w,(time,_)⟩ => w.watcherId = id →
    ∀ v, V.shared.registry.get id = some v → v.Elapsed time
  | _, _ => True

/-- No wait is scheduled for a watcher on the way to a resume of it. -/
def Unhurried (id : String) : ServiceDiscipline
  | V, .act _ e => Schedules id e → ∀ t ∈ V.threads, t.alive = true →
    ∀ time, ¬ Resuming id time t.call t.history
  | _, _ => True

abbrev Punctual (id : String) : ServiceDiscipline := fun V l =>
  ByLoop V l ∧ Patient id V l ∧ Unhurried id V l

section Runs
variable [Chrono] [Render] [Digest] [JsonText] {recipes : WatcherState → Option Action}
  {owner : OwnerIdentity} {observes : Observes} {D : ServiceDiscipline} {init : ServiceState}
  {P : Pool (serviceMachine recipes owner) ServiceState} {id : String}

theorem read_present (hinit : init.registry.Keyed)
    (hr : Pool.Reachable (serviceMachine recipes owner) (serviceWorld observes) D init P) :
    ∀ t ∈ P.threads, t.alive = true → ∀ read, lastRead t.history = some read → ∀ w ∈ read,
      ∃ v, P.shared.registry.get w.watcherId = some v ∧ True := by
  refine hr.live (Φ := fun s _ h => ∀ read, lastRead h = some read → ∀ w ∈ read,
    ∃ v, s.registry.get w.watcherId = some v ∧ True) ?_ ?_
  · intro P call _ _ _ read hread
    cases hread
  · intro P i t e s shared hr hall _ ht ha hm hw
    have hkept : ∀ u ∈ P.threads, u.alive = true → ∀ read, lastRead u.history = some read →
        ∀ w ∈ read, ∃ v, shared.registry.get w.watcherId = some v ∧ True :=
      fun u hu ha read hread w hw' => answers_keep hw (hall u hu ha read hread w hw')
        fun _ _ _ _ _ _ _ _ _ _ => trivial
    refine ⟨fun read hread w hw' => ?_,hkept⟩
    by_cases hlist : e.op = .list
    · obtain ⟨op,answer⟩ := e
      cases hlist
      rw [lastRead_list] at hread
      cases hread
      obtain ⟨rfl,rfl⟩ := hw
      obtain ⟨i,hi⟩ := Registry.mem_list.1 hw'
      have hkeyed : P.shared.registry.Keyed := service_keyed hinit hr
      rw [hkeyed i w hi]
      exact ⟨w,hi,trivial⟩
    · rw [lastRead_snoc hlist] at hread
      exact hkept t (List.mem_of_getElem? ht) ha read hread w hw'

omit [Render] [Digest] in
theorem commit_answers {s s' : ServiceState} {i : String} {schedule : ObservationSchedule}
    {event : Option Event} {w : WatcherState}
    (hw : (serviceWorld observes).Answers s ⟨.commit i schedule event,some w⟩ s') :
    s'.registry.get i = some w ∧ ∀ e ∈ event, w.lastObservation = some e := by
  obtain ⟨-,now,host,result,hcall,hanswer⟩ := hw
  have hp := RegistryCall.perform_performed (.commitObservation i schedule event now) s.registry
    host
  rw [RegistryCall.perform,hcall] at hp
  cases result with
  | error => cases hanswer
  | ok =>
    obtain ⟨v,v',later,-,hedit,hnext⟩ := hp.stored_edit rfl rfl
    have hget : s'.registry.get i = some w := hanswer.symm
    refine ⟨hget,?_⟩
    rintro e rfl
    rw [Registry.get,hnext,StrMap.getElem?_insert,if_pos rfl] at hget
    cases hedit.symm.trans (Registry.observed_eq schedule e now v)
    cases hget
    rfl

theorem resuming_elapsed (hinit : init.registry.Keyed)
    (hr : Pool.Reachable (serviceMachine recipes owner) (serviceWorld observes) (Punctual id) init
      P) : ∀ t ∈ P.threads, t.alive = true → ∀ time, Resuming id time t.call t.history →
      ∃ v, P.shared.registry.get id = some v ∧ v.Elapsed time := by
  refine hr.live (Φ := fun s call h => ∀ time, Resuming id time call h →
    ∃ v, s.registry.get id = some v ∧ v.Elapsed time) ?_ ?_
  · intro P call hr hall hd time hresuming
    cases hresuming with
    | observed _ h₀ v result _ _ h => exact absurd h (by simp)
    | committed _ w _ _ hover =>
      obtain ⟨h₀,v,result,i,schedule,event,h⟩ := hover
      exact absurd h (by simp)
    | started w _ hw hcarries =>
      obtain ⟨u,hu,ha,hcall,hover⟩ := hd.1
      obtain ⟨t,ht,rfl⟩ := List.mem_map.1 hu
      have hresuming : Resuming id time t.call t.history := by
        rw [show t.call = .observationLoop from hcall]
        exact .committed t.history w hw hcarries hover
      exact hall t ht ha time hresuming
  · intro P i t e s shared hr hall hd ht ha hm hw
    have hkept : ∀ u ∈ P.threads, u.alive = true → ∀ time, Resuming id time u.call u.history →
        ∃ v, shared.registry.get id = some v ∧ v.Elapsed time := by
      intro u hu hua time hresuming
      have hissued := issued_step hr (.act P i t e s shared ht ha hm hw)
      have hwait : ¬ Schedules id e := fun h =>
        hd.2.2 h u.view (List.mem_map_of_mem hu) hua time hresuming
      refine answers_keep hw (hall u hu hua time hresuming) ?_
      intro R c v v' now hc _ hv hedit habout
      have hv' : v'.Elapsed time := elapsed_edit hwait hissued hc hv hedit habout
      exact hv'
    refine ⟨fun time hresuming => ?_,hkept⟩
    have htm := List.mem_of_getElem? ht
    have hrun := hr.runs_at ht
    have hread := read_present hinit hr t htm ha
    replace hkept := hkept t htm ha time
    obtain ⟨call,p,h,alive⟩ := t
    dsimp only at *
    cases hresuming with
    | observed _ h₀ v result hv hresult hh =>
      obtain ⟨rfl,he⟩ := List.append_inj' hh rfl
      cases he
      obtain ⟨rfl,-⟩ := hw
      obtain ⟨st,st',-,hstep,hknows⟩ := loop_step hrun hm
      cases hstep with
      | @observed now read _ next queue _ _ =>
        obtain ⟨v',hv',-⟩ := hread read hknows.1 v (hknows.2.sublist.subset (by simp))
        rw [hv] at hv'
        exact ⟨v',hv',hd.2.1 hv v' hv'⟩
    | committed _ w hid hcarries hover =>
      obtain ⟨h₀,v,result,i,schedule,event,hh⟩ := hover
      rw [List.append_cons h₀] at hh
      obtain ⟨rfl,he⟩ := List.append_inj' hh rfl
      cases he
      obtain ⟨read,v',now,time',result',h₁,-,-,hv',-,rfl,hobserved⟩ := loop_commit hrun hm
      obtain ⟨-,he⟩ := List.append_inj' hobserved rfl
      cases he
      obtain ⟨hget,hlast⟩ := commit_answers hw
      have hkeyed := keyed_answers (service_keyed hinit hr) hw
      have hname : v.watcherId = id := hv'.trans ((hkeyed i w hget).symm.trans hid)
      refine hkept (.observed _ h₀ v result hname (fun event hevent => ?_) rfl)
      simpa [carriesResume,hlast event hevent] using hcarries
    | started w _ hid hcarries hops =>
      exact hkept (.started w h hid hcarries fun e he => hops e (List.mem_append_left _ he))

end Runs

/-- In every run in which the watcher is observed after the deadline for which it waits only, and
no wait is scheduled for it on the way from an observation to a resume, no resume is begun for
it, after an observation made before the deadline, while it still waits. -/
theorem resume_after_deadline [OffsetTexts] [Render] [Digest] [JsonText]
    (manifests : ManifestRecipes) (owner : OwnerIdentity) (observes : Observes)
    (init : ServiceState) (id : String) (hinit : init.registry.Keyed)
    (P P' : Pool (serviceMachine (CompositeRecipes.actionFor manifests) owner) ServiceState)
    (i : Nat) (t : Thread (serviceMachine (CompositeRecipes.actionFor manifests) owner))
    (w current : WatcherState) (action : Action) (time : Int) (fingerprint reason : String)
    (untilMs : Nat)
    (hr : Pool.Reachable (serviceMachine (CompositeRecipes.actionFor manifests) owner)
      (serviceWorld observes) (Punctual id) init P)
    (hs : Pool.Step (serviceWorld observes) P
      (.act i ⟨.daemon (.beginAction id fingerprint),some current⟩) P')
    (ht : P.threads[i]? = some t) (hcall : t.call = .recover w time)
    (haction : CompositeRecipes.actionFor manifests w = some action)
    (hresume : action.actionId = CodexRecipes.resumeId)
    (hwaits : current.lifecycle = .waiting untilMs reason) : (untilMs : Int) * 1000000 ≤ time := by
  have hissued := issued_step hr hs
  cases hs with
  | act _ t' _ s shared ht' ha hm hw =>
    obtain rfl := Option.some.inj (ht.symm.trans ht')
    have hrun := hr.runs_at ht
    have htm := List.mem_of_getElem? ht
    have hpast := resuming_elapsed hinit hr t htm ha time
    obtain ⟨call,p,h,alive⟩ := t
    dsimp only at *
    subst hcall
    obtain ⟨_,-,hid,-,hh⟩ := job_begins hrun hm
    have hresuming : Resuming id time (.recover w time) h := by
      refine .started w h hid.symm (CompositeRecipes.resume_carries haction hresume) ?_
      simp [hh]
    obtain ⟨v,hv,helapsed⟩ := answers_keep hw (hpast hresuming)
      fun R c v v' now hc _ hv hedit habout =>
        show v'.Elapsed time from elapsed_edit (fun h => by cases h) hissued hc hv hedit habout
    obtain ⟨⟨clock,now,later,host,host',hbegin⟩,-⟩ := hw
    have hget := (Registry.beginAction_spec _ id fingerprint clock now later host host'
      hbegin).2 current rfl
    obtain rfl := Option.some.inj (hv.symm.trans hget.1)
    exact helapsed untilMs reason hwaits

instance (op : DaemonOp) : DecidableEq op.Answer := by
  cases op <;> exact inferInstance

/-- The answer of the monitor is a function, so that not all answers can be compared. -/
noncomputable instance (op : ServiceOp) : DecidableEq (serviceSig.Answer op) := by
  cases op with
  | monitor => exact Classical.decEq _
  | _ => exact inferInstance

/-- What the loop has observed and committed last. -/
def handedOver (h : List ServiceEvent) : Option (WatcherState × Int) :=
  match h.reverse with
  | ⟨.commit _ _ _,some w⟩ :: ⟨.observe _,(time,.ok _)⟩ :: _ => some (w,time)
  | _ => none

theorem handsOver_of_handedOver {h : List ServiceEvent} {w : WatcherState} {time : Int}
    (hh : handedOver h = some (w,time)) : HandsOver w time h := by
  unfold handedOver at hh
  split at hh
  · next id schedule event w' v time' result rest heq =>
    cases hh
    refine ⟨rest.reverse,v,result,id,schedule,event,?_⟩
    rw [← List.reverse_reverse h,heq]
    simp
  · cases hh

instance (time : Int) (w : WatcherState) : Decidable (w.Elapsed time) :=
  decidable_of_iff ((match w.lifecycle with
    | .waiting untilMs _ => decide ((untilMs : Int) * 1000000 ≤ time)
    | _ => true) = true) (by
      unfold WatcherState.Elapsed
      cases w.lifecycle <;> simp)

namespace Sample
open Registry

def codexStamps : List (String × Int) :=
  [("2026-01-01T00:00:00+00:00",0),("2026-01-01T00:01:10+00:00",70),
    ("2026-01-01T00:02:20+00:00",140),("2026-01-01T00:03:30+00:00",210),
    ("2026-01-01T00:04:40+00:00",280),("2026-01-01T00:05:50+00:00",350),
    ("2026-01-01T00:07:00+00:00",420),("2026-01-01T00:08:10+00:00",490)]

def codexStampAt (nanos : Int) : String :=
  ((codexStamps.find? fun stamp => instant stamp.2 == nanos).map (·.1)).getD ""

@[reducible] def codexClocks : OffsetTexts where
  parseFromRfc3339 text := (codexStamps.lookup text).map instant
  fromStr _ := none
  toRfc3339 := codexStampAt
  toRfc3339At _ := codexStampAt

def checksumHex (n : Nat) : String :=
  .ofList (List.replicate 31 'a' ++ [Nat.digitChar n])

@[reducible] def checksumDigest : Digest where
  sha256Hex bytes := checksumHex ((bytes.map (·.toNat)).sum % 16)
  targetBytes _ := []
  sha256Hex_valid bytes := by
    have hvalid : ∀ n < 16, validHash (checksumHex n) = true := by decide +kernel
    exact hvalid _ (Nat.mod_lt _ (by decide))

def boundPane : WatcherState :=
  { migrated with
    revision := 10
    codexSession := some ⟨"thread-1","/work/rollout.jsonl",1,"/work",none,none,none,none⟩ }

def blockedHost (seconds : Int) : CodexHost :=
  ⟨some blockedGoal,true,fun _ => none,fun _ => none,fun _ => none,instant seconds⟩

def blockedAt (seconds : Int) : Event :=
  let _ := codexClocks
  let _ := checksumDigest
  let _ := snapshotBytes
  annotated blockedGoal (goalEvent boundPane blockedGoal .typedApi (instant seconds)
    (.capacityBlock,.waitAllowed,true))

def codexHosts (seconds : Int) : ObserverHost :=
  ⟨none,none,blockedHost seconds,blockedHost seconds,.ok ⟨none,none⟩⟩

abbrev codexDaemon : Machine serviceSig ServiceCall Unit :=
  let _ := codexClocks
  let _ := render
  let _ := checksumDigest
  serviceMachine (CompositeRecipes.actionFor noManifests) owner

abbrev codexWorld : World serviceSig ServiceState :=
  let _ := codexClocks
  let _ := checksumDigest
  let _ := snapshotBytes
  let _ := jsonText
  serviceWorld genericObserves

def codexRestored : WatcherState := afterRestart boundPane

def capacityFingerprint : String := "aaaaaaaaaaaaaaaaaaaaaaaaaaaaaaad"

def capacityAction : Action :=
  (Action.new "codex.capacity_backoff_wait" (.waitDuration 269)
    "transient Codex capacity block with durable blocked goal" capacityFingerprint 30).expecting []
      ⟨"WAIT_STATE_RECORDED",none⟩

def codexBlocked : WatcherState := observedAs codexRestored (blockedAt 0) startMs

def blockedMachine : RecoveryMachine :=
  { (restored.advanced .observing).advanced .confirmed with current := some capacityFingerprint }

def waitingMachine : RecoveryMachine :=
  { blockedMachine.advanced .acting with attempts := 1, lastAttemptMono := some 5 }

def waitedMachine : RecoveryMachine :=
  { (waitingMachine.advanced .verifying).advanced .recovered with
    completed := waitingMachine.completed.insert capacityFingerprint }

def blockedEvidence : LiveEvidence :=
  limitEvidence (blockedAt 0) (by decide +kernel)

def blockedPrelude : Prelude :=
  ⟨blockedEvidence,"2026-01-01T00:00:00+00:00",blockedEvidence,5000,"authorized",blockedEvidence⟩

def capacityJob : Job :=
  ⟨"watcher-1",owner,capacityAction,⟨2,300,0,false,true,some "thread-1",none,none⟩⟩

theorem blockedPrelude_passed :
    let _ := codexClocks
    let _ := render
    blockedPrelude.Passed capacityJob := by
  intro _ _
  constructor
  · rfl
  · decide +kernel
  · decide +kernel
  · decide +kernel
  · rfl
  · decide +kernel

def capacityWaitJob :
    let _ := codexClocks
    let _ := render
    let _ := checksumDigest
    WaitJob (CompositeRecipes.actionFor noManifests) owner codexBlocked :=
  let _ := codexClocks
  let _ := render
  let _ := checksumDigest
  { action := capacityAction
    context := capacityJob.recovery
    d := blockedPrelude
    output := .scheduled (269 * nanosPerSecond)
    begun := waitingMachine
    ended := waitedMachine
    now := startMs
    mono := 5000
    untilMs := startMs + 269000
    proposed := by decide +kernel
    still := by decide +kernel
    fingerprint := by decide +kernel
    context_ok := rfl
    passed := blockedPrelude_passed
    executed := traces_wait rfl (.inr ⟨269,rfl,rfl,rfl⟩) (by decide +kernel)
    receipt := rfl
    unverified := rfl
    begins := ⟨blockedMachine,⟨5,5⟩,by decide +kernel,rfl⟩
    ends := rfl
    fresh := rfl
    room := by decide }

def codexWaiting : WatcherState :=
  let _ := codexClocks
  let _ := render
  let _ := checksumDigest
  capacityWaitJob.after

def codexHost (o : Around) : Host codexWorld :=
  let _ := codexClocks
  let _ := checksumDigest
  let _ := snapshotBytes
  let _ := jsonText
  o.serviceHost

def codexAround (seconds mono : Nat) : Around where
  live := blockedEvidence
  after := blockedEvidence
  wall := "2026-01-01T00:00:00+00:00"
  mono
  output := .ok (.scheduled (269 * nanosPerSecond))
  owned := true
  now := startMs + seconds * 1000
  clock := ⟨mono / 1000,mono / 1000⟩
  seen := instant seconds
  observer := codexHosts seconds

def codexActs (i steps : Nat) (o : Around) : List (Move codexWorld ServiceCall) :=
  List.replicate steps (.act i (codexHost o))

def codexStart (w : WatcherState) : Pool codexDaemon ServiceState := ⟨⟨single w,.fresh⟩,[]⟩

/-- Jobs are started by the loop that has committed their watcher. -/
def byLoop (P : Pool codexDaemon ServiceState) : Label serviceSig ServiceCall → Bool
  | .spawn (.recover w time) => P.threads.any fun t => t.alive &&
    decide (t.call = .observationLoop ∧ handedOver t.history = some (w,time))
  | _ => true

/-- Besides, the watcher is observed after its deadline only, and no wait is scheduled. -/
def punctual (P : Pool codexDaemon ServiceState) (l : Label serviceSig ServiceCall) : Bool :=
  byLoop P l && match l with
    | .act _ ⟨.observe _,(time,_)⟩ =>
      (P.shared.registry.get "watcher-1").all fun v => decide (v.Elapsed time)
    | .act _ ⟨.daemon (.scheduleWait _ _ _),_⟩ => false
    | _ => true

theorem byLoop_of_byLoop (P : Pool codexDaemon ServiceState) (l : Label serviceSig ServiceCall)
    (h : byLoop P l = true) : ByLoop P.view l := by
  unfold ByLoop
  split
  · obtain ⟨t,ht,htest⟩ := List.any_eq_true.1 h
    rw [Bool.and_eq_true,decide_eq_true_iff] at htest
    exact ⟨_,List.mem_map_of_mem ht,htest.1,htest.2.1,handsOver_of_handedOver htest.2.2⟩
  · trivial

theorem punctual_of_punctual (P : Pool codexDaemon ServiceState)
    (l : Label serviceSig ServiceCall) (htest : punctual P l = true) :
    Punctual "watcher-1" P.view l := by
  obtain ⟨hloop,h⟩ := Bool.and_eq_true_iff.1 htest
  refine ⟨byLoop_of_byLoop P l hloop,?_,?_⟩
  · unfold Patient
    split
    · intro _ v hv
      exact of_decide_eq_true ((Option.all_eq_true _ _).1 h v hv)
    · trivial
  · unfold Unhurried
    split
    · next e =>
      intro hwait
      obtain ⟨op,answer⟩ := e
      cases op with
      | daemon op =>
        cases op with
        | scheduleWait => cases h
        | _ => exact hwait.elim
      | _ => exact hwait.elim
    · trivial

def observedPane (P : Pool codexDaemon ServiceState) : WatcherState :=
  (P.shared.registry.get "watcher-1").getD codexRestored

/-- The loop commits the blocked goal, its job waits, and the goal is observed again. -/
def observedEarly : Pool codexDaemon ServiceState :=
  (codexStart codexRestored).play (.spawn .observationLoop :: codexActs 0 5 (codexAround 0 0) ++
    .spawn (.recover codexBlocked (instant 0)) :: codexActs 1 20 (codexAround 0 5000) ++
      codexActs 0 6 (codexAround 70 75000))

def observedLate : Pool codexDaemon ServiceState :=
  (codexStart codexWaiting).play (.spawn .observationLoop :: codexActs 0 5 (codexAround 280 0))

/-- A job is started for what was observed, and is about to begin its action. -/
def resuming (P : Pool codexDaemon ServiceState) (i seconds : Nat) :
    Pool codexDaemon ServiceState :=
  P.play (.spawn (.recover (observedPane P) (instant seconds)) ::
    codexActs i 1 (codexAround seconds 75000))

def begunFor (P : Pool codexDaemon ServiceState) (i seconds : Nat) :
    Pool codexDaemon ServiceState :=
  (resuming P i seconds).next (.act i (codexHost (codexAround seconds 75000)))

end Sample

attribute [local instance] Sample.codexClocks Sample.render Sample.checksumDigest
  Sample.snapshotBytes Sample.jsonText

theorem Sample.resume_begins (P : Pool codexDaemon ServiceState) (i seconds : Nat)
    (fingerprint : String) (h : let begun := observedPane (begunFor P i seconds)
      (resuming P i seconds).asks i = some (.daemon (.beginAction "watcher-1" fingerprint)) ∧
      ((codexHost (codexAround seconds 75000)).answer (resuming P i seconds).shared
        (.daemon (.beginAction "watcher-1" fingerprint))).1 = some begun ∧
      ((resuming P i seconds).threads[i]?.any fun t =>
        t.call = .recover (observedPane P) (instant seconds)) = true ∧
      ((CompositeRecipes.actionFor noManifests (observedPane P)).any fun a =>
        a.actionId = CodexRecipes.resumeId) = true ∧
      begun.lifecycle = .waiting (startMs + 269000) "recovery wait scheduled") :
    ∃ (current : WatcherState) (t : Thread codexDaemon) (action : Action),
      Pool.Step codexWorld (resuming P i seconds)
        (.act i ⟨.daemon (.beginAction "watcher-1" fingerprint),some current⟩)
        (begunFor P i seconds) ∧
      (resuming P i seconds).threads[i]? = some t ∧
      t.call = .recover (observedPane P) (instant seconds) ∧
      CompositeRecipes.actionFor noManifests (observedPane P) = some action ∧
      action.actionId = CodexRecipes.resumeId ∧
      current.lifecycle = .waiting (startMs + 269000) "recovery wait scheduled" := by
  obtain ⟨hasks,hanswer,hthread,haction,hlifecycle⟩ := h
  obtain ⟨t,ht,hcall⟩ := (Option.any_eq_true _ _).1 hthread
  obtain ⟨action,hproposed,hresume⟩ := (Option.any_eq_true _ _).1 haction
  exact ⟨_,t,action,Pool.step_next _ hasks hanswer,ht,of_decide_eq_true hcall,hproposed,
    of_decide_eq_true hresume,hlifecycle⟩

theorem resume_after_deadline_late :
    let _ := Sample.codexClocks
    let _ := Sample.render
    let _ := Sample.checksumDigest
    ∃ (P P' : Pool Sample.codexDaemon ServiceState) (current : WatcherState)
      (fingerprint reason : String) (untilMs : Nat),
      Pool.Reachable Sample.codexDaemon Sample.codexWorld (Punctual "watcher-1")
        ⟨.single Sample.codexWaiting,.fresh⟩ P ∧
      Pool.Step Sample.codexWorld P
        (.act 1 ⟨.daemon (.beginAction "watcher-1" fingerprint),some current⟩) P' ∧
      current.lifecycle = .waiting untilMs reason ∧
      (untilMs : Int) * 1000000 ≤ Sample.instant 280 := by
  have hr : Pool.Reachable Sample.codexDaemon Sample.codexWorld (Punctual "watcher-1")
      ⟨.single Sample.codexWaiting,.fresh⟩ (Sample.resuming Sample.observedLate 1 280) :=
    (Pool.Reachable.init.play_at Sample.punctual _ Sample.punctual_of_punctual
      (by decide +kernel)).play_at Sample.punctual _ Sample.punctual_of_punctual (by decide +kernel)
  obtain ⟨current,t,action,hstep,ht,hcall,haction,hresume,hwaits⟩ := Sample.resume_begins
    Sample.observedLate 1 280 "aaaaaaaaaaaaaaaaaaaaaaaaaaaaaaa6" (by decide +kernel)
  exact ⟨_,_,_,_,_,_,hr,hstep,hwaits,
    resume_after_deadline Sample.noManifests Sample.owner genericObserves _ "watcher-1"
      (Registry.single_keyed _) _ _ 1 t _ _ action _ _ _ _ hr hstep ht hcall haction hresume hwaits⟩

/-- The deadline of the wait is 269 seconds after its begin, and the resume is begun for what was
observed after 70. -/
theorem resume_before_deadline :
    let _ := Sample.codexClocks
    let _ := Sample.render
    let _ := Sample.checksumDigest
    ∃ (P P' : Pool Sample.codexDaemon ServiceState) (t : Thread Sample.codexDaemon)
      (w current : WatcherState) (action : Action) (fingerprint reason : String) (untilMs : Nat),
      Pool.Reachable Sample.codexDaemon Sample.codexWorld ByLoop
        ⟨.single Sample.codexRestored,.fresh⟩ P ∧
      (∃ job ∈ P.threads, job.history = Sample.capacityWaitJob.events) ∧
      Pool.Step Sample.codexWorld P
        (.act 2 ⟨.daemon (.beginAction "watcher-1" fingerprint),some current⟩) P' ∧
      P.threads[2]? = some t ∧ t.call = .recover w (Sample.instant 70) ∧
      CompositeRecipes.actionFor Sample.noManifests w = some action ∧
      action.actionId = CodexRecipes.resumeId ∧ current.lifecycle = .waiting untilMs reason ∧
      ¬ (untilMs : Int) * 1000000 ≤ Sample.instant 70 := by
  have hr : Pool.Reachable Sample.codexDaemon Sample.codexWorld ByLoop
      ⟨.single Sample.codexRestored,.fresh⟩ (Sample.resuming Sample.observedEarly 2 70) :=
    (Pool.Reachable.init.play_at Sample.byLoop _ Sample.byLoop_of_byLoop
      (by decide +kernel)).play_at Sample.byLoop _ Sample.byLoop_of_byLoop (by decide +kernel)
  obtain ⟨wait,hwait,hhistory⟩ := List.any_eq_true.1 (by decide +kernel :
    ((Sample.resuming Sample.observedEarly 2 70).threads.any fun t => decide (t.history =
      Sample.capacityWaitJob.events)) = true)
  obtain ⟨current,t,action,hstep,ht,hcall,haction,hresume,hwaits⟩ := Sample.resume_begins
    Sample.observedEarly 2 70 "aaaaaaaaaaaaaaaaaaaaaaaaaaaaaaa0" (by decide +kernel)
  exact ⟨_,_,t,_,_,action,_,_,_,hr,⟨wait,hwait,of_decide_eq_true hhistory⟩,hstep,ht,hcall,
    haction,hresume,hwaits,by decide⟩

end WatchMe
