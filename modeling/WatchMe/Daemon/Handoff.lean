import WatchMe.Daemon.ServiceTraces

/-! # Hand-off to a human

A recovery that fails or may have had a side effect hands its watcher to a human. The daemon takes
the watcher back in two ways of its own. The load after a restart leaves the lifecycle but resets
the machine, and the next event that is committed reads the reset machine as permission to observe
again. And a job that is still running when the end of the daemon hands its watcher over may come to
schedule a wait.
-/
namespace WatchMe
open Effects Program Transaction Service

def Sticky : WatcherLifecycle → Prop
  | .paused | .stopped _ | .targetTerminated => True
  | .humanRequired reason => reason ≠ restartRevalidationReason
  | _ => False

def WatcherState.needsRevalidation (w : WatcherState) : Bool :=
  w.recovery.any (·.state == .needsRevalidation)

def WatcherState.HandedOff (w : WatcherState) : Prop :=
  ∃ reason, w.lifecycle = .humanRequired reason

/-- The request is one of those by which a user decides about the watcher. -/
def Request.Concerns (R : Registry) (id : String) : Request → Prop
  | .pause i | .resume i => i = id
  | .stop named all => all = true ∨ named = some id
  | .register watcher => R.resolves watcher = some id
  | _ => False

/-- A user decides about the watcher, or the monitor found its process gone. -/
def Released (id : String) (R : Registry) : ServiceEvent → Prop
  | ⟨.handle request,_⟩ => request.Concerns R id
  | ⟨.monitor,decide⟩ => ∃ w ∈ R.list, w.watcherId = id ∧ decide w = .terminate
  | _ => False

/-- An event is committed for the watcher while its machine waits for revalidation, or a job
that is still running schedules a wait for it or stops it. -/
def TakenBack (id : String) (R : Registry) : ServiceEvent → Prop
  | ⟨.commit i _ (some _),_⟩ =>
    i = id ∧ ∃ w, R.get id = some w ∧ w.needsRevalidation = true
  | ⟨.daemon (.scheduleWait i _ _),_⟩ => i = id
  | ⟨.daemon (.registry (.transition i (.stopped _) _)),_⟩ => i = id
  | _ => False

def Unreleased (id : String) : ServiceDiscipline
  | V, .act _ e => ¬ Released id V.shared.registry e
  | _, _ => True

def Kept (id : String) : ServiceDiscipline
  | V, .act _ e => ¬ Released id V.shared.registry e ∧ ¬ TakenBack id V.shared.registry e
  | _, _ => True

theorem observed_lifecycle {schedule : ObservationSchedule} {event : Option Event} {now : Nat}
    {w w' : WatcherState} (h : Registry.observed schedule event now w = .ok w') :
    w'.lifecycle = if event.isSome && w.needsRevalidation then .observing else w.lifecycle := by
  cases event with
  | none =>
    cases h
    rfl
  | some event =>
    cases h.symm.trans (Registry.observed_eq schedule event now w)
    simp [Registry.lifecycleAfter,WatcherState.needsRevalidation]

section Commit
variable [JsonText]

/-- A commit leaves the lifecycle of a watcher that a user or a hand-off has taken out of
observation, unless it stores an event while the machine waits for revalidation. -/
theorem commit_lifecycle_iff {R R' : Registry} {id : String} {w : WatcherState}
    {schedule : ObservationSchedule} {event : Option Event} {now : Nat} {host : WriteOutcome}
    {answer : Except RegistryError Unit} (hw : R.get id = some w) (hsticky : Sticky w.lifecycle)
    (h : R.commitObservation id schedule event now host = (answer,R')) :
    (R'.get id).map (·.lifecycle) = some w.lifecycle ↔
      ¬ (answer = .ok () ∧ event.isSome = true ∧ w.needsRevalidation = true) := by
  have hp := RegistryCall.perform_performed (.commitObservation id schedule event now) R host
  rw [RegistryCall.perform,h] at hp
  cases answer with
  | error error =>
    have hsame := hp.disciplined.failed error rfl
    simp only [reduceCtorEq,false_and,not_false_eq_true,iff_true]
    rw [Registry.get,show R'.watchers = R.watchers from hsame]
    exact congrArg (Option.map _) hw
  | ok =>
    obtain ⟨v,v',later,hv,hedit,hnext⟩ := hp.stored_edit rfl rfl
    obtain rfl := Option.some.inj (hw.symm.trans hv)
    have hlifecycle := observed_lifecycle hedit
    have hget : R'.get id = some { v' with revision := v'.revision + 1, updatedAtUnixMs := later } := by
      rw [Registry.get,hnext,StrMap.getElem?_insert,if_pos rfl]
    rw [hget]
    simp only [Option.map_some,Option.some.injEq,hlifecycle,true_and]
    by_cases hreopens : event.isSome = true ∧ w.needsRevalidation = true
    · have hne : WatcherLifecycle.observing ≠ w.lifecycle := by
        intro heq
        rw [← heq] at hsticky
        exact hsticky
      simp [hreopens.1,hreopens.2,hne]
    · have hfalse : (event.isSome && w.needsRevalidation) = false := by
        rw [← Bool.not_eq_true,Bool.and_eq_true]
        exact hreopens
      simp only [hfalse,Bool.false_eq_true,if_false,hreopens,not_false_eq_true]

end Commit

theorem handedOff_edit {id : String} {R₀ R : Registry} {e : ServiceEvent} {c : RegistryCall}
    {v v' : WatcherState} (hrelease : ¬ Released id R₀ e) (htaken : ¬ TakenBack id R₀ e)
    (hissued : Issued e.op) (hc : EventCalls R₀ e R c) (hv : R.watchers[id]? = some v)
    (hhanded : v.HandedOff) (hedit : RegistryCall.Edit v v' c) (habout : c.about R = some id) :
    v'.HandedOff := by
  cases hc with
  | registry =>
    cases hissued with
    | handOff i reason =>
      cases hedit
      exact ⟨reason,rfl⟩
    | stop => exact (htaken (Option.some.inj habout)).elim
    | succeeded =>
      obtain ⟨m,m',-,-,rfl⟩ := hedit
      exact hhanded
  | beginAction =>
    obtain ⟨m,m',-,-,rfl⟩ := hedit
    exact hhanded
  | markResume | postpone =>
    cases hedit
    exact hhanded
  | wait => exact (htaken (Option.some.inj habout)).elim
  | commit i schedule event =>
    obtain rfl := Option.some.inj habout
    have hlifecycle := observed_lifecycle hedit
    cases event with
    | none => exact hhanded.imp fun reason h => hlifecycle.trans h
    | some =>
      have hnot : v.needsRevalidation = false := by
        rw [← Bool.not_eq_true]
        exact fun h => htaken ⟨rfl,v,hv,h⟩
      rw [hnot,Bool.and_false] at hlifecycle
      exact hhanded.imp fun reason h => hlifecycle.trans h
  | serve request c answer R hcalls =>
    cases hcalls with
    | wake =>
      cases hedit
      exact hhanded
    | register => exact (hrelease habout).elim
    | stop => exact (hrelease (.inr habout)).elim
    | pause | resume => exact (hrelease (Option.some.inj habout)).elim
    | stopAll => exact (hrelease (.inl rfl)).elim
  | monitor decide now w c R hlist hmonitor =>
    rcases Registry.monitorCall_cases hmonitor with ⟨process,-,rfl⟩ | ⟨hdecide,rfl⟩
    · cases hedit
      exact hhanded
    · exact (hrelease ⟨w,hlist,Option.some.inj habout,hdecide⟩).elim

section Runs
variable [Chrono] [Render] [Digest] [JsonText]

/-- In every run in which no event is committed for the watcher while its machine waits for
revalidation, and no running job schedules a wait for it or stops it, a watcher that a task
handed to a human stays handed off until a user decides about it or its process is gone. A
commit changes the lifecycle of such a watcher exactly when the first condition fails. -/
theorem handoff_sticky (recipes : WatcherState → Option Action) (owner : OwnerIdentity)
    (observes : Observes) (init : ServiceState) (hinit : init.registry.Keyed) :
    (∀ (R R' : Registry) (id : String) (w : WatcherState) (schedule : ObservationSchedule)
      (event : Option Event) (now : Nat) (host : WriteOutcome)
      (answer : Except RegistryError Unit), R.get id = some w → Sticky w.lifecycle →
      R.commitObservation id schedule event now host = (answer,R') →
      ((R'.get id).map (·.lifecycle) = some w.lifecycle ↔
        ¬ (answer = .ok () ∧ event.isSome = true ∧ w.needsRevalidation = true))) ∧
    ∀ (P₀ P₁ P₂ : Pool (serviceMachine recipes owner) ServiceState) (i : Nat)
      (id reason : String) (now : Nat) (reply : RegistryReply),
      Pool.Reachable (serviceMachine recipes owner) (serviceWorld observes) (fun _ _ => True) init
        P₀ →
      Pool.Step (serviceWorld observes) P₀ (.act i ⟨.daemon (.registry
        (.transition id (.humanRequired reason) now)),.ok reply⟩) P₁ →
      Pool.Leads (serviceWorld observes) (Kept id) P₁ P₂ →
      ∃ w, P₂.shared.registry.get id = some w ∧ w.HandedOff := by
  refine ⟨fun R R' id w schedule event now host answer hw hsticky h =>
    commit_lifecycle_iff hw hsticky h,?_⟩
  intro P₀ P₁ P₂ i id reason now reply hr hhand hlead
  have hhanded : P₁.shared.registry.Has id WatcherState.HandedOff := by
    have hkeyed := service_keyed hinit hr
    cases hhand with
    | act _ t _ s shared _ _ _ hw =>
      obtain ⟨⟨host,hcall⟩,-⟩ := hw
      have hp := RegistryCall.perform_performed
        (.transition id (.humanRequired reason) now) P₀.shared.registry host
      rw [hcall] at hp
      refine .of_stored hkeyed hp rfl rfl fun v v' later _ hedit => ?_
      cases hedit
      exact ⟨reason,rfl⟩
  have hhas := has_leads (D := Kept id) (hr.step trivial hhand) (fun _ _ _ => trivial) hlead
    hhanded ?_ ?_
  · obtain ⟨w,hw,hψ⟩ := hhas.memory
    exact ⟨w,hw,hψ⟩
  · rintro w ⟨reason',hw⟩
    exact ⟨reason',by simp [Registry.afterRestart,hw,Registry.endsAtRestart]⟩
  · intro V j e R c v v' later hd hissued hc hv hψ hedit habout
    exact (handedOff_edit hd.1 hd.2 hissued hc hv hψ hedit habout).imp fun _ h => h

end Runs

theorem unreleased_of_unasked {l : Label serviceSig ServiceCall} {id : String}
    (h : unasked l = true) (V : PoolView serviceSig ServiceCall Unit ServiceState) :
    Unreleased id V l := by
  rcases l with call | ⟨i,⟨op,answer⟩⟩ | _
  · trivial
  · cases op with
    | handle | monitor => cases h
    | _ => exact fun h => h
  · trivial

namespace Sample
open Registry

def reviewed : String := reviewReason (.revalidation "evidence fingerprint changed")

/-- The job of the first limit is about to hand the watcher off: the evidence it has read is not
the one its action is for. -/
def refused : Pool daemon ServiceState :=
  (opened claudeRestored).play (.spawn .observationLoop :: acts 0 5 (around 0 0 firstEvidence) ++
    .spawn (.recover claudeLimited (instant 0)) :: acts 1 5 (around 0 5000 working))

def handing : Pool daemon ServiceState := refused.next (.act 1 (host (around 0 5000 working)))

theorem refused_reached :
    Pool.Reachable daemon world (fun _ _ => True) ⟨single claudeRestored,.fresh⟩ refused :=
  Pool.Reachable.init.play _ fun _ _ _ => trivial

theorem refused_hands : Pool.Step world refused (.act 1 ⟨.daemon (.registry
    (.transition "watcher-1" (.humanRequired reviewed) startMs)),.ok .done⟩) handing :=
  Pool.step_next (host (around 0 5000 working)) (by decide +kernel) (by decide +kernel)

def reloaded : Registry :=
  (@load clocks.toChrono jsonText handing.shared.registry.disk durable).1.toOption.getD
    handing.shared.registry

def restarted : Pool daemon ServiceState := ⟨⟨reloaded,.fresh⟩,handing.threads.map Thread.kill⟩

theorem handing_restarts : Pool.Step world handing .crash restarted :=
  .crash handing _ ⟨@Reloads.loaded clocks.toChrono jsonText _ durable _ (by decide +kernel),
    by decide +kernel⟩

def observedAgain : List (Move world ServiceCall) :=
  .spawn .observationLoop :: acts 2 5 (around 70 70000 firstEvidence)

end Sample

attribute [local instance] Sample.clocks Sample.render Sample.digest Sample.snapshotBytes
  Sample.jsonText

theorem handoff_sticky_restart :
    ∃ (P₀ P₁ P₂ : Pool Sample.daemon ServiceState) (w : WatcherState),
      Pool.Reachable Sample.daemon Sample.world (fun _ _ => True)
        ⟨.single Sample.claudeRestored,.fresh⟩ P₀ ∧
      Pool.Step Sample.world P₀ (.act 1 ⟨.daemon (.registry (.transition "watcher-1"
        (.humanRequired Sample.reviewed) Sample.startMs)),.ok .done⟩) P₁ ∧
      Pool.Step Sample.world P₁ .crash P₂ ∧ P₂.shared.registry.get "watcher-1" = some w ∧
      w.HandedOff := by
  obtain ⟨w,hw,hhanded⟩ := (handoff_sticky (CompositeRecipes.actionFor Sample.noManifests)
    Sample.owner genericObserves ⟨.single Sample.claudeRestored,.fresh⟩
    (Registry.single_keyed Sample.claudeRestored)).2 Sample.refused Sample.handing _ 1 "watcher-1"
    Sample.reviewed Sample.startMs .done Sample.refused_reached Sample.refused_hands
    (Pool.Leads.refl.step (l := .crash) trivial Sample.handing_restarts)
  exact ⟨_,_,_,w,Sample.refused_reached,Sample.refused_hands,Sample.handing_restarts,hw,hhanded⟩

/-- After the restart the limit is observed again, and the watcher is no longer handed off. -/
theorem handoff_undone :
    ∃ (P₀ P₁ P₂ : Pool Sample.daemon ServiceState) (w : WatcherState),
      Pool.Reachable Sample.daemon Sample.world (fun _ _ => True)
        ⟨.single Sample.claudeRestored,.fresh⟩ P₀ ∧
      Pool.Step Sample.world P₀ (.act 1 ⟨.daemon (.registry (.transition "watcher-1"
        (.humanRequired Sample.reviewed) Sample.startMs)),.ok .done⟩) P₁ ∧
      Pool.Leads Sample.world (Unreleased "watcher-1") P₁ P₂ ∧
      P₂.shared.registry.get "watcher-1" = some w ∧ w.lifecycle = .observing := by
  have hobserved : ((Sample.restarted.play Sample.observedAgain).shared.registry.get
      "watcher-1").map (·.lifecycle) = some .observing := by
    decide +kernel
  obtain ⟨w,hw,hlifecycle⟩ := Option.map_eq_some_iff.1 hobserved
  refine ⟨_,_,_,w,Sample.refused_reached,Sample.refused_hands,
    (Pool.Path.cons Sample.handing_restarts (Pool.path_play _ Sample.observedAgain)).leads ?_,hw,
    hlifecycle⟩
  have hunasked : (Sample.restarted.labels Sample.observedAgain).all unasked = true := by
    decide +kernel
  intro V l hl
  rcases List.mem_cons.1 hl with rfl | hl
  · trivial
  · exact unreleased_of_unasked (List.all_eq_true.1 hunasked l hl) V

end WatchMe
