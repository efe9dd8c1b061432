import WatchMe.Daemon.Loop
import WatchMe.Daemon.ServiceTraces

/-! # Updates between a read and a commit of the loop

The loop holds the lock while it reads the watchers and again while it commits, and observes in
between. A commit replaces the schedule of its watcher by one that was computed at the read, so
a wake that was stored in between is lost, and so is a deadline, unless it is the loop's own.
-/
namespace WatchMe
open Effects Program Service

def Registry.pendingOf (R : Registry) (id : String) : Option Bool :=
  (R.get id).map (·.observationSchedule.eventWakePending)

def Registry.dueOf (R : Registry) (id : String) : Option Nat :=
  (R.get id).map (·.observationSchedule.nextDueWallMs)

def Wakes (id : String) (s : ServiceState) (l : Label serviceSig ServiceCall) (s' : ServiceState) :
    Prop :=
  (∃ i fingerprint answer, l = .act i ⟨.handle (.wakeObservation id fingerprint),answer⟩) ∧
    s.registry.pendingOf id = some false ∧ s'.registry.pendingOf id = some true

def Postpones (id : String) (deadline : Nat) (_ : ServiceState) (l : Label serviceSig ServiceCall)
    (s' : ServiceState) : Prop :=
  (∃ i now answer, l = .act i ⟨.daemon (.scheduleWait id deadline now),answer⟩) ∧
    s'.registry.dueOf id = some deadline

theorem observed_schedule {schedule : ObservationSchedule} {event : Option Event} {now : Nat}
    {w w' : WatcherState} (h : Registry.observed schedule event now w = .ok w') :
    w'.observationSchedule = Registry.served schedule now := by
  cases event with
  | none =>
    cases h
    rfl
  | some event =>
    cases h.symm.trans (Registry.observed_eq schedule event now w)
    rfl

section Commit
variable [JsonText] {R R' : Registry} {id : String} {schedule : ObservationSchedule}
  {event : Option Event} {now : Nat} {host : WriteOutcome}

theorem commit_result {result : Except RegistryError Unit}
    (h : R.commitObservation id schedule event now host = (result,R')) :
    (committedWatcher result R' id = none → R'.watchers = R.watchers) ∧
      (committedWatcher result R' id ≠ none → ∃ v v' later, R.get id = some v ∧
        Registry.observed schedule event now v = .ok v' ∧
        R'.get id = some { v' with revision := v'.revision + 1, updatedAtUnixMs := later }) := by
  have hp := RegistryCall.perform_performed (.commitObservation id schedule event now) R host
  rw [RegistryCall.perform,h] at hp
  cases result with
  | error error => exact ⟨fun _ => hp.disciplined.failed error rfl,fun h => (h rfl).elim⟩
  | ok =>
    obtain ⟨v,v',later,hv,hedit,hnext⟩ := hp.stored_edit rfl rfl
    have hget : R'.get id = some { v' with revision := v'.revision + 1, updatedAtUnixMs := later } := by
      rw [Registry.get,hnext,StrMap.getElem?_insert,if_pos rfl]
    refine ⟨fun hnone => ?_,fun _ => ⟨v,v',later,hv,hedit,hget⟩⟩
    rw [committedWatcher,hget] at hnone
    cases hnone

end Commit

section Runs
variable [Chrono] [Render] [Digest] [JsonText] {recipes : WatcherState → Option Action}
  {owner : OwnerIdentity} {observes : Observes}
  {D : Discipline serviceSig ServiceCall Unit ServiceState} {init : ServiceState}

/-- Between the read of a round and a commit of it, in any interleaving: the commit brings the
schedule that was computed from the read. If it fails it changes nothing. If it succeeds, a wake
of the window is still pending exactly when there was none, and the deadlines stored in the
window are still there exactly when each is the one that the loop commits itself. -/
theorem window_updates_kept_iff {P₀ P₁ P₂ P₃ : Pool (serviceMachine recipes owner) ServiceState}
    {ls : List (Label serviceSig ServiceCall)} {i : Nat} {t : Thread (serviceMachine recipes owner)}
    {read : List WatcherState} {id : String} {schedule : ObservationSchedule}
    {event : Option Event} {answer : Option WatcherState}
    (hr : Pool.Reachable (serviceMachine recipes owner) (serviceWorld observes) D init P₀)
    (ht : P₀.threads[i]? = some t) (hloop : t.call = .observationLoop)
    (hread : Pool.Step (serviceWorld observes) P₀ (.act i ⟨.list,read⟩) P₁)
    (hwindow : Pool.Path (serviceWorld observes) P₁ ls P₂)
    (hround : ∀ e, .act i e ∈ ls → e.op ≠ .list)
    (hcommit : Pool.Step (serviceWorld observes) P₂
      (.act i ⟨.commit id schedule event,answer⟩) P₃) :
    (∃ w ∈ read, w.watcherId = id ∧ ∃ now result,
      schedule = recordResult (nextSchedule w now) result ∧ event = result.event) ∧
    (answer = none → P₃.shared.registry.watchers = P₂.shared.registry.watchers) ∧
    (answer ≠ none →
      ((Pool.Passes (serviceWorld observes) (Wakes id) P₁ ls P₂ →
          P₃.shared.registry.pendingOf id = some true) ↔
        ¬ Pool.Passes (serviceWorld observes) (Wakes id) P₁ ls P₂) ∧
      ((∀ deadline, Pool.Passes (serviceWorld observes) (Postpones id deadline) P₁ ls P₂ →
          P₃.shared.registry.dueOf id = some deadline) ↔
        ∀ deadline, Pool.Passes (serviceWorld observes) (Postpones id deadline) P₁ ls P₂ →
          deadline = schedule.nextDueWallMs)) := by
  have hreach : Pool.Reachable (serviceMachine recipes owner) (serviceWorld observes)
      (fun _ _ => True) init P₂ :=
    hwindow.reachable (fun _ _ _ => trivial)
      ((hr.mono fun _ _ _ => trivial).step trivial hread)
  -- the history of the loop since the read holds no other read
  obtain ⟨u,hu,huc,huh⟩ := hread.history ht
  obtain ⟨v,hv,hvc,hvh⟩ := hwindow.history hu
  have hown : lastRead v.history = some read := by
    rw [hvh,lastRead_append,huh]
    · exact (congrArg lastRead (by simp [Label.own])).trans (lastRead_list t.history read)
    · intro e he
      obtain ⟨l,hl,hle⟩ := List.mem_filterMap.1 he
      cases l with
      | act =>
        simp only [Label.own] at hle
        split at hle
        · next hj =>
          cases hle
          exact hround e (hj ▸ hl)
        · cases hle
      | spawn | crash => cases hle
  cases hcommit with
  | act _ v' _ s shared hv' _ hm hw =>
    obtain rfl := Option.some.inj (hv.symm.trans hv')
    have hruns := hreach.runs_at hv
    rw [hvc,huc,hloop] at hruns
    obtain ⟨read',w,now,time,result,-,hread',hw',hid,hschedule,hevent,-⟩ := loop_commit hruns hm
    obtain rfl := Option.some.inj (hown.symm.trans hread')
    obtain ⟨-,later,host,outcome,hcall,rfl⟩ := hw
    refine ⟨⟨w,hw',hid,now,result,hschedule,hevent⟩,(commit_result hcall).1,fun hanswer => ?_⟩
    obtain ⟨_,_,_,-,hedit,hget⟩ := (commit_result hcall).2 hanswer
    have hserved := observed_schedule hedit
    have hdue : shared.registry.dueOf id = some schedule.nextDueWallMs := by
      rw [Registry.dueOf,hget,Option.map_some,hserved]
      rfl
    constructor
    · simp [Registry.pendingOf,hget,hserved,Registry.served]
    · simp only [hdue,Option.some.injEq,eq_comm]

end Runs

namespace Sample
open Registry

def windowSchedule : ObservationSchedule :=
  recordResult (nextSchedule claudeRestored startMs) ⟨some firstLimit,none⟩

def firstHost : Host world := host (around 0 0 firstEvidence)

def reading : Pool daemon ServiceState :=
  (opened claudeRestored).play [.spawn .observationLoop,.act 0 firstHost,.act 0 firstHost]

def read : Pool daemon ServiceState := reading.next (.act 0 firstHost)

def watched : Pool daemon ServiceState := read.next (.act 0 firstHost)

def woken : Pool daemon ServiceState :=
  (watched.next (.spawn (.serve (.wakeObservation "watcher-1" laterFingerprint)) : Move world _)).next
    (.act 1 firstHost)

theorem reading_reached :
    Pool.Reachable daemon world (fun _ _ => True) ⟨single claudeRestored,.fresh⟩ reading :=
  Pool.Reachable.init.play _ fun _ _ _ => trivial

theorem reading_reads : Pool.Step world reading (.act 0 ⟨.list,[claudeRestored]⟩) read :=
  Pool.step_next firstHost (by decide) (by decide)

theorem read_observes : ∃ answer,
    Pool.Step world read (.act 0 ⟨.observe claudeRestored,answer⟩) watched :=
  ⟨_,Pool.step_next firstHost (by decide) rfl⟩

theorem asks_commit : watched.asks 0 = some (.commit "watcher-1" windowSchedule (some firstLimit)) ∧
    woken.asks 0 = some (.commit "watcher-1" windowSchedule (some firstLimit)) := by
  decide +kernel

theorem commits {P : Pool daemon ServiceState}
    (hop : P.asks 0 = some (.commit "watcher-1" windowSchedule (some firstLimit)))
    (hr : (firstHost.answer P.shared (.commit "watcher-1" windowSchedule
      (some firstLimit))).1.isSome = true) :
    ∃ w, Pool.Step world P (.act 0 ⟨.commit "watcher-1" windowSchedule (some firstLimit),some w⟩)
      (P.next (.act 0 firstHost)) := by
  obtain ⟨w,hw⟩ := Option.isSome_iff_exists.1 hr
  exact ⟨w,Pool.step_next firstHost hop hw⟩

end Sample

attribute [local instance] Sample.clocks Sample.render Sample.digest Sample.snapshotBytes
  Sample.jsonText

theorem window_updates_kept_iff_quiet :
    ∃ (P₀ P₁ P₂ P₃ : Pool Sample.daemon ServiceState) (ls : List (Label serviceSig ServiceCall))
      (w : WatcherState),
      Pool.Reachable Sample.daemon Sample.world (fun _ _ => True)
        ⟨.single Sample.claudeRestored,.fresh⟩ P₀ ∧
      Pool.Step Sample.world P₀ (.act 0 ⟨.list,[Sample.claudeRestored]⟩) P₁ ∧
      Pool.Path Sample.world P₁ ls P₂ ∧
      Pool.Step Sample.world P₂ (.act 0 ⟨.commit "watcher-1" Sample.windowSchedule
        (some Sample.firstLimit),some w⟩) P₃ ∧
      ((Pool.Passes Sample.world (Wakes "watcher-1") P₁ ls P₂ →
          P₃.shared.registry.pendingOf "watcher-1" = some true) ↔
        ¬ Pool.Passes Sample.world (Wakes "watcher-1") P₁ ls P₂) := by
  obtain ⟨answer,hobserve⟩ := Sample.read_observes
  obtain ⟨w,hcommit⟩ := Sample.commits Sample.asks_commit.1 (by decide)
  obtain ⟨t,ht,hloop⟩ := Pool.exists_thread (l := Sample.reading.threads)
    (fun t => decide (t.call = .observationLoop)) (by decide)
  have hround : ∀ e : ServiceEvent, Label.act 0 e ∈ [Label.act (κ := ServiceCall) 0
      (⟨.observe Sample.claudeRestored,answer⟩ : ServiceEvent)] → e.op ≠ .list := by
    intro e he
    cases List.mem_singleton.1 he
    simp
  have hwindow := Pool.Path.cons hobserve (.nil Sample.watched)
  have hkept := window_updates_kept_iff Sample.reading_reached (by rw [ht]; rfl)
    (of_decide_eq_true hloop) Sample.reading_reads hwindow hround hcommit
  exact ⟨_,_,_,_,_,w,Sample.reading_reached,Sample.reading_reads,hwindow,hcommit,
    (hkept.2.2 nofun).1⟩

/-- A user wakes the watcher while the loop observes it; after the commit no wake is pending. -/
theorem wake_lost :
    ∃ (P₀ P₁ P₂ P₃ : Pool Sample.daemon ServiceState) (ls : List (Label serviceSig ServiceCall))
      (w : WatcherState),
      Pool.Reachable Sample.daemon Sample.world (fun _ _ => True)
        ⟨.single Sample.claudeRestored,.fresh⟩ P₀ ∧
      Pool.Step Sample.world P₀ (.act 0 ⟨.list,[Sample.claudeRestored]⟩) P₁ ∧
      Pool.Path Sample.world P₁ ls P₂ ∧
      Pool.Step Sample.world P₂ (.act 0 ⟨.commit "watcher-1" Sample.windowSchedule
        (some Sample.firstLimit),some w⟩) P₃ ∧
      Pool.Passes Sample.world (Wakes "watcher-1") P₁ ls P₂ ∧
      P₃.shared.registry.pendingOf "watcher-1" = some false := by
  obtain ⟨answer,hobserve⟩ := Sample.read_observes
  have hwindow : Pool.Path Sample.world Sample.read _ _ :=
    .cons hobserve (.cons (.spawn Sample.watched (.serve (.wakeObservation "watcher-1"
      Sample.laterFingerprint))) (.nil _))
  have hwake : Pool.Step Sample.world (Sample.watched.next (.spawn (.serve (.wakeObservation
      "watcher-1" Sample.laterFingerprint)) : Move Sample.world _)) (.act 1 ⟨.handle
        (.wakeObservation "watcher-1" Sample.laterFingerprint),_⟩) _ :=
    Pool.step_next Sample.firstHost (by decide) rfl
  obtain ⟨w,hcommit⟩ := Sample.commits Sample.asks_commit.2 (by decide)
  refine ⟨_,_,_,_,_,w,Sample.reading_reached,Sample.reading_reads,
    hwindow.append (.cons hwake (.nil _)),hcommit,
    ⟨_,_,[],_,_,rfl,hwindow,hwake,.nil _,⟨_,_,_,rfl⟩,?_,?_⟩,?_⟩
  · decide
  · decide
  · decide

end WatchMe
