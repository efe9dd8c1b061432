import WatchMe.Daemon.Dispatch
import WatchMe.Daemon.RegistryRuns
import WatchMe.Recovery.MachineRuns

/-! # What an observation does to the recovery machine

`observed_eq` gives `commit_observation` in closed form: its machine commands are only
issued in states that allow them, so the commit itself never fails on them.
-/
namespace WatchMe
open RecoveryMachine
variable {m : RecoveryMachine} {w : WatcherState} {R : Registry} {h : List RegistryEvent}

namespace Registry

def rearms (lifecycle : WatcherLifecycle) (machine : RecoveryMachine) (event : Event) : Bool :=
  machine.state == .recovered
    && (resumesAfterWait lifecycle event || freshClaudeLimitAfterMenu machine event)

/-- The machine as the event finds it: revalidated after a restart, or rearmed. -/
def readied (lifecycle : WatcherLifecycle) (machine : RecoveryMachine) (event : Event) :
    RecoveryMachine :=
  if machine.state = .needsRevalidation then machine.advanced .observing
  else if rearms lifecycle machine event then { machine with current := none }.advanced .observing
  else machine

def confirmedBy (schedule : ObservationSchedule) (event : Event) (machine : RecoveryMachine) :
    RecoveryMachine :=
  if event.category.isActionable && screenIsStable schedule event && machine.state == .observing
  then { machine.advanced .confirmed with current := some event.evidenceFingerprint }
  else machine

def lifecycleAfter (watcher : WatcherState) : WatcherLifecycle :=
  if watcher.recovery.any (·.state == .needsRevalidation) then .observing else watcher.lifecycle

def machineAfter (schedule : ObservationSchedule) (watcher : WatcherState) (event : Event) :
    Option RecoveryMachine :=
  watcher.recovery.map fun machine =>
    confirmedBy schedule event (readied watcher.lifecycle machine event)

theorem applyIf_eq {condition : Bool} {m' : RecoveryMachine} {command : RecoveryCommand}
    (h : condition = true → m.applied command = .ok m') :
    applyIf condition m command = .ok (if condition then m' else m) := by
  cases condition with
  | false => rfl
  | true =>
    simp only [applyIf,applyCommand,h rfl,if_true]
    rfl

theorem observedBy_ok (w : WatcherState) (machine : RecoveryMachine) (event : Event) :
    observedBy w machine event = .ok { w with
      lifecycle := if machine.state = .needsRevalidation then .observing else w.lifecycle
      recovery := some (confirmedBy w.observationSchedule event
        (readied w.lifecycle machine event)) } := by
  have hrevalidated : (machine.state == .needsRevalidation) = true →
      machine.applied .revalidated = .ok (machine.advanced .observing) := by
    intro h
    refine (applied_ok_iff (fun _ _ _ h => by cases h)).2 (.revalidated ?_)
    rw [beq_iff_eq.1 h]
    rfl
  have hrearmed : ∀ (m : RecoveryMachine) (b : Bool), (m.state == .recovered && b) = true →
      m.applied .rearmAfterWait = .ok ({ m with current := none }.advanced .observing) := by
    intro m b h
    rw [Bool.and_eq_true,beq_iff_eq] at h
    exact (applied_ok_iff (fun _ _ _ h => by cases h)).2 (.rearmed h.1)
  have hconfirmed : ∀ (m : RecoveryMachine) (b : Bool), (b && m.state == .observing) = true →
      m.applied (.confirm event.evidenceFingerprint) = .ok
        { m.advanced .confirmed with current := some event.evidenceFingerprint } := by
    intro m b h
    rw [Bool.and_eq_true,beq_iff_eq] at h
    refine (applied_ok_iff (fun _ _ _ h => by cases h)).2 (.confirmed _ ?_)
    rw [h.2]
    rfl
  unfold observedBy
  refine bind_ok_iff.2 ⟨_,applyIf_eq hrevalidated,?_⟩
  refine bind_ok_iff.2 ⟨_,applyIf_eq (hrearmed _ _),?_⟩
  refine bind_ok_iff.2 ⟨_,applyIf_eq (hconfirmed _ _),?_⟩
  by_cases hstate : machine.state = .needsRevalidation
  · simp [hstate,readied,confirmedBy,advanced,moved,pure,Except.pure]
  · simp [hstate,readied,confirmedBy,rearms,pure,Except.pure]

theorem confirmedBy_frame (schedule : ObservationSchedule) (event : Event)
    (lifecycle : WatcherLifecycle) (m : RecoveryMachine) :
    let m' := confirmedBy schedule event (readied lifecycle m event)
    m'.budget = m.budget ∧ m'.cumulativeWait = m.cumulativeWait ∧ m'.completed = m.completed := by
  unfold confirmedBy readied
  refine ⟨?_,?_,?_⟩ <;> split <;> split <;> first | rfl | (split <;> rfl)

theorem observed_eq (schedule : ObservationSchedule) (event : Event) (now : Nat)
    (w : WatcherState) : observed schedule (some event) now w = .ok { w with
      observationSchedule := served schedule now
      lifecycle := lifecycleAfter w
      recovery := machineAfter schedule w event
      lastObservation := some event } := by
  unfold observed observedMachine lifecycleAfter machineAfter
  cases hrec : w.recovery with
  | none => simp [Except.map]
  | some =>
    simp only [observedBy_ok,Except.map]
    -- serving the wake leaves the count of stable screens
    simp [confirmedBy,show screenIsStable (served schedule now) event =
      screenIsStable schedule event from rfl]

end Registry

def RegistryCall.targetAfter (w : WatcherState) : RegistryCall → TargetIdentity
  | .retargetProcess _ process _ => w.target.withProcess process
  | _ => w.target

theorem RegistryCall.Edit.frame {c : RegistryCall} {w w' : WatcherState} (h : c.Edit w w')
    (hc : ∀ fresh, c ≠ .register fresh) : w'.target = c.targetAfter w ∧
      w'.codexSession = w.codexSession ∧ w'.claudeSession = w.claudeSession ∧
      w'.recovery.isSome = (w.recovery.isSome || c.recovery.isSome) := by
  cases c with
  | register fresh => exact (hc fresh rfl).elim
  | persistRecovery =>
    cases h
    exact ⟨rfl,rfl,rfl,(Bool.or_true _).symm⟩
  | applyRecoveryTransition =>
    obtain ⟨m,m',hm,-,rfl⟩ := h
    exact ⟨rfl,rfl,rfl,by simp [hm]⟩
  | commitObservation id schedule event now =>
    cases event with
    | none =>
      cases h
      exact ⟨rfl,rfl,rfl,(Bool.or_false _).symm⟩
    | some event =>
      cases h.symm.trans (Registry.observed_eq schedule event now w)
      exact ⟨rfl,rfl,rfl,by simp [Registry.machineAfter,recovery]⟩
  | _ =>
    cases h
    exact ⟨rfl,rfl,rfl,(Bool.or_false _).symm⟩

namespace Registry

def committed (w : WatcherState) (schedule : ObservationSchedule) (event : Event) (now : Nat) :
    WatcherState :=
  { w with
    observationSchedule := served schedule now
    lifecycle := lifecycleAfter w
    recovery := machineAfter schedule w event
    lastObservation := some event
    revision := w.revision + 1
    updatedAtUnixMs := now }

section Stored
variable [JsonText] {R R' : Registry} {id : String} {w : WatcherState}

theorem applyRecoveryTransition_refused {command : RecoveryCommand} {reason : String} (now : Nat)
    (host : WriteOutcome) (hw : R.get id = some w) (hm : w.recovery = some m)
    (happlied : m.applied command = .error reason) :
    R.applyRecoveryTransition id command now host = (.error (.corrupt reason),R) := by
  rw [get] at hw
  simp only [applyRecoveryTransition,mutate,hw,hm,applyCommand,happlied]
  rfl

theorem commitObservation_ok {schedule : ObservationSchedule} {event : Event} {now : Nat}
    {host : WriteOutcome} (hw : R.get id = some w)
    (h : R.commitObservation id schedule (some event) now host = (.ok (),R')) :
    ∃ later, R'.get id = some { committed w schedule event now with updatedAtUnixMs := later } := by
  have hp := RegistryCall.perform_performed (.commitObservation id schedule (some event) now) R host
  rw [RegistryCall.perform,h] at hp
  obtain ⟨v,v',later,hv,hedit,hnext⟩ := hp.stored_edit rfl rfl
  obtain rfl := Option.some.inj (hw.symm.trans hv)
  have hobserved := hedit.symm.trans (observed_eq schedule event now w)
  cases hobserved
  exact ⟨later,by rw [get,hnext,StrMap.getElem?_insert,if_pos rfl]; rfl⟩

end Stored

end Registry

namespace Sample
open Registry

def migrated : WatcherState :=
  .new "watcher-1" (.multiplexer "tmux" "/tmp/tmux" "%1" (.new 7 1) none none none true)
    .observing 1 0

def durable : LoadHost := ⟨none,.error "not corrupt",.stored⟩

def restored : RecoveryMachine :=
  (RecoveryMachine.new restartBudget).moved .needsRevalidation
    "restart requires live revalidation"

def validated : RecoveryMachine :=
  { (restored.advanced .observing).advanced .confirmed with current := some fingerprint }

def attempted : RecoveryMachine :=
  { validated.advanced .acting with attempts := 1, lastAttemptMono := some 5 }

def resumed : RecoveryMachine :=
  { (attempted.advanced .verifying).advanced .recovered with
    completed := attempted.completed.insert fingerprint }

def incident (fingerprint : String) : Event := event fingerprint .pausedGoal

def reopened : WatcherState := committed (afterRestart migrated) .default (incident fingerprint) 1

def withMachine (w : WatcherState) (m : RecoveryMachine) (now : Nat) : WatcherState :=
  { w with recovery := some m, revision := w.revision + 1, updatedAtUnixMs := now }

def file (w : WatcherState) : PersistedRegistry :=
  encoded ((∅ : StrMap WatcherState).insert w.watcherId w)

attribute [local instance] chrono jsonText

def loadedFrom (saved : PersistedRegistry) : Registry :=
  ((load (some saved) durable).1.toOption).getD ⟨∅,none⟩

def loaded : Registry := loadedFrom (file migrated)

theorem loaded_ok : (load (some (file migrated)) durable).1 = .ok loaded := by decide

def called (R : Registry) (c : RegistryCall) : Registry := (c.perform R .stored).2

def incidentCommitted : Registry :=
  called loaded (.commitObservation "watcher-1" .default (some (incident fingerprint)) 1)

def actionBegun : Registry :=
  called incidentCommitted (RecoveryCoordinator.beginAction "watcher-1" fingerprint ⟨5,5⟩ 2)

def actionDone : Registry :=
  called actionBegun (RecoveryCoordinator.actionSucceeded "watcher-1" fingerprint 3)

theorem runs_committed : registryMachine.Runs loaded [RegistryCall.answered
    (.commitObservation "watcher-1" .default (some (incident fingerprint)) 1) (.ok .done)]
      incidentCommitted := by
  have hstart : registryMachine.Runs loaded [] loaded := .start
  exact hstart.snoc (step_stored _ (by decide))

theorem step_begun : registryMachine.Step incidentCommitted (RegistryCall.answered
    (RecoveryCoordinator.beginAction "watcher-1" fingerprint ⟨5,5⟩ 2) (.ok (.moved .acting)))
      actionBegun :=
  step_stored _ (by decide)

end Sample

namespace Registry

/-- The states from which an actionable event is confirmed: the machine waits for one, is
rearmed for this one, or has confirmed it before. -/
def Armable (w : WatcherState) (m : RecoveryMachine) (event : Event) : Prop :=
  m.state = .needsRevalidation ∨ m.state = .observing ∨ rearms w.lifecycle m event = true ∨
    (m.state = .confirmed ∧ m.current = some event.evidenceFingerprint)

theorem readied_observing {event : Event} :
    (readied w.lifecycle m event).state = .observing ↔ m.state = .needsRevalidation ∨
      m.state = .observing ∨ rearms w.lifecycle m event = true := by
  unfold readied
  split
  · next h => simp [advanced,moved,h]
  · next h =>
    split
    · next hr => simp [advanced,moved,hr]
    · next hr => simp [h,hr]

theorem confirmed_iff {event : Event} {schedule : ObservationSchedule}
    (hactionable : event.category.isActionable = true)
    (hstable : screenIsStable schedule event = true) :
    ((confirmedBy schedule event (readied w.lifecycle m event)).state = .confirmed ∧
      (confirmedBy schedule event (readied w.lifecycle m event)).current =
        some event.evidenceFingerprint) ↔ Armable w m event := by
  by_cases hready : (readied w.lifecycle m event).state = .observing
  · have harm : Armable w m event := by
      rcases readied_observing.1 hready with h | h | h <;> simp [Armable,h]
    have hconfirmed : confirmedBy schedule event (readied w.lifecycle m event) =
        { (readied w.lifecycle m event).advanced .confirmed with
          current := some event.evidenceFingerprint } := by
      simp [confirmedBy,hactionable,hstable,hready]
    rw [hconfirmed]
    exact ⟨fun _ => harm,fun _ => ⟨rfl,rfl⟩⟩
  · -- nothing is applied, so the machine is the one the event found
    have hnot : ¬ (m.state = .needsRevalidation ∨ m.state = .observing ∨
        rearms w.lifecycle m event = true) := fun h => hready (readied_observing.2 h)
    have hsame : confirmedBy schedule event (readied w.lifecycle m event) = m := by
      have hkept : readied w.lifecycle m event = m := by
        rw [readied,if_neg fun h => hnot (.inl h),if_neg fun h => hnot (.inr (.inr h))]
      rw [hkept] at hready
      simp [confirmedBy,hkept,hready]
    rw [not_or,not_or] at hnot
    simp [hsame,Armable,hnot]

/-- The incident of a committed event is the one the machine is about to act on, and only
the budget or the cooldown can refuse it. -/
def Ready (R : Registry) (id fingerprint : String) : Prop :=
  ∃ w m, R.get id = some w ∧ w.recovery = some m ∧ m.state = .confirmed ∧
    m.current = some fingerprint ∧
    ∀ clock reason, m.applied (.beginAction fingerprint clock) = .error reason →
      reason = "attempt budget exhausted" ∨ reason = "cooldown active"

/-- A commit of an actionable incident that is not completed makes it the machine's own
exactly when the machine was armable: one that had recovered from another incident, or had
confirmed another one, stays with that. -/
theorem commit_ready_iff [JsonText] {R R' : Registry} {id : String} {w : WatcherState}
    {m : RecoveryMachine} {schedule : ObservationSchedule} {event : Event} {now : Nat}
    {host : WriteOutcome} (hw : R.get id = some w) (hm : w.recovery = some m)
    (hactionable : event.category.isActionable = true)
    (hfresh : event.evidenceFingerprint ∉ m.completed)
    (hstable : event.source.kind = .screenDetection → 2 ≤ schedule.screenStableCount)
    (hcommit : R.commitObservation id schedule (some event) now host = (.ok (),R')) :
    Ready R' id event.evidenceFingerprint ↔ Armable w m event := by
  have hscreen : screenIsStable schedule event = true := by
    unfold screenIsStable
    by_cases hkind : event.source.kind = .screenDetection
    · simp [hkind,hstable hkind]
    · simp [hkind]
  obtain ⟨later,hget⟩ := commitObservation_ok hw hcommit
  have hmachine : (committed w schedule event now).recovery =
      some (confirmedBy schedule event (readied w.lifecycle m event)) := by
    simp [committed,machineAfter,hm]
  rw [← confirmed_iff hactionable hscreen]
  constructor
  · rintro ⟨v,n,hv,hn,hstate,hcurrent,-⟩
    obtain rfl := Option.some.inj (hget.symm.trans hv)
    obtain rfl := Option.some.inj (hmachine.symm.trans hn)
    exact ⟨hstate,hcurrent⟩
  · rintro ⟨hstate,hcurrent⟩
    refine ⟨_,_,hget,hmachine,hstate,hcurrent,fun clock reason hrefused => ?_⟩
    refine begin_refusal hstate hcurrent ?_ hrefused
    rw [(confirmedBy_frame schedule event w.lifecycle m).2.2]
    exact hfresh

end Registry

section Incidents
attribute [local instance] Sample.chrono Sample.jsonText

theorem commit_ready_first_incident :
    let _ := Sample.chrono
    let _ := Sample.jsonText
    ∃ R₀ R₁, (Registry.load (some (Sample.file Sample.migrated)) Sample.durable).1 =
        .ok R₀ ∧
      R₀.commitObservation "watcher-1" .default (some (Sample.incident Sample.fingerprint)) 1
        .stored = (.ok (),R₁) ∧
      Registry.Ready R₁ "watcher-1" Sample.fingerprint := by
  have hget : Sample.loaded.get "watcher-1" = some (Registry.afterRestart Sample.migrated) := by
    decide
  have hcommit : Sample.loaded.commitObservation "watcher-1" .default
      (some (Sample.incident Sample.fingerprint)) 1 .stored = (.ok (),Sample.incidentCommitted) :=
    Prod.ext (by decide) rfl
  have hfresh : (Sample.incident Sample.fingerprint).evidenceFingerprint ∉
      Sample.restored.completed := by decide
  exact ⟨_,_,Sample.loaded_ok,hcommit,
    (Registry.commit_ready_iff hget rfl rfl hfresh nofun hcommit).2 (.inl rfl)⟩

/-- A watcher that has recovered once and observes again: the next paused goal is committed,
but its action is refused as stale. -/
theorem commit_ready_second_incident :
    let _ := Sample.chrono
    let _ := Sample.jsonText
    ∃ (R₀ R₁ R₂ R₃ : Registry) (history : List RegistryEvent) (w : WatcherState)
        (m : RecoveryMachine),
      (Registry.load (some (Sample.file Sample.migrated)) Sample.durable).1 = .ok R₀ ∧
      registryMachine.Runs R₀ history R₁ ∧
      registryMachine.Step R₁ (RegistryCall.answered (RecoveryCoordinator.actionSucceeded
        "watcher-1" Sample.fingerprint 3) (.ok (.moved .recovered))) R₂ ∧
      R₂.get "watcher-1" = some w ∧ w.recovery = some m ∧ w.lifecycle = .observing ∧
      (Sample.incident Sample.laterFingerprint).category.isActionable = true ∧
      (Sample.incident Sample.laterFingerprint).source.kind ≠ .screenDetection ∧
      Sample.laterFingerprint ∉ m.completed ∧
      R₂.commitObservation "watcher-1" .default (some (Sample.incident Sample.laterFingerprint)) 4
        .stored = (.ok (),R₃) ∧
      ¬ Registry.Ready R₃ "watcher-1" Sample.laterFingerprint ∧
      ∀ clock now host, (R₃.applyRecoveryTransition "watcher-1"
        (.beginAction Sample.laterFingerprint clock) now host).1 =
          .error (.corrupt "stale evidence") := by
  have hcommit : Sample.actionDone.commitObservation "watcher-1" .default
      (some (Sample.incident Sample.laterFingerprint)) 4 .stored = (.ok (),_) :=
    Prod.ext (by decide) rfl
  obtain ⟨w,hw,htest⟩ := (Option.any_eq_true _ _).1 (by decide :
    ((Sample.actionDone.get "watcher-1").any fun w =>
      w.recovery = some Sample.resumed ∧ w.lifecycle = .observing) = true)
  obtain ⟨v,hv,hkept⟩ := (Option.any_eq_true _ _).1 (by decide :
    (((Sample.actionDone.commitObservation "watcher-1" .default
      (some (Sample.incident Sample.laterFingerprint)) 4 .stored).2.get "watcher-1").any fun v =>
        v.recovery = some Sample.resumed) = true)
  obtain ⟨hm,hlifecycle⟩ := of_decide_eq_true htest
  have hfresh : Sample.laterFingerprint ∉ Sample.resumed.completed := by decide
  refine ⟨_,_,Sample.actionDone,_,_,w,Sample.resumed,Sample.loaded_ok,
    Sample.runs_committed.snoc Sample.step_begun,step_stored _ (by decide),hw,hm,hlifecycle,
    rfl,by decide,hfresh,hcommit,?_,fun clock now host => ?_⟩
  · rintro ⟨v',n,hv',hn,hstate,-⟩
    obtain rfl := Option.some.inj (hv.symm.trans hv')
    obtain rfl := Option.some.inj ((of_decide_eq_true hkept).symm.trans hn)
    cases hstate
  · have hrefused := begin_stale clock (m := Sample.resumed) (by decide) hfresh (by decide)
    exact congrArg Prod.fst (Registry.applyRecoveryTransition_refused now host hv
      (of_decide_eq_true hkept) hrefused)

end Incidents

namespace Registry

/-- What a load leaves of a watcher's authority to act. -/
structure Closed (w : WatcherState) : Prop where
  lifecycle : endsAtRestart w.lifecycle = true
  machine : ∀ m, w.recovery = some m → m.state = .needsRevalidation

theorem closed_afterRestart (w : WatcherState) : Closed (afterRestart w) where
  lifecycle := by
    unfold afterRestart
    by_cases h : endsAtRestart w.lifecycle = true
    · rw [if_pos h]
      exact h
    · rw [if_neg h]
      rfl
  machine m hm := by
    obtain ⟨m₀,-,rfl⟩ := Option.map_eq_some_iff.1 hm
    rfl

theorem closed_load [Chrono] [JsonText] {disk : Option PersistedRegistry} {host : LoadHost}
    (h : (load disk host).1 = .ok R) (id : String) (w : WatcherState) (hw : R.get id = some w) :
    Closed w := by
  obtain ⟨m,-,heq⟩ := load_watchers h
  rw [get,heq,Std.ExtTreeMap.getElem?_map,Option.map_eq_some_iff] at hw
  obtain ⟨v,-,rfl⟩ := hw
  exact closed_afterRestart v

end Registry

inductive Routine : RegistryCall → Prop
  | commitObservation (id : String) (schedule : ObservationSchedule) (event : Option Event)
      (now : Nat) : Routine (.commitObservation id schedule event now)
  | transition (id : String) (lifecycle : WatcherLifecycle) (now : Nat) :
      Routine (.transition id lifecycle now)
  | retargetProcess (id : String) (process : ProcessIdentity) (now : Nat) :
      Routine (.retargetProcess id process now)
  | wakeObservation (id fingerprint : String) (now : Nat) :
      Routine (.wakeObservation id fingerprint now)
  | persistObservationSchedule (id : String) (schedule : ObservationSchedule) (now : Nat) :
      Routine (.persistObservationSchedule id schedule now)
  | beginAction (id fingerprint : String) (clock : ClockSnapshot) (now : Nat) :
      Routine (RecoveryCoordinator.beginAction id fingerprint clock now)
  | actionFailed (id fingerprint : String) (wait : Nat) (clock : ClockSnapshot) (now : Nat) :
      Routine (RecoveryCoordinator.actionFailed id fingerprint wait clock now)
  | actionSucceeded (id fingerprint : String) (now : Nat) :
      Routine (RecoveryCoordinator.actionSucceeded id fingerprint now)
  | plannerConsulted (id : String) (now : Nat) :
      Routine (RecoveryCoordinator.plannerConsulted id now)

def Evidenced (h : List RegistryEvent) (id fingerprint : String) : Prop :=
  ∃ schedule event now reply,
    RegistryCall.answered (.commitObservation id schedule (some event) now) (.ok reply) ∈ h ∧
    event.category.isActionable = true ∧ event.evidenceFingerprint = fingerprint

/-- The machine is not past `Observing`, or stands on evidence of the run. -/
def Grounded (h : List RegistryEvent) (id : String) (m : RecoveryMachine) : Prop :=
  m.state = .needsRevalidation ∨ m.state = .observing ∨
    ∃ fingerprint, m.current = some fingerprint ∧ Evidenced h id fingerprint

theorem Grounded.mono {e : RegistryEvent} {id : String} (hg : Grounded h id m) :
    Grounded (h ++ [e]) id m := by
  rcases hg with hs | hs | ⟨fingerprint,hcurrent,schedule,event,now,reply,hmem,hevent⟩
  · exact .inl hs
  · exact .inr (.inl hs)
  · exact .inr (.inr ⟨fingerprint,hcurrent,schedule,event,now,reply,
      List.mem_append_left _ hmem,hevent⟩)

theorem Grounded.evidenced {id fingerprint : String} (hg : Grounded h id m)
    (hstate : m.state = .confirmed ∨ m.state = .acting) (hcurrent : m.current = some fingerprint) :
    Evidenced h id fingerprint := by
  rcases hg with hs | hs | ⟨f,hf,hevidenced⟩
  · rcases hstate with h | h <;> cases hs.symm.trans h
  · rcases hstate with h | h <;> cases hs.symm.trans h
  · obtain rfl := Option.some.inj (hf.symm.trans hcurrent)
    exact hevidenced

def observes : RecoveryCommand → Bool
  | .revalidated | .confirm _ | .rearmAfterWait => true
  | _ => false

theorem Grounded.effect {id : String} {m' : RecoveryMachine} {command : RecoveryCommand}
    (hg : Grounded h id m) (hcommand : observes command = false) (he : Effect m command (.ok ()) m') :
    Grounded h id m' := by
  cases he with
  | revalidated | confirmed | rearmed => cases hcommand
  | begun fingerprint clock hstate _ hcurrent =>
    exact .inr (.inr ⟨fingerprint,hcurrent,hg.evidenced (.inl hstate) hcurrent⟩)
  | failed fingerprint wait clock hstate hcurrent =>
    exact .inr (.inr ⟨fingerprint,hcurrent,hg.evidenced (.inr hstate) hcurrent⟩)
  | succeeded fingerprint hstate hcurrent =>
    exact .inr (.inr ⟨fingerprint,hcurrent,hg.evidenced (.inr hstate) hcurrent⟩)
  | reserved => exact hg

section FailsClosed
variable [Chrono] [JsonText]

omit [Chrono] in
theorem grounded_step {c : RegistryCall} {R' : Registry}
    {answer : Except RegistryError RegistryReply} (hp : RegistryCall.Performed c R (answer,R'))
    (hc : Routine c) (hg : ∀ id w m, R.get id = some w → w.recovery = some m → Grounded h id m)
    (id : String) (w : WatcherState) (m : RecoveryMachine) (hw : R'.get id = some w)
    (hm : w.recovery = some m) : Grounded (h ++ [c.answered answer]) id m := by
  rcases hp.entry id with hsame | ⟨reply,w',rfl,hw',hentry⟩
  · exact (hg id w m (hsame.symm.trans hw) hm).mono
  · obtain rfl := Option.some.inj (hw'.symm.trans hw)
    cases hentry with
    | added _ hregister =>
      subst hregister
      cases hc
    | edited _ v v' now hv hedit habout =>
      have hkept : v'.recovery = v.recovery → Grounded (h ++ [c.answered (.ok reply)]) id m :=
        fun heq => (hg id v m hv (heq ▸ hm)).mono
      cases hc with
      | transition | retargetProcess | wakeObservation | persistObservationSchedule =>
        cases hedit
        exact hkept rfl
      | commitObservation id' schedule event now' =>
        obtain rfl := Option.some.inj habout
        cases event with
        | none =>
          cases hedit
          exact hkept rfl
        | some event =>
          cases hedit.symm.trans (Registry.observed_eq schedule event now' v)
          obtain ⟨m₀,hm₀,rfl⟩ := Option.map_eq_some_iff.1 hm
          -- the event is confirmed, the machine readied for it, or left alone
          unfold Registry.confirmedBy
          split
          · next hconfirms =>
            simp only [Bool.and_eq_true] at hconfirms
            exact .inr (.inr ⟨_,rfl,schedule,event,now',reply,by simp,hconfirms.1.1,rfl⟩)
          · unfold Registry.readied
            split
            · exact .inr (.inl rfl)
            · split
              · exact .inr (.inl rfl)
              · exact (hg _ v m₀ hv hm₀).mono
      | beginAction | actionFailed | actionSucceeded | plannerConsulted =>
        all_goals
          obtain ⟨m₀,m₁,hm₀,happlied,rfl⟩ := hedit
          obtain rfl := Option.some.inj hm
          obtain rfl := Option.some.inj habout
          exact ((hg _ v m₀ hv hm₀).effect rfl (applied_effect happlied)).mono

theorem grounded_runs {R₀ : Registry} (hclosed : ∀ id w, R₀.get id = some w → Registry.Closed w)
    (hr : registryMachine.Runs R₀ h R)
    (hroutine : ∀ e ∈ h, ∃ c answer, e = RegistryCall.answered c answer ∧ Routine c) :
    ∀ id w m, R.get id = some w → w.recovery = some m → Grounded h id m := by
  refine hr.invariant ?_ ?_ hroutine
  · exact fun _ id w m hw hm => .inl ((hclosed id w hw).machine m hm)
  · intro h R e R' ih hs hroutine
    obtain ⟨c,answer,rfl,hc⟩ := hroutine e (by simp)
    obtain ⟨host,hcall⟩ := hs
    have hp := c.perform_performed R host
    rw [hcall] at hp
    exact grounded_step hp hc (ih fun e he => hroutine e (List.mem_append_left _ he))

/-- After a load no watcher may act, and an action is begun only on the fingerprint of an
actionable event that was committed for its watcher since. -/
theorem restart_fails_closed {disk : Option PersistedRegistry} {host : Registry.LoadHost}
    {R₀ : Registry} (hload : (Registry.load disk host).1 = .ok R₀) :
    (∀ id w, R₀.get id = some w → Registry.Closed w) ∧
    ∀ (h : List RegistryEvent) (R R' : Registry) (id fingerprint : String)
      (clock : ClockSnapshot) (now : Nat) (reply : RegistryReply),
      registryMachine.Runs R₀ h R →
      (∀ e ∈ h, ∃ c answer, e = RegistryCall.answered c answer ∧ Routine c) →
      registryMachine.Step R (RegistryCall.answered
        (RecoveryCoordinator.beginAction id fingerprint clock now) (.ok reply)) R' →
      Evidenced h id fingerprint := by
  have hclosed := Registry.closed_load hload
  refine ⟨hclosed,fun h R R' id fingerprint clock now reply hr hroutine hs => ?_⟩
  obtain ⟨host,hcall⟩ := hs
  have hp := (RecoveryCoordinator.beginAction id fingerprint clock now).perform_performed R host
  rw [hcall] at hp
  obtain ⟨w,w',later,hw,⟨m,m',hm,happlied,-⟩,-⟩ := hp.stored_edit rfl rfl
  cases applied_effect happlied with
  | begun _ _ hstate _ hcurrent =>
    exact (grounded_runs hclosed hr hroutine id w m hw hm).evidenced (.inl hstate) hcurrent

end FailsClosed

attribute [local instance] Sample.chrono Sample.jsonText

theorem restart_fails_closed_resumed :
    let _ := Sample.chrono
    let _ := Sample.jsonText
    ∃ (R₀ R R' : Registry) (h : List RegistryEvent),
      (Registry.load (some (Sample.file Sample.migrated)) Sample.durable).1 = .ok R₀ ∧
      registryMachine.Runs R₀ h R ∧
      registryMachine.Step R (RegistryCall.answered (RecoveryCoordinator.beginAction "watcher-1"
        Sample.fingerprint ⟨5,5⟩ 2) (.ok (.moved .acting))) R' ∧
      Evidenced h "watcher-1" Sample.fingerprint := by
  refine ⟨_,_,_,_,Sample.loaded_ok,Sample.runs_committed,Sample.step_begun,?_⟩
  refine (restart_fails_closed Sample.loaded_ok).2 _ _ _ _ _ _ _ _ Sample.runs_committed
    (fun e he => ?_) Sample.step_begun
  rw [List.mem_singleton.1 he]
  exact ⟨_,_,rfl,.commitObservation _ _ _ _⟩

end WatchMe
