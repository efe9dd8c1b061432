import WatchMe.Daemon.Attachment

/-! # The scheduler beside the registry

The scheduler holds its own map of the watchers and which of them are paused. It is built from the
registry once and is then told of every change by a message. `Mirrors` says that it shows what the
registry has; a message about a watcher that the map has lost does nothing, so a watcher that was
stopped and is set going again is missing in it. The channel keeps the order of the messages, so the
map is a function of the messages sent.
-/
namespace WatchMe
open Effects

inductive SchedulerEvent where
  | register (id : String)
  | pause (id : String)
  | resume (id : String)
  | stop (id : String)
  deriving DecidableEq, Repr

def SchedulerEvent.id : SchedulerEvent → String
  | register id | pause id | resume id | stop id => id

namespace Scheduler

/-- The body of the loop of `Scheduler::run`. -/
def handle (watchers : StrMap Bool) : SchedulerEvent → StrMap Bool
  | .register id => watchers.insert id false
  | .pause id => if watchers.contains id then watchers.insert id true else watchers
  | .resume id => if watchers.contains id then watchers.insert id false else watchers
  | .stop id => watchers.erase id

def run (events : List SchedulerEvent) : StrMap Bool := events.foldl handle ∅

def onEntry : SchedulerEvent → Option Bool → Option Bool
  | .register _, _ => some false
  | .pause _, entry => entry.map fun _ => true
  | .resume _, entry => entry.map fun _ => false
  | .stop _, _ => none

theorem getElem?_setIfPresent (watchers : StrMap Bool) (id i : String) (b : Bool) :
    (if watchers.contains id then watchers.insert id b else watchers)[i]? =
      if id = i then watchers[i]?.map fun _ => b else watchers[i]? := by
  by_cases hid : id = i
  · subst hid
    rw [if_pos rfl]
    cases hentry : watchers[id]? with
    | none =>
      have hmissing : watchers.contains id = false := by
        rw [Std.ExtTreeMap.contains_eq_isSome_getElem?,hentry]
        rfl
      simp only [hmissing,Bool.false_eq_true,if_false,hentry,Option.map_none]
    | some =>
      have hpresent : watchers.contains id = true := by
        rw [Std.ExtTreeMap.contains_eq_isSome_getElem?,hentry]
        rfl
      simp only [hpresent,if_true,StrMap.getElem?_insert,Option.map_some]
  · rw [if_neg hid]
    split
    · rw [StrMap.getElem?_insert,if_neg hid]
    · rfl

theorem getElem?_handle (watchers : StrMap Bool) (e : SchedulerEvent) (i : String) :
    (handle watchers e)[i]? = if e.id = i then onEntry e watchers[i]? else watchers[i]? := by
  cases e with
  | register id => exact StrMap.getElem?_insert watchers id i false
  | pause id => exact getElem?_setIfPresent watchers id i true
  | resume id => exact getElem?_setIfPresent watchers id i false
  | stop id => exact StrMap.getElem?_erase watchers id i

theorem getElem?_untouched (events : List SchedulerEvent) (watchers : StrMap Bool) (i : String)
    (h : ∀ e ∈ events, e.id ≠ i) : (events.foldl handle watchers)[i]? = watchers[i]? := by
  induction events generalizing watchers with
  | nil => rfl
  | cons e events ih =>
    rw [List.foldl_cons,ih _ fun e' he' => h e' (List.mem_cons_of_mem _ he'),getElem?_handle,
      if_neg (h e List.mem_cons_self)]

theorem getElem?_stopped (ids : List String) (watchers : StrMap Bool) (i : String) :
    ((ids.map SchedulerEvent.stop).foldl handle watchers)[i]? =
      if i ∈ ids then none else watchers[i]? := by
  induction ids generalizing watchers with
  | nil => rfl
  | cons id ids ih =>
    rw [List.map_cons,List.foldl_cons,ih,getElem?_handle]
    by_cases hrest : i ∈ ids
    · rw [if_pos hrest,if_pos (List.mem_cons_of_mem _ hrest)]
    · rw [if_neg hrest]
      by_cases hid : id = i
      · subst hid
        simp [SchedulerEvent.id,onEntry]
      · have hnot : i ∉ id :: ids := fun h => (List.mem_cons.1 h).elim (fun heq => hid heq.symm) hrest
        rw [if_neg hnot]
        exact if_neg hid

end Scheduler

namespace Registry
variable {R R' : Registry} {w : WatcherState}

def isPaused : WatcherLifecycle → Bool
  | .paused | .humanRequired _ => true
  | _ => false

/-- The events that `scheduler_from_registry` sends for a watcher. -/
def announced (watcher : WatcherState) : List SchedulerEvent :=
  if isGone watcher.lifecycle then []
  else .register watcher.watcherId ::
    (if isPaused watcher.lifecycle then [.pause watcher.watcherId] else [])

def schedulerFromRegistry (R : Registry) : List SchedulerEvent := R.list.flatMap announced

def registrationEvents : RegistrationOutcome → List SchedulerEvent
  | .added id => [.register id]
  | .existing _ => []
  | .revalidated id => [.resume id]

/-- `.map(|()| { let _ = scheduler.send(event); .. })`. -/
def sentIfOk {α : Type} (answer : Except RegistryError α) (event : SchedulerEvent) :
    List SchedulerEvent :=
  if answer.isOk then [event] else []

def isStopped : WatcherLifecycle → Bool
  | .stopped _ => true
  | _ => false

def stopEvents (R : Registry) : List SchedulerEvent :=
  ((R.list.filter fun watcher => isStopped watcher.lifecycle).map (·.watcherId)).map .stop

section Sent
variable [JsonText]

/-- What `handle_request` sends while it serves the request. -/
def requestEvents (R : Registry) (writes : HostWrites) : Request → List SchedulerEvent
  | .status _ | .list | .wakeObservation _ _ => []
  | .register watcher =>
    match (R.register watcher (writes 0).2).1 with
    | .ok outcome => registrationEvents outcome
    | .error _ => []
  | .stop id all => (R.handleRequest writes (.stop id all)).2.stopEvents
  | .pause id => sentIfOk (R.transition id .paused (writes 0).1 (writes 0).2).1 (.pause id)
  | .resume id => sentIfOk (R.transition id .observing (writes 0).1 (writes 0).2).1 (.resume id)

variable (inspector : ProcessInspector) (now : Nat) (writes : HostWrites)

/-- What the monitor sends for one watcher. -/
def monitorWatcherEvents (s : Nat × Registry × Monitors) (watcher : WatcherState) :
    List SchedulerEvent :=
  let (n,R,monitors) := s
  if isGone watcher.lifecycle then []
  else match decisionOf inspector now monitors watcher with
    | .terminate =>
      sentIfOk (R.transition watcher.watcherId .targetTerminated now (writes n).2).1
        (.stop watcher.watcherId)
    | _ => []

def monitorEvents : Nat × Registry × Monitors → List WatcherState → List SchedulerEvent
  | _, [] => []
  | s, watcher :: watchers => monitorWatcherEvents inspector now writes s watcher
      ++ monitorEvents (monitorWatcher inspector now writes s watcher) watchers

end Sent

def scheduled (lifecycle : WatcherLifecycle) : Option Bool :=
  if isGone lifecycle then none else some (isPaused lifecycle)

def lifecycleOf (R : Registry) (id : String) : Option WatcherLifecycle :=
  (R.get id).map (·.lifecycle)

/-- The map has the watchers of the registry that are not gone, paused where they are. -/
def Mirrors (watchers : StrMap Bool) (R : Registry) : Prop :=
  ∀ i : String, watchers[i]? = (R.lifecycleOf i).bind scheduled

theorem Mirrors.unique {watchers watchers' : StrMap Bool} (h : Mirrors watchers R)
    (h' : Mirrors watchers' R) : watchers = watchers' :=
  Std.ExtTreeMap.ext_getElem? fun i => (h i).trans (h' i).symm

theorem Mirrors.lifecycles {watchers : StrMap Bool} (h : Mirrors watchers R)
    (hsame : ∀ i, R'.lifecycleOf i = R.lifecycleOf i) : Mirrors watchers R' :=
  fun i => by rw [h i,hsame i]

theorem lifecycleOf_insert {id : String} (h : R'.watchers = R.watchers.insert id w) (i : String) :
    R'.lifecycleOf i = if id = i then some w.lifecycle else R.lifecycleOf i := by
  rw [lifecycleOf,get,h,StrMap.getElem?_insert]
  split
  · rfl
  · rfl

theorem lifecycleOf_watchers (h : R'.watchers = R.watchers) (i : String) :
    R'.lifecycleOf i = R.lifecycleOf i := by
  rw [lifecycleOf,lifecycleOf,get,get,h]

theorem announced_id : ∀ e ∈ announced w, e.id = w.watcherId := by
  intro e he
  unfold announced at he
  split at he
  · cases he
  · rcases List.mem_cons.1 he with rfl | he
    · rfl
    · split at he
      · rw [List.mem_singleton.1 he]
        rfl
      · cases he

theorem getElem?_announced (w : WatcherState) (watchers : StrMap Bool)
    (h : watchers[w.watcherId]? = none) :
    ((announced w).foldl Scheduler.handle watchers)[w.watcherId]? = scheduled w.lifecycle := by
  unfold announced scheduled
  split
  · exact h
  · cases isPaused w.lifecycle <;>
      simp [Scheduler.getElem?_handle,SchedulerEvent.id,Scheduler.onEntry]

theorem getElem?_announced_list (ws : List WatcherState) (hws : (ws.map (·.watcherId)).Nodup)
    (w : WatcherState) (hw : w ∈ ws) (watchers : StrMap Bool)
    (hempty : watchers[w.watcherId]? = none) :
    ((ws.flatMap announced).foldl Scheduler.handle watchers)[w.watcherId]? =
      scheduled w.lifecycle := by
  induction ws generalizing watchers with
  | nil => cases hw
  | cons v ws ih =>
    rw [List.map_cons,List.nodup_cons] at hws
    rw [List.flatMap_cons,List.foldl_append]
    rcases List.mem_cons.1 hw with rfl | hw
    · rw [Scheduler.getElem?_untouched,getElem?_announced w watchers hempty]
      intro e he heq
      obtain ⟨u,hu,hin⟩ := List.mem_flatMap.1 he
      exact hws.1 (List.mem_map.2 ⟨u,hu,(announced_id e hin).symm.trans heq⟩)
    · refine ih hws.2 hw _ ?_
      rw [Scheduler.getElem?_untouched _ _ _ fun e he heq => ?_,hempty]
      exact hws.1 (List.mem_map.2 ⟨w,hw,heq.symm.trans (announced_id e he)⟩)

theorem mirrors_schedulerFromRegistry (hkeyed : R.Keyed) :
    Mirrors (Scheduler.run R.schedulerFromRegistry) R := by
  intro i
  cases hget : R.get i with
  | none =>
    have hnone : (Scheduler.run R.schedulerFromRegistry)[i]? = (∅ : StrMap Bool)[i]? := by
      refine Scheduler.getElem?_untouched _ _ _ fun e he heq => ?_
      obtain ⟨w,hw,hin⟩ := List.mem_flatMap.1 he
      obtain ⟨id,hid⟩ := mem_list.1 hw
      have hsame : id = i := (hkeyed id w hid).symm.trans ((announced_id e hin).symm.trans heq)
      cases (hsame ▸ hid).symm.trans hget
    rw [hnone,lifecycleOf,hget]
    exact Std.ExtTreeMap.getElem?_empty
  | some w =>
    obtain rfl := hkeyed i w hget
    rw [lifecycleOf,hget]
    exact getElem?_announced_list R.list (list_nodup hkeyed) w (mem_list.2 ⟨_,hget⟩) ∅
      Std.ExtTreeMap.getElem?_empty

section Steps
variable [JsonText] {R R' : Registry} {id : String} {watchers : StrMap Bool}
variable {lifecycle : WatcherLifecycle} {now : Nat} {host : WriteOutcome}

theorem transition_lifecycle {answer : Except RegistryError Unit}
    (h : R.transition id lifecycle now host = (answer,R')) :
    (answer.isOk = false ∧ ∀ i, R'.lifecycleOf i = R.lifecycleOf i) ∨
      (answer.isOk = true ∧ (∃ w, R.get id = some w) ∧
        ∀ i, R'.lifecycleOf i = if id = i then some lifecycle else R.lifecycleOf i) := by
  have hp := RegistryCall.perform_performed (.transition id lifecycle now) R host
  rw [RegistryCall.perform,h] at hp
  cases answer with
  | error error => exact .inl ⟨rfl,lifecycleOf_watchers (hp.disciplined.failed error rfl)⟩
  | ok =>
    obtain ⟨w,w',time,hw,hedit,heq⟩ := hp.stored_edit rfl rfl
    cases hedit
    exact .inr ⟨rfl,⟨w,hw⟩,lifecycleOf_insert heq⟩

theorem perform_lifecycle {c : RegistryCall} (hnew : ∀ fresh, c ≠ .register fresh)
    (hkeeps : ∀ w w', c.Edit w w' → w'.lifecycle = w.lifecycle) (i : String) :
    (c.perform R host).2.lifecycleOf i = R.lifecycleOf i := by
  have hp := c.perform_performed R host
  generalize c.perform R host = answer at hp ⊢
  rcases hp.entry i with hsame | ⟨reply,w,-,hw,hentry⟩
  · exact congrArg (Option.map _) hsame
  · cases hentry with
    | added _ heq => exact (hnew _ heq).elim
    | edited _ v v' time hv hedit =>
      rw [lifecycleOf,lifecycleOf,get,get,hw,hv]
      exact congrArg some (hkeeps v v' hedit)

omit [JsonText] in
theorem refreshed_lifecycle (refresh : Refresh) (w fresh : WatcherState) :
    (refreshed refresh w fresh).lifecycle =
      if revalidates refresh then .registered else w.lifecycle := by
  unfold refreshed revalidates
  cases refresh.processPromotion <;> cases refresh.attachmentUpgrade <;>
    cases refresh.replayRevalidated <;> rfl

theorem register_lifecycle {fresh : WatcherState}
    {answer : Except RegistryError RegistrationOutcome} (h : R.register fresh host = (answer,R')) :
    (answer = .ok (.added fresh.watcherId) ∧ ∀ i, R'.lifecycleOf i =
        if fresh.watcherId = i then some fresh.lifecycle else R.lifecycleOf i) ∨
    (∃ id w, answer = .ok (.revalidated id) ∧ R.get id = some w ∧
      ∀ i, R'.lifecycleOf i = if id = i then some .registered else R.lifecycleOf i) ∨
    ((∀ outcome, answer = .ok outcome → registrationEvents outcome = []) ∧
      ∀ i, R'.lifecycleOf i = R.lifecycleOf i) := by
  cases answer with
  | error error =>
    have hp := RegistryCall.register_performed R fresh host
    rw [h] at hp
    exact .inr (.inr ⟨fun _ heq => (by cases heq),
      lifecycleOf_watchers (hp.disciplined.failed error rfl)⟩)
  | ok =>
    rcases register_ok h with ⟨rfl,-,rfl⟩ | ⟨id,-,⟨rfl,rfl⟩ | ⟨w,revision,hw,-,rfl,rfl⟩⟩
    · exact .inl ⟨rfl,lifecycleOf_insert rfl⟩
    · exact .inr (.inr ⟨fun _ heq => (by cases heq; rfl),fun _ => rfl⟩)
    · cases hcause : revalidates (refreshOf w fresh) with
      | true =>
        refine .inr (.inl ⟨id,w,rfl,hw,fun i => ?_⟩)
        rw [lifecycleOf_insert rfl]
        simp only [refreshed_lifecycle,hcause,if_true]
      | false =>
        refine .inr (.inr ⟨fun _ heq => (by cases heq; rfl),fun i => ?_⟩)
        rw [lifecycleOf_insert rfl]
        split
        · next hid =>
          subst hid
          rw [lifecycleOf,get,hw]
          simp only [refreshed_lifecycle,hcause,Bool.false_eq_true,if_false,Option.map_some]
        · rfl

theorem stopEach_lifecycle (writes : HostWrites) (ids : List String) (n : Nat) (i : String) :
    (R.stopEach writes n ids).2.lifecycleOf i = R.lifecycleOf i ∨
      (R.stopEach writes n ids).2.lifecycleOf i = some (.stopped "requested") := by
  induction ids generalizing n R with
  | nil => exact .inl rfl
  | cons id ids ih =>
    unfold stopEach
    rcases hcalled : R.transition id (.stopped "requested") (writes n).1 (writes n).2 with ⟨_ | _,R₁⟩
    · rcases transition_lifecycle hcalled with ⟨-,hsame⟩ | ⟨hok,-⟩
      · exact .inl (hsame i)
      · cases hok
    · rcases transition_lifecycle hcalled with ⟨hok,-⟩ | ⟨-,-,hset⟩
      · cases hok
      · rcases ih (R := R₁) (n + 1) with hrest | hrest
        · rw [hset i] at hrest
          by_cases hid : id = i
          · rw [if_pos hid] at hrest
            exact .inr hrest
          · rw [if_neg hid] at hrest
            exact .inl hrest
        · exact .inr hrest

omit [JsonText] in
theorem Mirrors.entry (h : Mirrors watchers R) (hw : R.get id = some w)
    (hpresent : isGone w.lifecycle = false) : ∃ b, watchers[id]? = some b := by
  refine ⟨isPaused w.lifecycle,?_⟩
  rw [h id,lifecycleOf,hw]
  simp [scheduled,hpresent]

omit [JsonText] in
theorem Mirrors.set {e : SchedulerEvent} (h : Mirrors watchers R)
    (hentry : Scheduler.onEntry e watchers[e.id]? = scheduled lifecycle)
    (hset : ∀ i, R'.lifecycleOf i = if e.id = i then some lifecycle else R.lifecycleOf i) :
    Mirrors (Scheduler.handle watchers e) R' := by
  intro i
  rw [Scheduler.getElem?_handle,hset i]
  by_cases hid : e.id = i
  · subst hid
    rw [if_pos rfl,if_pos rfl]
    exact hentry
  · rw [if_neg hid,if_neg hid]
    exact h i

/-- The message of the request says what it does: only watchers that are not gone are paused,
resumed or revalidated, and one that is added is neither gone nor paused. -/
def Announced (R : Registry) (writes : HostWrites) : Request → Prop
  | .pause id | .resume id => ∀ w, R.get id = some w → isGone w.lifecycle = false
  | .register fresh =>
      ((R.register fresh (writes 0).2).1 = .ok (.added fresh.watcherId) →
        scheduled fresh.lifecycle = some false) ∧
      ∀ id w, (R.register fresh (writes 0).2).1 = .ok (.revalidated id) → R.get id = some w →
        isGone w.lifecycle = false
  | _ => True

theorem Mirrors.moveTo {e : SchedulerEvent} (h : Mirrors watchers R)
    (hpresent : ∀ w, R.get e.id = some w → isGone w.lifecycle = false)
    (hentry : ∀ b, Scheduler.onEntry e (some b) = scheduled lifecycle) :
    Mirrors ((sentIfOk (R.transition e.id lifecycle now host).1 e).foldl Scheduler.handle watchers)
      (R.moveTo e.id lifecycle now host).2 := by
  unfold Registry.moveTo
  rcases hcalled : R.transition e.id lifecycle now host with ⟨_ | _,R₁⟩
  · rcases transition_lifecycle hcalled with ⟨-,hsame⟩ | ⟨hok,-⟩
    · exact h.lifecycles hsame
    · cases hok
  · rcases transition_lifecycle hcalled with ⟨hok,-⟩ | ⟨-,⟨w,hw⟩,hset⟩
    · cases hok
    · obtain ⟨b,hb⟩ := h.entry hw (hpresent w hw)
      refine h.set ?_ hset
      rw [hb]
      exact hentry b

theorem Mirrors.stopAll {writes : HostWrites} {ids : List String} (h : Mirrors watchers R)
    (hkeyed : (R.stopEach writes 0 ids).2.Keyed) :
    Mirrors ((R.stopEach writes 0 ids).2.stopEvents.foldl Scheduler.handle watchers)
      (R.stopEach writes 0 ids).2 := by
  intro i
  have hlifecycle := stopEach_lifecycle (R := R) writes ids 0 i
  generalize (R.stopEach writes 0 ids).2 = R₁ at hkeyed hlifecycle ⊢
  rw [stopEvents,Scheduler.getElem?_stopped]
  have hmem : i ∈ (R₁.list.filter fun w => isStopped w.lifecycle).map (·.watcherId) ↔
      ∃ w, R₁.get i = some w ∧ isStopped w.lifecycle = true := by
    simp only [List.mem_map,List.mem_filter,mem_list]
    constructor
    · rintro ⟨w,⟨⟨id,hid⟩,hstopped⟩,rfl⟩
      obtain rfl := hkeyed id w hid
      exact ⟨w,hid,hstopped⟩
    · rintro ⟨w,hw,hstopped⟩
      exact ⟨w,⟨⟨i,hw⟩,hstopped⟩,hkeyed i w hw⟩
  by_cases hstopped : i ∈ (R₁.list.filter fun w => isStopped w.lifecycle).map (·.watcherId)
  · obtain ⟨w,hw,hlast⟩ := hmem.1 hstopped
    rw [if_pos hstopped,lifecycleOf,hw]
    cases hl : w.lifecycle <;> rw [hl] at hlast <;> cases hlast
    rw [Option.map_some,hl]
    rfl
  · rw [if_neg hstopped,h i]
    rcases hlifecycle with hsame | hlast
    · rw [hsame]
    · rw [lifecycleOf,Option.map_eq_some_iff] at hlast
      obtain ⟨w,hw,hl⟩ := hlast
      exact (hstopped (hmem.2 ⟨w,hw,by rw [hl]; rfl⟩)).elim

theorem Mirrors.request (h : Mirrors watchers R) (hkeyed : R.Keyed) {writes : HostWrites}
    {request : Request} (hrequest : Announced R writes request) :
    Mirrors ((R.requestEvents writes request).foldl Scheduler.handle watchers)
      (R.handleRequest writes request).2 := by
  cases request with
  | status id => cases id <;> exact h
  | list => exact h
  | wakeObservation id fingerprint => exact h.lifecycles (perform_lifecycle
      (c := .wakeObservation id fingerprint (writes 0).1) (fun _ h => by cases h) fun w w' h => by
        cases h; rfl)
  | pause id => exact Mirrors.moveTo (e := .pause id) h hrequest fun b => rfl
  | resume id => exact Mirrors.moveTo (e := .resume id) h hrequest fun b => rfl
  | stop id all =>
    exact h.stopAll ((Performs.handleRequest R writes (.stop id all)).keyed hkeyed)
  | register fresh =>
    obtain ⟨hadded,hrevalidated⟩ := hrequest
    unfold requestEvents handleRequest
    dsimp only
    rcases hcalled : R.register fresh (writes 0).2 with ⟨answer,R₁⟩
    rw [hcalled] at hadded hrevalidated
    rcases register_lifecycle hcalled with ⟨rfl,hset⟩ | ⟨id,w,rfl,hw,hset⟩ | ⟨hquiet,hsame⟩
    · exact Mirrors.set (e := .register fresh.watcherId) h (hadded rfl).symm hset
    · obtain ⟨b,hb⟩ := h.entry hw (hrevalidated id w rfl hw)
      refine Mirrors.set (e := .resume id) h ?_ hset
      rw [SchedulerEvent.id,hb]
      rfl
    · cases answer with
      | error => exact h.lifecycles hsame
      | ok outcome =>
        dsimp only
        rw [hquiet outcome rfl]
        exact h.lifecycles hsame

end Steps

section Monitor
variable [JsonText] (inspector : ProcessInspector) (now : Nat) (writes : HostWrites)
  {watchers : StrMap Bool}

theorem Mirrors.monitorWatcher {s : Nat × Registry × Monitors} (h : Mirrors watchers s.2.1)
    (w : WatcherState) :
    Mirrors ((monitorWatcherEvents inspector now writes s w).foldl Scheduler.handle watchers)
      (Registry.monitorWatcher inspector now writes s w).2.1 := by
  obtain ⟨n,R,monitors⟩ := s
  unfold monitorWatcherEvents Registry.monitorWatcher decisionOf
  dsimp only
  split
  · exact h
  · obtain ⟨decision,m⟩ := (monitorOf monitors w).observe inspector now
    cases decision with
    | alive | grace => exact h
    | reexecAccepted process =>
      exact h.lifecycles (perform_lifecycle (c := .retargetProcess w.watcherId process now)
        (fun _ h => by cases h) fun w w' h => by cases h; rfl)
    | terminate =>
      rcases hcalled : R.transition w.watcherId .targetTerminated now (writes n).2 with ⟨answer,R₁⟩
      unfold sentIfOk
      rcases transition_lifecycle hcalled with ⟨hfailed,hsame⟩ | ⟨hok,-,hset⟩
      · simp only [hfailed]
        exact h.lifecycles hsame
      · simp only [hok,if_true]
        exact Mirrors.set (e := .stop w.watcherId) h rfl hset

theorem Mirrors.monitor (ws : List WatcherState) {s : Nat × Registry × Monitors}
    (h : Mirrors watchers s.2.1) :
    Mirrors ((monitorEvents inspector now writes s ws).foldl Scheduler.handle watchers)
      (ws.foldl (Registry.monitorWatcher inspector now writes) s).2.1 := by
  induction ws generalizing s watchers with
  | nil => exact h
  | cons w ws ih =>
    rw [monitorEvents,List.foldl_append,List.foldl_cons]
    exact ih (h.monitorWatcher inspector now writes w)

end Monitor

end Registry

inductive MirrorOp where
  | request (request : Request) (writes : HostWrites)
  | monitor (inspector : ProcessInspector) (now : Nat) (writes : HostWrites)

@[reducible] def MirrorOp.Answer : MirrorOp → Type
  | request _ _ => Except RegistryError Response
  | monitor _ _ _ => Unit

abbrev mirrorSig : Signature := ⟨MirrorOp,MirrorOp.Answer⟩

structure MirrorState where
  registry : Registry
  monitors : Monitors
  sent : List SchedulerEvent

/-- The daemon serves requests and looks at the processes; both tell the scheduler. -/
def mirrorMachine [JsonText] : Machine mirrorSig Registry Empty where
  State := MirrorState
  start R := ⟨R,∅,R.schedulerFromRegistry⟩
  Step s e s' := match e with
    | ⟨.request request writes,answer⟩ =>
      s.registry.handleRequest writes request = (answer,s'.registry) ∧
        s'.monitors = s.monitors ∧ s'.sent = s.sent ++ s.registry.requestEvents writes request
    | ⟨.monitor inspector now writes,_⟩ =>
      Registry.monitorRound inspector now writes s.registry s.monitors =
          (s'.registry,s'.monitors) ∧
        s'.sent = s.sent ++ Registry.monitorEvents inspector now writes
          (0,s.registry,s.monitors) s.registry.list
  result _ := none

def AllAnnounced [JsonText] (s : MirrorState) (e : mirrorSig.Event) : Prop :=
  match e with
  | ⟨.request request writes,_⟩ => Registry.Announced s.registry writes request
  | _ => True

/-- In every run in which the requests' messages say what the requests do, the scheduler has,
whenever it has consumed what was sent, the map that would be built from the registry. -/
theorem scheduler_mirrors_registry [JsonText] {R : Registry} (hkeyed : R.Keyed)
    {h : List mirrorSig.Event} {s : MirrorState}
    (hr : (mirrorMachine.restrict AllAnnounced).Runs R h s) :
    Scheduler.run s.sent = Scheduler.run s.registry.schedulerFromRegistry := by
  have hmirrors : s.registry.Keyed ∧ Registry.Mirrors (Scheduler.run s.sent) s.registry := by
    refine hr.invariant ?_ ?_
    · exact ⟨hkeyed,Registry.mirrors_schedulerFromRegistry hkeyed⟩
    · rintro h s ⟨op,answer⟩ s' ⟨hk,hm⟩ ⟨hannounced,hstep⟩
      cases op with
      | request request writes =>
        obtain ⟨hserved,-,hsent⟩ := hstep
        have hnext : s'.registry = (s.registry.handleRequest writes request).2 := by rw [hserved]
        rw [hnext,hsent,Scheduler.run,List.foldl_append]
        exact ⟨(Registry.Performs.handleRequest _ writes request).keyed hk,hm.request hk hannounced⟩
      | monitor inspector now writes =>
        obtain ⟨hround,hsent⟩ := hstep
        have hnext : s'.registry =
            (Registry.monitorRound inspector now writes s.registry s.monitors).1 := by rw [hround]
        rw [hnext,hsent,Scheduler.run,List.foldl_append]
        refine ⟨?_,Registry.Mirrors.monitor inspector now writes _ hm⟩
        rw [Registry.monitorRound_eq inspector now writes hk s.monitors]
        exact (Registry.Performs.monitor _ writes now _).keyed hk
  exact hmirrors.2.unique (Registry.mirrors_schedulerFromRegistry hmirrors.1)

namespace Sample

def calm : HostWrites := fun _ => (0,.stored)

def attended : Registry :=
  let _ := jsonText
  (Registry.empty.register client .stored).2

def asked (R : Registry) (request : Request) : Registry :=
  let _ := jsonText
  (R.handleRequest calm request).2

def toldOf (s : MirrorState) (request : Request) : MirrorState :=
  let _ := jsonText
  ⟨asked s.registry request,s.monitors,s.sent ++ s.registry.requestEvents calm request⟩

def answeredOf (s : MirrorState) (request : Request) : mirrorSig.Event :=
  let _ := jsonText
  ⟨.request request calm,(s.registry.handleRequest calm request).1⟩

def atStart : MirrorState := ⟨attended,∅,attended.schedulerFromRegistry⟩

theorem told_step (s : MirrorState) (request : Request) :
    let _ := jsonText
    mirrorMachine.Step s (answeredOf s request) (toldOf s request) :=
  ⟨rfl,rfl,rfl⟩

theorem attended_keyed : attended.Keyed := by
  let _ := jsonText
  refine (Registry.Performs.handleRequest Registry.empty calm (.register client)).keyed ?_
  intro id w hw
  cases (Std.ExtTreeMap.getElem?_empty).symm.trans hw

end Sample

theorem scheduler_mirrors_registry_resumed :
    let _ := Sample.jsonText
    let paused := Sample.toldOf Sample.atStart (.pause "process-7-1")
    let resumed := Sample.toldOf paused (.resume "process-7-1")
    (mirrorMachine.restrict AllAnnounced).Runs Sample.attended
      [Sample.answeredOf Sample.atStart (.pause "process-7-1"),
        Sample.answeredOf paused (.resume "process-7-1")] resumed ∧
      (Scheduler.run resumed.sent)["process-7-1"]? = some false ∧
      Scheduler.run resumed.sent = Scheduler.run resumed.registry.schedulerFromRegistry := by
  intro _ paused resumed
  have hpresent : ∀ R : Registry, R.lifecycleOf "process-7-1" = some .registered ∨
      R.lifecycleOf "process-7-1" = some .paused → ∀ w, R.get "process-7-1" = some w →
      Registry.isGone w.lifecycle = false := by
    intro R hR w hw
    rw [Registry.lifecycleOf,hw,Option.map_some,Option.some.injEq,Option.some.injEq] at hR
    rcases hR with hl | hl <;> rw [hl] <;> rfl
  have hpause : (mirrorMachine.restrict AllAnnounced).Step Sample.atStart
      (Sample.answeredOf Sample.atStart (.pause "process-7-1")) paused :=
    ⟨hpresent _ (.inl rfl),Sample.told_step _ _⟩
  have hresume : (mirrorMachine.restrict AllAnnounced).Step paused
      (Sample.answeredOf paused (.resume "process-7-1")) resumed :=
    ⟨hpresent _ (.inr rfl),Sample.told_step _ _⟩
  have hruns := (Machine.Runs.start (M := mirrorMachine.restrict AllAnnounced)
    (k := Sample.attended)).snoc hpause |>.snoc hresume
  exact ⟨hruns,rfl,scheduler_mirrors_registry Sample.attended_keyed hruns⟩

/-- A watcher that is stopped and resumed is observed again, and the scheduler does not know it. -/
theorem resumed_watcher_not_scheduled :
    let _ := Sample.jsonText
    let stopped := Sample.toldOf Sample.atStart (.stop (some "process-7-1") false)
    let resumed := Sample.toldOf stopped (.resume "process-7-1")
    mirrorMachine.Runs Sample.attended
      [Sample.answeredOf Sample.atStart (.stop (some "process-7-1") false),
        Sample.answeredOf stopped (.resume "process-7-1")] resumed ∧
      resumed.registry.lifecycleOf "process-7-1" = some .observing ∧
      (Scheduler.run resumed.sent)["process-7-1"]? = none ∧
      (Scheduler.run resumed.registry.schedulerFromRegistry)["process-7-1"]? = some false := by
  intro _ stopped resumed
  have hstart : mirrorMachine.Runs Sample.attended [] Sample.atStart := .start
  exact ⟨(hstart.snoc (Sample.told_step _ _)).snoc (Sample.told_step _ _),rfl,rfl,rfl⟩

end WatchMe
