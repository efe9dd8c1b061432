import WatchMe.Daemon.Jobs
import WatchMe.Daemon.JobTraces
import WatchMe.Hooks.Claude

/-! # The wait budget

The policy compares a proposed wait with what the machine of the watcher has left of its wait
budget, but no success is ever charged to the machine: the daemon has no request that raises the
counter. So every single wait is within the budget, and their sum is as long as only one of them
counts.
-/
namespace WatchMe
open Effects Program Transaction Service
variable {e : ServiceEvent}

section Policy
variable [Chrono]

def waitLength (kind : ActionKind) (wall : Option String) : Nat :=
  match kind with
  | .waitDuration seconds => seconds
  | .waitUntil deadline => (waitUntilSeconds deadline wall).getD 0
  | _ => 0

theorem waitRefusal_ok {kind : ActionKind} {context : PolicyContext}
    (h : waitRefusal kind context = .ok ()) :
    waitLength kind context.wallTimeRfc3339 ≤ context.cumulativeWaitRemainingSeconds := by
  cases kind with
  | waitDuration =>
    simp only [waitRefusal,refuseIf_ok_iff,decide_eq_false_iff_not,not_lt] at h
    exact h
  | waitUntil deadline =>
    simp only [waitRefusal] at h
    simp only [waitLength]
    cases hseconds : waitUntilSeconds deadline context.wallTimeRfc3339 with
    | none =>
      rw [hseconds] at h
      cases h
    | some =>
      simp only [hseconds,refuseIf_ok_iff,decide_eq_false_iff_not,not_lt] at h
      exact h
  | _ => exact Nat.zero_le _

theorem Granted.wait {recipes : WatcherState → Option Action} {current : WatcherState}
    {wall : String} (h : Granted recipes current wall) :
    ∃ action m, recipes current = some action ∧ current.recovery = some m ∧
      waitLength action.kind (some wall) * nanosPerSecond ≤
        m.budget.maxCumulativeWait - m.cumulativeWait := by
  obtain ⟨action,now,context,baseline,hrecipe,hcontext,hauth⟩ := h
  cases hm : current.recovery with
  | none => simp [RecoveryContext.fromWatcher,hm] at hcontext
  | some m =>
    refine ⟨action,m,hrecipe,rfl,?_⟩
    have hlength := waitRefusal_ok (authorize_wait hauth)
    have hremaining := (fromWatcher_ok hm hcontext).2.1
    have hwall : waitLength action.kind (some wall) ≤
        (m.budget.maxCumulativeWait - m.cumulativeWait) / nanosPerSecond := hremaining ▸ hlength
    exact (Nat.le_div_iff_mul_le (by decide)).1 hwall

end Policy

section Waits
variable [Chrono] (recipes : WatcherState → Option Action)

/-- The length of the wait that a job has brought to success, from what it asked so far. -/
def succeededWait (h : List ServiceEvent) : Nat :=
  if hasSucceeded h then
    match (begunSnapshot h).bind recipes with
    | some action => waitLength action.kind (authorizedAt h)
    | none => 0
  else 0

def ServiceCall.watcherId? : ServiceCall → Option String
  | .recover w _ => some w.watcherId
  | _ => none

omit [Chrono] in
theorem ServiceCall.watcherId?_eq_some {call : ServiceCall} {id : String}
    (h : call.watcherId? = some id) : ∃ w time, call = .recover w time ∧ w.watcherId = id := by
  cases call with
  | recover w time => exact ⟨w,time,rfl,Option.some.inj h⟩
  | _ => cases h

def waitedBy (id : String) (t : ThreadView serviceSig ServiceCall Unit) : Nat :=
  if t.call.watcherId? = some id then succeededWait recipes t.history else 0

variable {recipes}

theorem succeededWait_snoc {h : List ServiceEvent} (hgranted : hasSucceeded h = true → ∃ current
      wall, begunSnapshot h = some current ∧ authorizedAt h = some wall)
    (he : hasSucceeded h = true ∨ isSuccess e = false) :
    succeededWait recipes (h ++ [e]) = succeededWait recipes h := by
  unfold succeededWait
  rw [hasSucceeded_snoc]
  by_cases hsucceeded : hasSucceeded h = true
  · obtain ⟨current,wall,hbegun,hwall⟩ := hgranted hsucceeded
    simp only [hsucceeded,Bool.true_or,begunSnapshot_snoc,authorizedAt_snoc,hbegun,hwall,
      Option.some_or]
  · have hquiet : isSuccess e = false := he.resolve_left hsucceeded
    simp only [hsucceeded,hquiet,Bool.or_false,Bool.false_eq_true,if_false]

end Waits

def WatcherState.Budgeted (budget : Budget) (spent : Nat) (w : WatcherState) : Prop :=
  ∃ m, w.recovery = some m ∧ m.budget = budget ∧ m.cumulativeWait = spent

def Reregisters (id : String) (R : Registry) : ServiceEvent → Prop
  | ⟨.handle (.register watcher),_⟩ => R.resolves watcher = some id
  | _ => False

def Unregistered (id : String) : ServiceDiscipline
  | V, .act _ e => ¬ Reregisters id V.shared.registry e
  | _, _ => True

theorem budgeted_edit {id : String} {budget : Budget} {spent : Nat} {R₀ R : Registry}
    {c : RegistryCall} {v v' : WatcherState} (hregister : ¬ Reregisters id R₀ e)
    (hissued : Issued e.op) (hc : EventCalls R₀ e R c) (hv : v.Budgeted budget spent)
    (hedit : RegistryCall.Edit v v' c) (habout : c.about R = some id) :
    v'.Budgeted budget spent := by
  obtain ⟨m,hm,hbudget,hspent⟩ := hv
  have hsame : v'.recovery = v.recovery → v'.Budgeted budget spent := fun h =>
    ⟨m,h.trans hm,hbudget,hspent⟩
  have happlied : ∀ command, (∀ fingerprint wait clock, command ≠
      RecoveryCommand.actionFailed fingerprint wait clock) →
      (∃ m m', v.recovery = some m ∧ m.applied command = .ok m' ∧
        v' = { v with recovery := some m' }) → v'.Budgeted budget spent := by
    rintro command hcommand ⟨m₀,m',hm₀,happlied,rfl⟩
    obtain rfl := Option.some.inj (hm.symm.trans hm₀)
    cases RecoveryMachine.applied_effect happlied with
    | failed fingerprint wait clock => exact (hcommand fingerprint wait clock rfl).elim
    | _ => exact ⟨_,rfl,hbudget,hspent⟩
  cases hc with
  | registry =>
    cases hissued with
    | handOff | stop =>
      cases hedit
      exact hsame rfl
    | succeeded => exact happlied _ (fun _ _ _ h => by cases h) hedit
  | beginAction => exact happlied _ (fun _ _ _ h => by cases h) hedit
  | markResume | postpone | wait =>
    cases hedit
    exact hsame rfl
  | commit i schedule event now =>
    cases event with
    | none =>
      cases hedit
      exact hsame rfl
    | some event =>
      cases hedit.symm.trans (Registry.observed_eq schedule event now v)
      obtain ⟨hb,hs,-⟩ := Registry.confirmedBy_frame schedule event v.lifecycle m
      refine ⟨_,?_,hb.trans hbudget,hs.trans hspent⟩
      simp only [Registry.machineAfter,hm]
      rfl
  | serve request c answer R hcalls =>
    cases hcalls with
    | register => exact (hregister habout).elim
    | wake | stop | pause | resume | stopAll =>
      cases hedit
      exact hsame rfl
  | monitor decide now w c R hlist hmonitor =>
    rcases Registry.monitorCall_cases hmonitor with ⟨process,-,rfl⟩ | ⟨-,rfl⟩
    · cases hedit
      exact hsame rfl
    · cases hedit
      exact hsame rfl

section Runs
variable [Chrono] [Render] [Digest] [JsonText] {recipes : WatcherState → Option Action}
  {owner : OwnerIdentity} {observes : Observes} {D : ServiceDiscipline} {init : ServiceState}
  {P : Pool (serviceMachine recipes owner) ServiceState} {id : String}
variable {budget : Budget}

theorem snapshot_has {ψ : WatcherState → Prop}
    (hhas : ∀ P, Pool.Reachable (serviceMachine recipes owner) (serviceWorld observes) D init P →
      P.shared.registry.Has id ψ)
    (hr : Pool.Reachable (serviceMachine recipes owner) (serviceWorld observes) D init P) :
    ∀ t ∈ P.threads, t.call.watcherId? = some id → ∀ current,
      begunSnapshot t.history = some current → ψ current := by
  refine hr.invariant (by simp) ?_
  intro P l P' hr hall hd hs
  have hhas' := hhas P' (hr.step hd hs)
  refine hs.forall_thread hall (fun _ _ _ h => by cases h) ?_ fun _ h => h
  intro i t e s _ ht hold _ hm hw hid current hcurrent
  have hsnoc : (begunSnapshot t.history).or (snapshotOf e) = some current :=
    (begunSnapshot_snoc t.history e).symm.trans hcurrent
  rcases Option.or_eq_some_iff.1 hsnoc with hsame | ⟨-,hnew⟩
  · exact hold hid current hsame
  -- the job takes its snapshot in this step
  obtain ⟨i,fingerprint,rfl⟩ := snapshotOf_eq_some hnew
  obtain ⟨w,time,hcall,rfl⟩ := ServiceCall.watcherId?_eq_some hid
  have hruns := hr.runs_at ht
  rw [show t.call = .recover w time from hcall] at hruns
  obtain ⟨action,-,rfl,-⟩ := job_begins hruns hm
  obtain ⟨⟨clock,now,later,host,host',hbegin⟩,-⟩ := hw
  have hget := ((Registry.beginAction_spec _ _ _ _ _ _ _ _ hbegin).2 current rfl).1
  obtain ⟨v,hv,hψ⟩ := hhas'.memory
  cases hv.symm.trans hget
  exact hψ

omit [JsonText] in
theorem wait_within {spent : Nat} {t : Thread (serviceMachine recipes owner)}
    (hsnapshot : ∀ current, begunSnapshot t.history = some current → current.Budgeted budget spent)
    (hruns : (serviceMachine recipes owner).Runs t.call t.history t.state)
    (hid : t.call.watcherId? = some id) :
    succeededWait recipes t.history * nanosPerSecond ≤ budget.maxCumulativeWait - spent := by
  by_cases hsucceeded : hasSucceeded t.history = true
  · obtain ⟨w,time,hcall,-⟩ := ServiceCall.watcherId?_eq_some hid
    rw [hcall] at hruns
    obtain ⟨current,wall,hbegun,hwall,hgranted⟩ := job_succeeded hruns hsucceeded
    obtain ⟨action,m,hrecipe,hm,hlength⟩ := hgranted.wait
    obtain ⟨m',hm',rfl,rfl⟩ := hsnapshot current hbegun
    obtain rfl := Option.some.inj (hm.symm.trans hm')
    simp only [succeededWait,hsucceeded,if_true,hbegun,Option.bind_some,hrecipe,hwall]
    exact hlength
  · simp only [succeededWait,hsucceeded,Bool.false_eq_true,if_false,Nat.zero_mul,Nat.zero_le]

def WatcherState.spent (w : WatcherState) : Nat := (w.recovery.map (·.cumulativeWait)).getD 0

/-- A wait of the watcher succeeds only if the waits that succeeded before it are in the counter
that it was authorised against. -/
def Covered (recipes : WatcherState → Option Action) (id : String) : ServiceDiscipline
  | V, .act i e => ∀ t current, V.threads[i]? = some t → t.call.watcherId? = some id →
    begunSnapshot t.history = some current → isSuccess e = true →
    0 < succeededWait recipes (t.history ++ [e]) →
    (V.threads.map (waitedBy recipes id)).sum * nanosPerSecond ≤ current.spent
  | _, _ => True

theorem budgeted_has {spent : Nat} (hD : ∀ V l, D V l → Unregistered id V l)
    (hinit : init.registry.Has id (WatcherState.Budgeted budget spent))
    (hr : Pool.Reachable (serviceMachine recipes owner) (serviceWorld observes) D init P) :
    P.shared.registry.Has id (WatcherState.Budgeted budget spent) := by
  have hstart : Pool.Reachable (serviceMachine recipes owner) (serviceWorld observes) D init _ :=
    .init
  refine has_leads hstart (fun _ _ h => h) hr.leads hinit ?_ ?_
  · rintro w ⟨m,hm,rfl,rfl⟩
    refine ⟨m.moved .needsRevalidation "restart requires live revalidation",?_,rfl,rfl⟩
    simp [Registry.afterRestart,Registry.restoredRecovery,Registry.machineAtRestart,hm]
  · intro V i e R c v v' now hd hissued hc _ hψ hedit habout
    exact (budgeted_edit (hD _ _ hd) hissued hc hψ hedit habout).imp fun _ h => h

theorem snapshot_budgeted {spent : Nat} (hD : ∀ V l, D V l → Unregistered id V l)
    (hinit : init.registry.Has id (WatcherState.Budgeted budget spent))
    (hr : Pool.Reachable (serviceMachine recipes owner) (serviceWorld observes) D init P) :
    ∀ t ∈ P.threads, t.call.watcherId? = some id → ∀ current,
      begunSnapshot t.history = some current → current.Budgeted budget spent :=
  snapshot_has (fun _ hr => budgeted_has hD hinit hr) hr

omit [JsonText] in
theorem waited_step (id : String) {t : Thread (serviceMachine recipes owner)}
    {s : (serviceMachine recipes owner).State}
    (hruns : (serviceMachine recipes owner).Runs t.call t.history t.state)
    (hm : (serviceMachine recipes owner).Step t.state e s) :
    waitedBy recipes id (t.advance e s).view = waitedBy recipes id t.view ∨
      (t.call.watcherId? = some id ∧ isSuccess e = true ∧ waitedBy recipes id t.view = 0 ∧
        waitedBy recipes id (t.advance e s).view = succeededWait recipes (t.history ++ [e]) ∧
        ∃ current, begunSnapshot t.history = some current) := by
  by_cases hid : t.call.watcherId? = some id
  · have hold : waitedBy recipes id t.view = succeededWait recipes t.history := if_pos hid
    have hnew : waitedBy recipes id (t.advance e s).view =
        succeededWait recipes (t.history ++ [e]) := if_pos hid
    obtain ⟨w,time,hcall,-⟩ := ServiceCall.watcherId?_eq_some hid
    rw [hcall] at hruns
    by_cases hquiet : hasSucceeded t.history = true ∨ isSuccess e = false
    · left
      rw [hold,hnew]
      refine succeededWait_snoc (fun hsucceeded => ?_) hquiet
      obtain ⟨current,wall,hbegun,hwall,-⟩ := job_succeeded hruns hsucceeded
      exact ⟨current,wall,hbegun,hwall⟩
    · simp only [not_or,Bool.not_eq_true,Bool.not_eq_false] at hquiet
      have hsucceeds : hasSucceeded (t.history ++ [e]) = true := by
        rw [hasSucceeded_snoc,hquiet.2,Bool.or_true]
      obtain ⟨current,-,hbegun,-⟩ := job_succeeded (hruns.snoc hm) hsucceeds
      -- the record of the success is not the request that took the snapshot
      rw [begunSnapshot_snoc,isSuccess_snapshot hquiet.2,Option.or_none] at hbegun
      refine .inr ⟨hid,hquiet.2,?_,hnew,current,hbegun⟩
      rw [hold,succeededWait,hquiet.1]
      rfl
  · left
    exact (if_neg hid).trans (if_neg hid).symm

/-- The budget of the machine and its counter never change, so no success is charged, and every
single wait that succeeded is within what they leave. In every run in which a wait succeeds only
if the counter covers those before it, all waits together are within the budget. -/
theorem wait_budget_kept (recipes : WatcherState → Option Action) (owner : OwnerIdentity)
    (observes : Observes) (init : ServiceState) (id : String) (budget : Budget) (spent : Nat)
    (hinit : init.registry.Has id (WatcherState.Budgeted budget spent)) :
    (∀ P, Pool.Reachable (serviceMachine recipes owner) (serviceWorld observes)
        (Unregistered id) init P →
      P.shared.registry.Has id (WatcherState.Budgeted budget spent) ∧
      ∀ t ∈ P.threads, t.call.watcherId? = some id →
        succeededWait recipes t.history * nanosPerSecond ≤ budget.maxCumulativeWait - spent) ∧
    ∀ P, Pool.Reachable (serviceMachine recipes owner) (serviceWorld observes)
        (fun V l => Unregistered id V l ∧ Covered recipes id V l) init P →
      P.total (waitedBy recipes id) * nanosPerSecond ≤ budget.maxCumulativeWait := by
  refine ⟨fun P hr => ⟨budgeted_has (fun _ _ h => h) hinit hr,fun t ht hid => ?_⟩,fun P hr => ?_⟩
  · exact wait_within (snapshot_budgeted (fun _ _ h => h) hinit hr t ht hid) (hr.runs t ht) hid
  refine hr.invariant (by simp [Pool.total,Pool.view]) ?_
  intro P l P' hr hsum hd hs
  have hspawn : ∀ call, waitedBy recipes id
      (Thread.spawned (serviceMachine recipes owner) call).view = 0 := by
    intro call
    unfold waitedBy
    split <;> rfl
  rcases hs.total hspawn (fun _ => rfl) with heq | ⟨i,e,t,s,rfl,ht,hm,htotal⟩
  · rw [heq]
    exact hsum
  rcases waited_step id (hr.runs_at ht) hm with
    hsame | ⟨hid,hsuccess,hzero,hnew,current,hbegun⟩
  · rw [hsame,Nat.add_right_cancel_iff] at htotal
    rw [htotal]
    exact hsum
  · rw [hzero,hnew,Nat.add_zero] at htotal
    have hbudgeted := snapshot_budgeted (fun _ _ h => h.1) hinit hr t (List.mem_of_getElem? ht) hid
    have hwithin : succeededWait recipes (t.history ++ [e]) * nanosPerSecond ≤
        budget.maxCumulativeWait - spent := by
      refine wait_within (t := t.advance e s) (fun v hv => hbudgeted v ?_)
        ((hr.runs_at ht).snoc hm) hid
      rw [← hv]
      exact ((begunSnapshot_snoc t.history e).trans
        (by rw [isSuccess_snapshot hsuccess,Option.or_none])).symm
    rw [htotal,Nat.add_mul]
    rcases Nat.eq_zero_or_pos (succeededWait recipes (t.history ++ [e])) with hnone | hpos
    · rw [hnone,Nat.zero_mul,Nat.add_zero]
      exact hsum
    · have hview : P.view.threads[i]? = some t.view := by
        simp [Pool.view,ht]
      have hcovered := hd.2 t.view current hview hid hbegun hsuccess hpos
      obtain ⟨m,hm,-,rfl⟩ := hbudgeted current hbegun
      have hspent : current.spent = m.cumulativeWait := by
        simp [WatcherState.spent,hm]
      rw [hspent] at hcovered
      have hroom : 0 < succeededWait recipes (t.history ++ [e]) * nanosPerSecond :=
        Nat.mul_pos hpos (by decide)
      change P.total (waitedBy recipes id) * nanosPerSecond ≤ _ at hcovered
      omega

end Runs

theorem unregistered_of_unasked {l : Label serviceSig ServiceCall} {id : String}
    (h : unasked l = true) (V : PoolView serviceSig ServiceCall Unit ServiceState) :
    Unregistered id V l := by
  rcases l with call | ⟨i,⟨op,answer⟩⟩ | _
  · trivial
  · cases op with
    | handle | monitor => cases h
    | _ => exact fun h => h
  · trivial

namespace Sample
open Registry

def waitedOnce : Pool daemon ServiceState :=
  (opened claudeRestored).play (.spawn .observationLoop :: acts 0 5 (around 0 0 firstEvidence) ++
    .spawn (.recover claudeLimited (instant 0)) :: acts 1 20 (around 0 5000 firstEvidence))

def secondLimit : Event :=
  limit laterFingerprint .usageLimit "2026-01-01T00:01:10+00:00" "2026-01-01T00:03:30+00:00"

def secondEvidence : LiveEvidence := limitEvidence secondLimit (by decide)

def limitedAgain : Pool daemon ServiceState :=
  waitedOnce.play (acts 0 6 (around 70 70000 secondEvidence))

def waitedTwice : Pool daemon ServiceState :=
  limitedAgain.play (.spawn (.recover ((limitedAgain.shared.registry.get "watcher-1").getD
    claudeLimited) (instant 70)) :: acts 2 20 (around 70 75000 secondEvidence))

theorem claudeRestored_budgeted : (single claudeRestored).Has "watcher-1"
    (WatcherState.Budgeted restartBudget 0) :=
  single_has (w := claudeRestored) ⟨restored,rfl,rfl,rfl⟩

theorem waitedOnce_reached : Pool.Reachable daemon world (Unregistered "watcher-1")
    ⟨single claudeRestored,.fresh⟩ waitedOnce :=
  Pool.Reachable.init.play_of unasked _ (fun V _ h => unregistered_of_unasked h V)
    (by decide)

end Sample

attribute [local instance] Sample.clocks Sample.render Sample.digest Sample.snapshotBytes
  Sample.jsonText

theorem wait_budget_kept_once :
    let _ := Sample.clocks
    ∃ (P : Pool Sample.daemon ServiceState) (t : Thread Sample.daemon), t ∈ P.threads ∧
      Pool.Reachable Sample.daemon Sample.world (Unregistered "watcher-1")
        ⟨.single Sample.claudeRestored,.fresh⟩ P ∧
      succeededWait (CompositeRecipes.actionFor Sample.noManifests) t.history = 200 ∧
      200 * nanosPerSecond ≤ Registry.restartBudget.maxCumulativeWait - 0 := by
  obtain ⟨loop,t,hthreads,htest⟩ := Pool.exists_threads (l := Sample.waitedOnce.threads)
    (fun _ t => decide (t.call.watcherId? = some "watcher-1" ∧
      succeededWait (CompositeRecipes.actionFor Sample.noManifests) t.history = 200))
    (by decide +kernel)
  obtain ⟨hcall,hlength⟩ := of_decide_eq_true htest
  have ht : t ∈ Sample.waitedOnce.threads := by
    rw [hthreads]
    exact List.mem_cons_of_mem _ List.mem_cons_self
  have hkept := wait_budget_kept (CompositeRecipes.actionFor Sample.noManifests) Sample.owner
    genericObserves ⟨.single Sample.claudeRestored,.fresh⟩ "watcher-1" Registry.restartBudget 0
      Sample.claudeRestored_budgeted
  have hwithin := (hkept.1 _ Sample.waitedOnce_reached).2 t ht hcall
  rw [hlength] at hwithin
  exact ⟨_,t,ht,Sample.waitedOnce_reached,hlength,hwithin⟩

/-- Both waits succeed, 400 seconds together. -/
theorem wait_budget_exceeded :
    let _ := Sample.clocks
    ∃ P : Pool Sample.daemon ServiceState,
      (Registry.single Sample.claudeRestored).Has "watcher-1"
        (WatcherState.Budgeted Registry.restartBudget 0) ∧
      Pool.Reachable Sample.daemon Sample.world (Unregistered "watcher-1")
        ⟨.single Sample.claudeRestored,.fresh⟩ P ∧
      Registry.restartBudget.maxCumulativeWait <
        P.total (waitedBy (CompositeRecipes.actionFor Sample.noManifests) "watcher-1") *
          nanosPerSecond := by
  refine ⟨Sample.waitedTwice,Sample.claudeRestored_budgeted,?_,by decide +kernel⟩
  refine (Sample.waitedOnce_reached.play_of unasked _ ?_ (by decide +kernel)).play_of unasked _ ?_
    (by decide +kernel)
  all_goals exact fun V _ h => unregistered_of_unasked h V

end WatchMe
