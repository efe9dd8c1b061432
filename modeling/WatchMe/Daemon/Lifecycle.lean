import WatchMe.Daemon.Persistence
import WatchMe.Daemon.Registration
import WatchMe.Daemon.Requests

/-! # The lifecycle monitor, and watchers of one process

The monitor keeps its own view of every watched process and retargets a watcher when it takes
another process for a new execution of the one that vanished. A registration looks for a watcher
of its process; a retarget does not, so two watchers may come to share one.
-/
namespace WatchMe
open Effects

abbrev Monitors := StrMap LifecycleMonitor

def processReexecGraceMs : Nat := 2000

namespace Registry
variable {w : WatcherState} {R : Registry} {now : Nat} {c : RegistryCall}

def isGone : WatcherLifecycle → Bool
  | .stopped _ | .targetTerminated => true
  | _ => false

def monitorOf (monitors : Monitors) (watcher : WatcherState) : LifecycleMonitor :=
  monitors[watcher.watcherId]?.getD
    (.withReexecGrace watcher.target.processOf processReexecGraceMs)

def decisionOf (inspector : ProcessInspector) (now : Nat) (monitors : Monitors)
    (watcher : WatcherState) : LifecycleDecision :=
  ((monitorOf monitors watcher).observe inspector now).1

section Monitor
variable [JsonText] (inspector : ProcessInspector) (now : Nat) (writes : HostWrites)

/-- The body of the loop, with the number of writes made so far. -/
def monitorWatcher (s : Nat × Registry × Monitors) (watcher : WatcherState) :
    Nat × Registry × Monitors :=
  let (n,R,monitors) := s
  let id := watcher.watcherId
  if isGone watcher.lifecycle then (n,R,monitors.erase id)
  else
    let (decision,monitor) := (monitorOf monitors watcher).observe inspector now
    match decision with
    | .alive | .grace => (n,R,monitors.insert id monitor)
    | .reexecAccepted identity =>
      let (answer,R) := R.retargetProcess id identity now (writes n).2
      (n + 1,R,monitors.insert id (if answer.isOk then monitor.commitReexec identity else monitor))
    | .terminate =>
      let (answer,R) := R.transition id .targetTerminated now (writes n).2
      (n + 1,R,if answer.isOk then monitors.erase id else monitors.insert id monitor)

def monitorRound (R : Registry) (monitors : Monitors) : Registry × Monitors :=
  (R.list.foldl (monitorWatcher inspector now writes) (0,R,monitors)).2

variable {now writes}

omit [JsonText] in
theorem monitorCall_gone {decide : WatcherState → LifecycleDecision} (h : isGone w.lifecycle = true) :
    monitorCall decide now w = none := by
  unfold monitorCall
  cases hl : w.lifecycle with
  | stopped => rfl
  | targetTerminated => rfl
  | _ =>
    rw [hl] at h
    cases h

omit [JsonText] in
theorem monitorCall_present {decide : WatcherState → LifecycleDecision}
    (h : isGone w.lifecycle = false) : monitorCall decide now w =
      match decide w with
      | .alive | .grace => none
      | .reexecAccepted process => some (.retargetProcess w.watcherId process now)
      | .terminate => some (.transition w.watcherId .targetTerminated now) := by
  unfold monitorCall
  cases hl : w.lifecycle with
  | stopped =>
    rw [hl] at h
    cases h
  | targetTerminated =>
    rw [hl] at h
    cases h
  | _ => rfl

theorem performAll_append (R : Registry) (n : Nat) (calls calls' : List RegistryCall) :
    R.performAll writes n (calls ++ calls') =
      (R.performAll writes n calls).performAll writes (n + calls.length) calls' := by
  induction calls generalizing R n with
  | nil => rfl
  | cons c calls ih =>
    simp only [List.cons_append,performAll,ih,List.length_cons]
    congr 1
    omega

variable (now writes)

theorem monitorWatcher_eq (n : Nat) (R : Registry) (monitors : Monitors) (w : WatcherState) :
    let calls := (monitorCall (decisionOf inspector now monitors) now w).toList
    let s := monitorWatcher inspector now writes (n,R,monitors) w
    s.1 = n + calls.length ∧ s.2.1 = R.performAll writes n calls ∧
      ∀ id, id ≠ w.watcherId → s.2.2[id]? = monitors[id]? := by
  have hinsert : ∀ (m : LifecycleMonitor) (id : String), id ≠ w.watcherId →
      (monitors.insert w.watcherId m)[id]? = monitors[id]? := by
    intro m id hid
    rw [StrMap.getElem?_insert,if_neg (Ne.symm hid)]
  have herase : ∀ (id : String), id ≠ w.watcherId →
      (monitors.erase w.watcherId)[id]? = monitors[id]? := by
    intro id hid
    rw [StrMap.getElem?_erase,if_neg (Ne.symm hid)]
  by_cases hgone : isGone w.lifecycle = true
  · simp only [monitorWatcher,monitorCall_gone hgone,if_pos hgone]
    exact ⟨rfl,rfl,herase⟩
  · simp only [Bool.not_eq_true] at hgone
    simp only [monitorWatcher,monitorCall_present hgone,hgone,Bool.false_eq_true,if_false,
      decisionOf]
    obtain ⟨decision,m⟩ := (monitorOf monitors w).observe inspector now
    cases decision with
    | alive | grace => exact ⟨rfl,rfl,hinsert m⟩
    | reexecAccepted => exact ⟨rfl,rfl,hinsert _⟩
    | terminate =>
      refine ⟨rfl,rfl,fun id hid => ?_⟩
      dsimp only
      split
      · exact herase id hid
      · exact hinsert m id hid

theorem monitorWatcher_foldl (ws : List WatcherState) (hws : (ws.map (·.watcherId)).Nodup)
    (monitors₀ : Monitors) (n : Nat) (R : Registry) (monitors : Monitors)
    (hsame : ∀ w ∈ ws, monitors[w.watcherId]? = monitors₀[w.watcherId]?) :
    (ws.foldl (monitorWatcher inspector now writes) (n,R,monitors)).2.1 =
      R.performAll writes n
        (ws.filterMap (monitorCall (decisionOf inspector now monitors₀) now)) := by
  induction ws generalizing n R monitors with
  | nil => rfl
  | cons w ws ih =>
    obtain ⟨hn,hR,hothers⟩ := monitorWatcher_eq inspector now writes n R monitors w
    rw [List.map_cons,List.nodup_cons] at hws
    have hdecide : decisionOf inspector now monitors w = decisionOf inspector now monitors₀ w := by
      simp only [decisionOf,monitorOf,hsame w List.mem_cons_self]
    have hcall : monitorCall (decisionOf inspector now monitors) now w =
        monitorCall (decisionOf inspector now monitors₀) now w := by
      simp only [monitorCall,hdecide]
    have hcalls : (w :: ws).filterMap (monitorCall (decisionOf inspector now monitors₀) now) =
        (monitorCall (decisionOf inspector now monitors₀) now w).toList ++
          ws.filterMap (monitorCall (decisionOf inspector now monitors₀) now) := by
      rw [List.filterMap_cons]
      cases monitorCall (decisionOf inspector now monitors₀) now w <;> rfl
    rw [List.foldl_cons,hcalls,performAll_append]
    rw [hcall] at hn hR
    generalize monitorWatcher inspector now writes (n,R,monitors) w = s at hn hR hothers ⊢
    obtain ⟨n',R',monitors'⟩ := s
    dsimp only at hn hR hothers
    rw [← hn,← hR]
    refine ih hws.2 n' R' monitors' fun v hv => ?_
    rw [hothers v.watcherId fun heq => hws.1 (heq ▸ List.mem_map_of_mem hv)]
    exact hsame v (List.mem_cons_of_mem _ hv)

omit [JsonText] in
theorem list_nodup (hkeyed : R.Keyed) : (R.list.map (·.watcherId)).Nodup := by
  have hkeys : R.list.map (·.watcherId) = R.watchers.toList.map (·.1) := by
    rw [list,List.map_map]
    refine List.map_congr_left fun entry he => ?_
    exact hkeyed _ _ (Std.ExtTreeMap.mem_toList_iff_getElem?_eq_some.1 he)
  rw [hkeys,Std.ExtTreeMap.map_fst_toList_eq_keys]
  exact Std.ExtTreeMap.nodup_keys

theorem monitorRound_eq (hkeyed : R.Keyed) (monitors : Monitors) :
    (monitorRound inspector now writes R monitors).1 =
      R.monitorProcessLifecycles writes now (decisionOf inspector now monitors) :=
  monitorWatcher_foldl inspector now writes R.list (list_nodup hkeyed) monitors 0 R monitors
    fun _ _ => rfl

end Monitor

def SameProcess (p q : ProcessIdentity) : Prop := p.pid = q.pid ∧ p.startTime = q.startTime

theorem SameProcess.trans {p q r : ProcessIdentity} (h : SameProcess p q)
    (h' : SameProcess q r) : SameProcess p r :=
  ⟨h.1.trans h'.1,h.2.trans h'.2⟩

theorem exactProcessEq_iff {t t' : TargetIdentity} :
    exactProcessEq t t' = true ↔ SameProcess t.processOf t'.processOf := by
  simp [exactProcessEq,SameProcess]

theorem stableTargetEq_same {t t' : TargetIdentity} (h : stableTargetEq t t' = true) :
    SameProcess t.processOf t'.processOf := by
  cases t <;> cases t' <;> simp_all [stableTargetEq,SameProcess,TargetIdentity.processOf]

def OnePerProcess (m : StrMap WatcherState) : Prop :=
  ∀ (id id' : String) (w w' : WatcherState), m[id]? = some w → m[id']? = some w' →
    SameProcess w.target.processOf w'.target.processOf → id = id'

theorem OnePerProcess.insert {m : StrMap WatcherState} {id : String} (h : OnePerProcess m) (hw : ∀
      (i : String) (v : WatcherState), i ≠ id → m[i]? = some v → ¬ SameProcess v.target.processOf
      w.target.processOf) : OnePerProcess (m.insert id w) := by
  intro i j u v hu hv hsame
  rw [StrMap.getElem?_insert] at hu hv
  split at hu
  · next hi =>
    cases hu
    split at hv
    · next hj => exact hi.symm.trans hj
    · next hj => exact (hw j v (Ne.symm hj) hv ⟨hsame.1.symm,hsame.2.symm⟩).elim
  · next hi =>
    split at hv
    · next hj =>
      cases hv
      exact (hw i u (Ne.symm hi) hu hsame).elim
    · exact h i j u v hu hv hsame

theorem OnePerProcess.afterRestart {m : StrMap WatcherState} (h : OnePerProcess m) :
    OnePerProcess (m.map fun _ w => Registry.afterRestart w) := by
  intro i j u v hu hv hsame
  rw [Std.ExtTreeMap.getElem?_map,Option.map_eq_some_iff] at hu hv
  obtain ⟨u,hu,rfl⟩ := hu
  obtain ⟨v,hv,rfl⟩ := hv
  exact h i j u v hu hv hsame

/-- A map with every watcher under its identifier, and one for a process. -/
structure Separate (m : StrMap WatcherState) : Prop where
  keyed : ∀ (id : String) (w : WatcherState), m[id]? = some w → w.watcherId = id
  process : OnePerProcess m

theorem separate_restarts : Restarts Separate where
  keyed _ hm := hm.keyed
  empty := ⟨fun id w h => by simp at h,fun id id' w w' h => by simp at h⟩
  restarted _ hm := ⟨fun _ _ hw => afterRestart_keyed hm.keyed hw,hm.process.afterRestart⟩

structure Distinct (R : Registry) : Prop where
  memory : Separate R.watchers
  file : Saves Separate R.disk

theorem find_none {p : WatcherState → Bool} (h : R.find p = none) {id : String}
    (hw : R.watchers[id]? = some w) : p w = false := by
  rw [find,Option.map_eq_none_iff,List.find?_eq_none] at h
  simpa using h (id,w) (Std.ExtTreeMap.mem_toList_iff_getElem?_eq_some.2 hw)

theorem find_some {p : WatcherState → Bool} (h : R.find p = some w) :
    p w = true ∧ ∃ id : String, R.watchers[id]? = some w := by
  rw [find,Option.map_eq_some_iff] at h
  obtain ⟨entry,hentry,rfl⟩ := h
  have hp : p entry.2 = true := by simpa using List.find?_some hentry
  exact ⟨hp,entry.1,
    Std.ExtTreeMap.mem_toList_iff_getElem?_eq_some.1 (List.mem_of_find?_eq_some hentry)⟩

theorem resolves_same {fresh : WatcherState} {id : String} (hkeyed : R.Keyed)
    (h : R.resolves fresh = some id) (hw : R.watchers[id]? = some w) :
    SameProcess w.target.processOf fresh.target.processOf := by
  have hfound : ∀ {p : WatcherState → Bool} {v : WatcherState}, R.find p = some v →
      v.watcherId = id → p v = true ∧ v = w := by
    intro p v hfind hid
    obtain ⟨hp,i,hi⟩ := find_some hfind
    have hiid : i = id := (hkeyed i v hi).symm.trans hid
    exact ⟨hp,Option.some.inj (hi.symm.trans (hiid ▸ hw))⟩
  unfold resolves at h
  split at h
  · next existing hget =>
    split at h
    · next hstable =>
      have hid : fresh.watcherId = id := (hkeyed _ _ hget).symm.trans (Option.some.inj h)
      obtain rfl : existing = w := Option.some.inj (hget.symm.trans (hid ▸ hw))
      exact stableTargetEq_same hstable
    · cases h
  · split at h
    · next existing hfind =>
      obtain ⟨hstable,rfl⟩ := hfound hfind (Option.some.inj h)
      exact stableTargetEq_same hstable
    · split at h
      · next existing hfind =>
        split at h
        · obtain ⟨hexact,rfl⟩ := hfound hfind (Option.some.inj h)
          exact exactProcessEq_iff.1 hexact
        · cases h
      · cases h

def processAfter (w : WatcherState) : RegistryCall → ProcessIdentity
  | .register fresh => fresh.target.processOf
  | .retargetProcess _ process _ => process
  | _ => w.target.processOf

theorem edit_processOf {w' : WatcherState} (h : RegistryCall.Edit w w' c) :
    w'.target.processOf = processAfter w c := by
  cases c with
  | register fresh =>
    cases h
    exact congrArg _ (refreshed_target _ w fresh)
  | retargetProcess =>
    rw [(h.frame fun _ h => by cases h).1]
    unfold RegistryCall.targetAfter
    cases w.target <;> rfl
  | _ => exact congrArg _ (h.frame fun _ h => by cases h).1

/-- A retarget to a process that no other watcher has; any other call. -/
def Spares (R : Registry) : RegistryCall → Prop
  | .retargetProcess id process _ => ∀ (i : String) (v : WatcherState), i ≠ id →
    R.watchers[i]? = some v → ¬ SameProcess v.target.processOf process
  | _ => True

theorem entry_spares {id : String} (hR : R.Distinct) (hc : R.Spares c)
    (h : RegistryCall.Entry c R id w) (i : String) (v : WatcherState) (hi : i ≠ id)
    (hv : R.watchers[i]? = some v) : ¬ SameProcess v.target.processOf w.target.processOf := by
  cases h with
  | added _ _ _ hfind =>
    intro hsame
    have hexact := find_none hfind hv
    rw [exactProcessEq_iff.2 hsame] at hexact
    cases hexact
  | edited _ u u' now hu hedit habout =>
    have hprocess : u'.target.processOf = processAfter u c := edit_processOf hedit
    change ¬ SameProcess v.target.processOf u'.target.processOf
    rw [hprocess]
    intro hsame
    cases c with
    | register =>
      have hfresh := resolves_same hR.memory.keyed habout hu
      exact hi (hR.memory.process i id v u hv hu (hsame.trans ⟨hfresh.1.symm,hfresh.2.symm⟩))
    | retargetProcess =>
      obtain rfl := Option.some.inj habout
      exact hc i v hi hv hsame
    | _ => exact hi (hR.memory.process i id v u hv hu hsame)

section Runs
variable [JsonText]
variable {R : Registry} {w : WatcherState} {decide : WatcherState → LifecycleDecision}

theorem Distinct.performed {answer : Except RegistryError RegistryReply × Registry}
    (hR : R.Distinct) (hc : R.Spares c) (hp : RegistryCall.Performed c R answer) :
    answer.2.Distinct := by
  have hnext : ∀ id w, RegistryCall.Entry c R id w → Separate (R.watchers.insert id w) :=
    fun id w hw => ⟨hw.keyed_insert hR.memory.keyed,
      hR.memory.process.insert (entry_spares hR hc hw)⟩
  cases hp with
  | refused | rested => exact hR
  | stored reply w next heq hw =>
    subst heq
    exact ⟨hnext _ w hw,fun saved hsaved => ⟨_,(Option.some.inj hsaved).symm,hnext _ w hw⟩⟩
  | landed error id w next heq hw =>
    subst heq
    exact ⟨hR.memory,fun saved hsaved => ⟨_,(Option.some.inj hsaved).symm,hnext id w hw⟩⟩

theorem Distinct.reloads [Chrono] {R' : Registry} (hR : R.Distinct) (hr : Reloads R.disk R') :
    R'.Distinct := by
  obtain ⟨hmemory,hfile⟩ := hR.file.reloads separate_restarts hr
  exact ⟨hmemory,hfile⟩

omit [JsonText] in
theorem mem_list : w ∈ R.list ↔ ∃ id : String, R.watchers[id]? = some w := by
  simp only [list,List.mem_map,Prod.exists,Std.ExtTreeMap.mem_toList_iff_getElem?_eq_some,
    exists_eq_right]

def accepts (decide : WatcherState → LifecycleDecision) (w : WatcherState) :
    Option ProcessIdentity :=
  if isGone w.lifecycle then none
  else match decide w with
    | .reexecAccepted process => some process
    | _ => none

/-- No process that is accepted for a watcher is that of another watcher, or accepted for one. -/
def Unclaimed (decide : WatcherState → LifecycleDecision) (R : Registry) : Prop :=
  ∀ w ∈ R.list, ∀ v ∈ R.list, ∀ p, v.watcherId ≠ w.watcherId → accepts decide w = some p →
    ¬ SameProcess v.target.processOf p ∧ ∀ q, accepts decide v = some q → ¬ SameProcess q p

omit [JsonText] in
theorem accepts_of_retarget {id : String} {p : ProcessIdentity}
    (h : monitorCall decide now w = some (.retargetProcess id p now)) :
    accepts decide w = some p ∧ id = w.watcherId := by
  have hpresent : isGone w.lifecycle = false := by
    by_contra hgone
    simp only [Bool.not_eq_false] at hgone
    rw [monitorCall_gone hgone] at h
    cases h
  rcases monitorCall_cases h with ⟨q,hdecide,heq⟩ | ⟨-,heq⟩
  · cases heq
    refine ⟨?_,rfl⟩
    simp only [accepts,hpresent,hdecide]
    rfl
  · cases heq

def Accounted (decide : WatcherState → LifecycleDecision) (R R' : Registry) : Prop :=
  ∀ (i : String) (v : WatcherState), R'.watchers[i]? = some v → ∃ u, R.watchers[i]? = some u ∧
    (v.target.processOf = u.target.processOf ∨ accepts decide u = some v.target.processOf)

theorem Accounted.performed {R₁ R₂ : Registry} {answer : Except RegistryError RegistryReply}
    (hkeyed : R.Keyed) (h : Accounted decide R R₁) (hw : w ∈ R.list)
    (hc : monitorCall decide now w = some c) (hp : RegistryCall.Performed c R₁ (answer,R₂)) :
    Accounted decide R R₂ := by
  intro i v hv
  rcases hp.entry i with hsame | ⟨reply,v',-,hv',hentry⟩
  · exact h i v (hsame ▸ hv)
  · obtain rfl := Option.some.inj (hv'.symm.trans hv)
    cases hentry with
    | added _ hregister =>
      subst hregister
      rcases monitorCall_cases hc with ⟨_,-,heq⟩ | ⟨-,heq⟩ <;> cases heq
    | edited _ v₀ v₁ now' hv₀ hedit habout =>
      have hprocess : v₁.target.processOf = processAfter v₀ c := edit_processOf hedit
      obtain ⟨u,hu,hor⟩ := h i v₀ hv₀
      rcases monitorCall_cases hc with ⟨p,-,rfl⟩ | ⟨-,rfl⟩
      · -- the watcher that the monitor retargets is the one it looked at
        obtain ⟨id,hid⟩ := mem_list.1 hw
        obtain rfl := Option.some.inj habout
        obtain rfl := hkeyed id w hid
        obtain rfl := Option.some.inj (hid.symm.trans hu)
        refine ⟨w,hu,.inr ?_⟩
        exact (accepts_of_retarget hc).1.trans (congrArg some hprocess.symm)
      · refine ⟨u,hu,?_⟩
        change v₁.target.processOf = _ ∨ accepts decide u = some v₁.target.processOf
        rw [hprocess]
        exact hor

theorem Distinct.monitor (hR : R.Distinct) (hfree : Unclaimed decide R) (writes : HostWrites)
    (now : Nat) : (R.monitorProcessLifecycles writes now decide).Distinct := by
  have hstart : R.Distinct ∧ Accounted decide R R := ⟨hR,fun i v hv => ⟨v,hv,.inl rfl⟩⟩
  refine (Performs.invariant (I := fun R' => R'.Distinct ∧ Accounted decide R R') ?_
    (Performs.monitor R writes now decide) hstart).1
  rintro c R₁ answer R₂ ⟨w,hw,hc⟩ hp ⟨hdistinct,haccounted⟩
  refine ⟨hdistinct.performed ?_ hp,haccounted.performed hR.memory.keyed hw hc hp⟩
  rcases monitorCall_cases hc with ⟨p,-,rfl⟩ | ⟨-,rfl⟩
  · intro i v hi hv hsame
    obtain ⟨u,hu,hor⟩ := haccounted i v hv
    have hid : u.watcherId = i := hR.memory.keyed i u hu
    obtain ⟨hother,haccepted⟩ := hfree w hw u (mem_list.2 ⟨i,hu⟩) p (hid ▸ hi)
      (accepts_of_retarget hc).1
    rcases hor with heq | haccepts
    · exact hother (heq ▸ hsame)
    · exact haccepted _ haccepts hsame
  · trivial

end Runs

end Registry

inductive LifecycleOp where
  | call (call : RegistryCall)
  | monitor (inspector : ProcessInspector) (now : Nat)
  | restart

@[reducible] def LifecycleOp.Answer : LifecycleOp → Type
  | call _ => Except RegistryError RegistryReply
  | monitor _ _ | restart => Unit

abbrev lifecycleSig : Signature := ⟨LifecycleOp,LifecycleOp.Answer⟩

structure LifecycleState where
  registry : Registry
  monitors : Monitors

/-- Only the monitor retargets, and it starts anew with the daemon. -/
def lifecycleMachine [Chrono] [JsonText] : Machine lifecycleSig LifecycleState Empty where
  State := LifecycleState
  start s := s
  Step s e s' := match e with
    | ⟨.call c,answer⟩ => (∀ id process now, c ≠ .retargetProcess id process now) ∧
      s'.monitors = s.monitors ∧ ∃ host, c.perform s.registry host = (answer,s'.registry)
    | ⟨.monitor inspector now,_⟩ => ∃ writes,
      Registry.monitorRound inspector now writes s.registry s.monitors = (s'.registry,s'.monitors)
    | ⟨.restart,_⟩ => s'.monitors = ∅ ∧ Registry.Reloads s.registry.disk s'.registry
  result _ := none

/-- The monitor accepts no process that another watcher has. -/
def AcceptsUnclaimed (s : LifecycleState) (e : lifecycleSig.Event) : Prop :=
  match e with
  | ⟨.monitor inspector now,_⟩ =>
    Registry.Unclaimed (Registry.decisionOf inspector now s.monitors) s.registry
  | _ => True

/-- In every state of every run from the empty registry in which the monitor accepts no process
that another watcher has, no two watchers are of the same process. -/
theorem one_watcher_per_process [Chrono] [JsonText] {h : List lifecycleSig.Event}
    {s : LifecycleState}
    (hr : (lifecycleMachine.restrict AcceptsUnclaimed).Runs ⟨Registry.empty,∅⟩ h s)
    {id id' : String} {w w' : WatcherState} (hw : s.registry.get id = some w)
    (hw' : s.registry.get id' = some w')
    (hsame : w.target.processOf.pid = w'.target.processOf.pid ∧
      w.target.processOf.startTime = w'.target.processOf.startTime) : id = id' := by
  have hdistinct : s.registry.Distinct := by
    refine hr.invariant ?_ ?_
    · exact ⟨Registry.separate_restarts.empty,fun saved h => by cases h⟩
    · rintro h s ⟨op,answer⟩ s' hs ⟨hfree,hstep⟩
      cases op with
      | call c =>
        obtain ⟨hc,-,host,hcall⟩ := hstep
        have hp := c.perform_performed s.registry host
        rw [hcall] at hp
        refine hs.performed ?_ hp
        cases c with
        | retargetProcess id process now => exact (hc id process now rfl).elim
        | _ => trivial
      | monitor inspector now =>
        obtain ⟨writes,hround⟩ := hstep
        have heq := Registry.monitorRound_eq inspector now writes hs.memory.keyed s.monitors
        rw [hround] at heq
        rw [show s'.registry = _ from heq]
        exact hs.monitor hfree writes now
      | restart => exact hs.reloads hstep.2
  exact hdistinct.memory.process id id' w w' hw hw' hsame

namespace Sample
open Registry

def agentProcess (pid startTime : Nat) : ProcessRecord :=
  ⟨pid,5,startTime,some "/usr/bin/claude",none,some 1000,some 6,some 5,some "dev:136:1"⟩

def agentWatcher (pid startTime : Nat) : WatcherState :=
  processRegistration (agentProcess pid startTime).identity ⟨none,none⟩ 0

def daemonProcess : ProcessRecord := ⟨9,1,1,none,none,none,none,none,none⟩

def daemonWatcher : WatcherState := processRegistration daemonProcess.identity ⟨none,none⟩ 0

def reexecuted : ProcessInspector where
  inspect pid :=
    if pid = 8 then .ok (agentProcess 8 5)
    else if pid = 9 then .ok daemonProcess
    else .error (.disappeared pid)
  processesOnTty tty := .ok (if tty = "dev:136:1" then [agentProcess 8 5] else [])

def registeredBoth (w w' : WatcherState) : Registry :=
  let _ := jsonText
  ((empty.register w .stored).2.register w' .stored).2

def monitored (w w' : WatcherState) : Registry × Monitors :=
  let _ := jsonText
  monitorRound reexecuted 1000 (fun _ => (0,.stored)) (registeredBoth w w') ∅

def lifecycleHistory (w w' : WatcherState) : List lifecycleSig.Event :=
  [⟨.call (.register w),.ok (.registered (.added w.watcherId))⟩,
    ⟨.call (.register w'),.ok (.registered (.added w'.watcherId))⟩,
    ⟨.monitor reexecuted 1000,()⟩]

theorem runs_monitored {φ : LifecycleState → lifecycleSig.Event → Prop} {w w' : WatcherState}
    (hcalls : ∀ s c answer, φ s ⟨.call c,answer⟩)
    (hmonitor : φ ⟨registeredBoth w w',∅⟩ ⟨.monitor reexecuted 1000,()⟩)
    (hfirst : let _ := jsonText
      (empty.register w .stored).1 = .ok (.added w.watcherId))
    (hsecond : let _ := jsonText
      ((empty.register w .stored).2.register w' .stored).1 = .ok (.added w'.watcherId)) :
    let _ := chrono
    let _ := jsonText
    (lifecycleMachine.restrict φ).Runs ⟨empty,∅⟩ (lifecycleHistory w w')
      ⟨(monitored w w').1,(monitored w w').2⟩ := by
  intro _ _
  have hregister : ∀ (R : Registry) (v : WatcherState),
      (R.register v .stored).1 = .ok (.added v.watcherId) →
      (lifecycleMachine.restrict φ).Step ⟨R,∅⟩
        ⟨.call (.register v),.ok (.registered (.added v.watcherId))⟩
        ⟨(R.register v .stored).2,∅⟩ := by
    intro R v hv
    refine ⟨hcalls _ _ _,?_⟩
    change (∀ id process now, RegistryCall.register v ≠ .retargetProcess id process now) ∧ _ ∧ _
    refine ⟨fun _ _ _ h => (by cases h),rfl,.stored,?_⟩
    rw [RegistryCall.perform,RegistryCall.replied,hv]
    rfl
  exact ((Machine.Runs.start.snoc (hregister _ w hfirst)).snoc (hregister _ w' hsecond)).snoc
    ⟨hmonitor,fun _ => (0,.stored),rfl⟩

end Sample

theorem one_watcher_per_process_reexecuted :
    let _ := Sample.chrono
    let _ := Sample.jsonText
    ∃ s w, (lifecycleMachine.restrict AcceptsUnclaimed).Runs ⟨Registry.empty,∅⟩
        (Sample.lifecycleHistory (Sample.agentWatcher 7 1) Sample.daemonWatcher) s ∧
      s.registry.get "process-7-1" = some w ∧ w.target.processOf.pid = 8 ∧
      ∀ id w', s.registry.get id = some w' → w.target.processOf.pid = w'.target.processOf.pid ∧
        w.target.processOf.startTime = w'.target.processOf.startTime → "process-7-1" = id := by
  intro _ _
  have hfree : Registry.Unclaimed (Registry.decisionOf Sample.reexecuted 1000 ∅)
      (Sample.registeredBoth (Sample.agentWatcher 7 1) Sample.daemonWatcher) := by
    have hlist : (Sample.registeredBoth (Sample.agentWatcher 7 1) Sample.daemonWatcher).list =
        [Sample.agentWatcher 7 1,Sample.daemonWatcher] := rfl
    have hagent : Registry.accepts (Registry.decisionOf Sample.reexecuted 1000 ∅)
        (Sample.agentWatcher 7 1) = some (Sample.agentProcess 8 5).identity := rfl
    have hdaemon : Registry.accepts (Registry.decisionOf Sample.reexecuted 1000 ∅)
        Sample.daemonWatcher = none := rfl
    intro w hw v hv p hne haccepts
    rw [hlist,List.mem_pair] at hw hv
    rcases hw with rfl | rfl
    · obtain rfl := Option.some.inj (hagent.symm.trans haccepts)
      rcases hv with rfl | rfl
      · exact (hne rfl).elim
      · refine ⟨fun hsame => absurd hsame.1 (by decide),fun q hq => ?_⟩
        cases hdaemon.symm.trans hq
    · cases hdaemon.symm.trans haccepts
  have hruns : (lifecycleMachine.restrict AcceptsUnclaimed).Runs ⟨Registry.empty,∅⟩ _ _ :=
    Sample.runs_monitored (fun _ _ _ => trivial) hfree rfl rfl
  obtain ⟨w,hw,hpid⟩ : ∃ w, (Sample.monitored (Sample.agentWatcher 7 1)
      Sample.daemonWatcher).1.get "process-7-1" = some w ∧ w.target.processOf.pid = 8 :=
    ⟨_,rfl,rfl⟩
  exact ⟨_,w,hruns,hw,hpid,fun id w' hw' hsame => one_watcher_per_process hruns hw hw' hsame⟩

/-- The new process was registered before the monitor looked: both watchers are of it. -/
theorem two_watchers_of_one_process :
    let _ := Sample.chrono
    let _ := Sample.jsonText
    ∃ s w w', lifecycleMachine.Runs ⟨Registry.empty,∅⟩
        (Sample.lifecycleHistory (Sample.agentWatcher 7 1) (Sample.agentWatcher 8 5)) s ∧
      s.registry.get "process-7-1" = some w ∧ s.registry.get "process-8-5" = some w' ∧
      w.target.processOf.pid = w'.target.processOf.pid ∧
      w.target.processOf.startTime = w'.target.processOf.startTime := by
  intro _ _
  have hruns : (lifecycleMachine.restrict fun _ _ => True).Runs ⟨Registry.empty,∅⟩
      (Sample.lifecycleHistory (Sample.agentWatcher 7 1) (Sample.agentWatcher 8 5)) _ :=
    Sample.runs_monitored (fun _ _ _ => trivial) trivial rfl rfl
  exact ⟨_,_,_,hruns.unrestrict,rfl,rfl,rfl,rfl⟩

end WatchMe
