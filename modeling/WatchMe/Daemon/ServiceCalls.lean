import WatchMe.Daemon.Service

/-! # What the tasks do to the registry

`answers_performs` names the registry calls behind every request of a task, and `asks_issued`
the registry calls that a task asks for directly. Together they bound what can happen to a
watcher in a run: a fact about it that these calls keep holds from then on.
-/
namespace WatchMe
open Effects Program Transaction Service

/-- The registry calls that answer a request in a registry, each with the registry in which it
is made. -/
inductive EventCalls (R₀ : Registry) : ServiceEvent → Registry → RegistryCall → Prop
  | registry (c : RegistryCall) (answer : Except RegistryError RegistryReply) :
      EventCalls R₀ ⟨.daemon (.registry c),answer⟩ R₀ c
  | beginAction (id fingerprint : String) (clock : ClockSnapshot) (now : Nat)
      (answer : Option WatcherState) : EventCalls R₀ ⟨.daemon (.beginAction id fingerprint),answer⟩
        R₀ (RecoveryCoordinator.beginAction id fingerprint clock now)
  | markResume (id fingerprint : String) (event : Event) (now : Nat)
      (answer : Option WatcherState) (R : Registry) :
      (R.get id).bind (·.lastObservation) = some event → isCodexResume event = true →
      EventCalls R₀ ⟨.daemon (.beginAction id fingerprint),answer⟩ R
        (.persistObservationEvent id (markResumeSent event fingerprint) now)
  | postpone (id : String) (untilMs now : Nat) (schedule : ObservationSchedule)
      (answer : Except String Unit) :
      EventCalls R₀ ⟨.daemon (.scheduleWait id untilMs now),answer⟩ R₀
        (.persistObservationSchedule id schedule now)
  | wait (id : String) (untilMs now : Nat) (answer : Except String Unit) (R : Registry) :
      EventCalls R₀ ⟨.daemon (.scheduleWait id untilMs now),answer⟩ R
        (.transition id (.waiting untilMs "recovery wait scheduled") now)
  | commit (id : String) (schedule : ObservationSchedule) (event : Option Event) (now : Nat)
      (answer : Option WatcherState) : EventCalls R₀ ⟨.commit id schedule event,answer⟩ R₀
        (.commitObservation id schedule event now)
  | serve (request : Request) (c : RegistryCall) (answer : Response) (R : Registry) :
      request.Calls R₀ R c → EventCalls R₀ ⟨.handle request,answer⟩ R c
  | monitor (decide : WatcherState → LifecycleDecision) (now : Nat) (w : WatcherState)
      (c : RegistryCall) (R : Registry) : w ∈ R₀.list →
      Registry.monitorCall decide now w = some c → EventCalls R₀ ⟨.monitor,decide⟩ R c

namespace Registry
variable [JsonText] {R R' : Registry}

theorem Performs.call {φ : Registry → RegistryCall → Prop} {c : RegistryCall}
    {answer : Except RegistryError RegistryReply} (host : WriteOutcome) (hc : φ R c)
    (h : c.perform R host = (answer,R')) : Performs φ R R' := by
  have hp := c.perform_performed R host
  rw [h] at hp
  exact .single hc hp

theorem beginAction_performs {id fingerprint : String} {clock : ClockSnapshot} {now later : Nat}
    {host host' : WriteOutcome} {answer : Option WatcherState}
    (h : R.beginAction id fingerprint clock now later host host' = (answer,R')) :
    Performs (EventCalls R ⟨.daemon (.beginAction id fingerprint),answer⟩) R R' := by
  have hp := RegistryCall.perform_performed
    (RecoveryCoordinator.beginAction id fingerprint clock now) R host
  have hcall : (RecoveryCoordinator.beginAction id fingerprint clock now).perform R host =
      RegistryCall.replied .moved
        (R.applyRecoveryTransition id (.beginAction fingerprint clock) now host) := rfl
  rw [hcall] at hp
  unfold beginAction at h
  generalize R.applyRecoveryTransition id (.beginAction fingerprint clock) now host = called
    at hp h
  obtain ⟨_ | state,R₁⟩ := called
  · cases h
    exact .single (.beginAction id fingerprint clock now _) hp
  · cases h
    refine .cons (.beginAction id fingerprint clock now _) hp ?_
    change Performs _ R₁ (R₁.markedResume id fingerprint later host')
    unfold markedResume
    split
    · exact .nil R₁
    · next event hevent =>
      split
      · next hresume =>
        exact .call host' (.markResume id fingerprint event later _ R₁ hevent
          (by simpa [isCodexResume] using hresume)) rfl
      · exact .nil R₁

theorem scheduleWait_calls {φ : Registry → RegistryCall → Prop} {id : String} {untilMs now : Nat}
    {host host' : WriteOutcome} {answer : Except String Unit}
    (h : R.scheduleWait id untilMs now host host' = (answer,R'))
    (hpostpone : ∀ w, R.get id = some w → φ R (.persistObservationSchedule id
      { w.observationSchedule with nextDueWallMs := untilMs, eventWakePending := false } now))
    (hwait : ∀ R₁, φ R₁ (.transition id (.waiting untilMs "recovery wait scheduled") now)) :
    Performs φ R R' := by
  unfold scheduleWait at h
  cases hw : R.get id with
  | none =>
    simp only [hw] at h
    cases h
    exact .nil R
  | some w =>
    have hschedule := hpostpone w hw
    simp only [hw] at h
    generalize { w.observationSchedule with
      nextDueWallMs := untilMs, eventWakePending := false } = schedule at h hschedule
    have hp := RegistryCall.perform_performed (.persistObservationSchedule id schedule now) R host
    rw [RegistryCall.perform] at hp
    generalize R.persistObservationSchedule id schedule now host = called at hp h
    obtain ⟨_ | _,R₁⟩ := called
    · cases h
      exact .single hschedule hp
    · cases h
      exact .cons hschedule hp (.call host' (hwait R₁) rfl)

end Registry

section World
variable [Chrono] [JsonText] {observes : Observes} {s s' : ServiceState} {e : ServiceEvent}

theorem answers_performs (h : (serviceWorld observes).Answers s e s') :
    Registry.Performs (EventCalls s.registry e) s.registry s'.registry := by
  obtain ⟨op,answer⟩ := e
  cases op with
  | daemon op =>
    obtain ⟨h,-⟩ := h
    cases op with
    | registry c =>
      obtain ⟨host,hcall⟩ := h
      exact .call host (.registry c answer) hcall
    | beginAction =>
      obtain ⟨clock,now,later,host,host',hcall⟩ := h
      exact Registry.beginAction_performs hcall
    | scheduleWait id untilMs now =>
      obtain ⟨host,host',hcall⟩ := h
      exact Registry.scheduleWait_calls hcall (fun _ _ => .postpone id untilMs now _ _)
        fun R₁ => .wait id untilMs now _ R₁
    | muxCommand | capture | watcher =>
      rw [h.1]
      exact .nil _
    | nowMs | cancellationRequested | processAlive | validateMux | composerSafe | notify =>
      rw [show s'.registry = s.registry from h]
      exact .nil _
  | ledger =>
    rw [h.2]
    exact .nil _
  | list | observe =>
    rw [h.1]
    exact .nil _
  | commit id schedule event =>
    obtain ⟨-,now,host,result,hcall,rfl⟩ := h
    have hperform : (RegistryCall.commitObservation id schedule event now).perform s.registry host =
        (result.map fun _ => .done,s'.registry) := by
      rw [RegistryCall.perform,hcall,RegistryCall.replied]
    exact .call host (.commit id schedule event now _) hperform
  | handle request =>
    obtain ⟨-,writes,hserve⟩ := h
    have hp := Registry.Performs.serve s.registry writes request
    rw [hserve] at hp
    exact hp.mono fun R c hc => .serve request c answer R hc
  | monitor =>
    obtain ⟨-,writes,now,heq⟩ := h
    rw [heq]
    exact (Registry.Performs.monitor s.registry writes now answer).mono
      fun R c h => h.elim fun w hw => .monitor answer now w c R hw.1 hw.2
  | executed | wallNowMs | monoNowMs | sleepUntilMono | jobTimedOut =>
    rw [show s' = s from h]
    exact .nil _

end World

inductive TaskCall : RegistryCall → Prop
  | handOff (id reason : String) (now : Nat) :
      TaskCall (.transition id (.humanRequired reason) now)
  | stop (id : String) (now : Nat) :
      TaskCall (.transition id (.stopped "recovery action stopped watcher") now)
  | succeeded (id fingerprint : String) (now : Nat) :
      TaskCall (RecoveryCoordinator.actionSucceeded id fingerprint now)

def Issued : ServiceOp → Prop
  | .daemon (.registry c) => TaskCall c
  | _ => True

def Concludes : ServiceOp → Prop
  | .daemon (.registry c) => TaskCall c
  | .daemon .nowMs | .daemon .cancellationRequested => True
  | _ => False

/-- The tasks commit no observation, and none of them turns into the observation loop. -/
def Tasked : ServiceOp → Prop
  | .commit _ _ _ => False
  | op => Issued op

def Unobserving : Resumption ⊕ Unit → Prop
  | .inl (.round _) => False
  | _ => True

/-- What a call asks, and how it goes on. -/
def ServiceCall.Asked : ServiceCall → ServiceOp → Prop
  | .observationLoop => Issued
  | _ => Tasked

def ServiceCall.Resumes : ServiceCall → Resumption ⊕ Unit → Prop
  | .observationLoop => fun r => ∃ due, r = .inl (.round due)
  | _ => Unobserving

theorem ServiceCall.Asked.issued {call : ServiceCall} {op : ServiceOp} (h : call.Asked op) :
    Issued op := by
  cases call with
  | observationLoop => exact h
  | _ => cases op <;> first | exact h | trivial

theorem Concludes.tasked {op : ServiceOp} (h : Concludes op) : Tasked op := by
  cases op with
  | daemon op => cases op <;> first | exact h | trivial
  | _ => exact h.elim

namespace Service

theorem asks_ask {φ : ServiceOp → Prop} (op : ServiceOp) (h : φ op) :
    (ask op).Asks (S := serviceSig) φ :=
  ⟨h,fun _ => trivial⟩

theorem asks_handOff (id reason : String) :
    (handOff id reason).Asks (S := serviceSig) Concludes := by
  refine (asks_ask (.daemon .nowMs) trivial).bind fun now => ?_
  exact (asks_ask (.daemon (.registry _)) (.handOff id reason now)).bind fun _ => trivial

theorem asks_handOff_tasked (id reason : String) :
    (handOff id reason).Asks (S := serviceSig) Tasked :=
  (asks_handOff id reason).mono fun _ h => h.tasked

theorem conclude_asks (d : Dispatched)
    (result : Except TransactionError (Option (Poll ⊕ ActionRecord))) :
    Conforms (asking Tasked) (fun _ => Unobserving) (conclude d result) () := by
  rcases result with error | (_ | (p | record))
  · exact (asks_handOff_tasked _ _).andThen fun _ => trivial
  · trivial
  · trivial
  · change Conforms (asking (S := serviceSig) Tasked) _
      (if record.phase = .succeeded then _ else _) ()
    split
    · refine (asks_ask (.daemon .cancellationRequested) trivial).andThen fun cancelled => ?_
      split
      · exact (asks_handOff_tasked _ _).andThen fun _ => trivial
      · refine (asks_ask (.daemon .nowMs) trivial).andThen fun now => ?_
        exact (asks_ask (.daemon (.registry _)) (.succeeded _ _ now)).andThen fun _ => trivial
    · trivial

theorem asks_observeAll (queue : Queue) : (observeAll queue).Asks (S := serviceSig) Issued := by
  induction queue with
  | nil => trivial
  | cons entry queue ih =>
    refine (asks_ask (.observe entry.1) trivial).bind fun observed => ?_
    split
    · exact ih
    · exact (asks_ask (.commit _ _ _) trivial).bind fun _ => ih

theorem round_asks (due : RuntimeDue) :
    Conforms (asking Issued) (fun _ r => ∃ due, r = .inl (.round due)) (runObservationRound due)
      () := by
  refine (asks_ask .wallNowMs trivial).andThen fun now => ?_
  refine (asks_ask .monoNowMs trivial).andThen fun mono => ?_
  refine (asks_ask .list trivial).andThen fun watchers => ?_
  refine (asks_observeAll _).andThen fun _ => ?_
  exact (asks_ask (.sleepUntilMono _) trivial).andThen fun _ => ⟨_,rfl⟩

theorem asks_waitForTerminalJobs (jobs : List String) :
    (waitForTerminalJobs jobs).Asks (S := serviceSig) Tasked := by
  induction jobs with
  | nil => trivial
  | cons id jobs ih =>
    refine (asks_ask (.jobTimedOut id) trivial).bind fun late => ?_
    split
    · exact (asks_handOff_tasked id _).bind fun _ => ih
    · exact ih

section Jobs
variable [Chrono] [Digest]

theorem asks_executor (snapshot : WatcherState) (action : Action) :
    ((Executor.execute snapshot action).run.interpret askDaemon).Asks (S := serviceSig)
      fun op => ∃ d, op = .daemon d ∧ Executes snapshot action d :=
  Asks.interpret (S := daemonSig) (fun op hop => asks_ask (.daemon op) ⟨op,rfl,hop⟩)
    (Executor.asks_execute snapshot action)

theorem asks_handleTx (snapshot : WatcherState) (op : TxOp) :
    (handleTx snapshot op).Asks (S := serviceSig) Tasked := by
  cases op with
  | executeReturns action =>
    have hexecutor : ((Executor.execute snapshot action).run.interpret askDaemon).Asks
        (S := serviceSig) Tasked := by
      refine (asks_executor snapshot action).mono ?_
      rintro _ ⟨op,rfl,hop⟩
      cases op with
      | registry =>
        cases hop with
        | escalate now => exact TaskCall.handOff _ _ now
        | stop now => exact TaskCall.stop _ now
      | _ => trivial
    refine hexecutor.bind fun result => ?_
    exact (asks_ask (.executed action result) trivial).bind fun _ => trivial
  | _ => exact asks_ask (.ledger _) trivial

theorem asks_transaction {α : Type} (p : Program txSig α) (snapshot : WatcherState) :
    (p.interpret (handleTx snapshot)).Asks (S := serviceSig) Tasked :=
  (asks_true p).interpret fun op _ => asks_handleTx snapshot op

theorem body_asks {call : ServiceCall} {r : Resumption} (hr : call.Resumes (.inl r)) :
    Conforms (asking call.Asked) (fun _ => call.Resumes) (body r) () := by
  have htask : Unobserving (.inl r) →
      Conforms (asking Tasked) (fun _ => Unobserving) (body r) () := by
    intro hr
    cases r with
    | round => exact hr.elim
    | polling d => exact (asks_transaction _ _).andThen fun _ => conclude_asks d _
    | monitoring => exact (asks_ask .monitor trivial).andThen fun _ => trivial
  cases call with
  | observationLoop =>
    obtain ⟨due,hdue⟩ := hr
    cases hdue
    exact round_asks due
  | _ => exact htask hr

variable [Render]

theorem execute_asks (recipes : WatcherState → Option Action) (owner : OwnerIdentity)
    (watcher : WatcherState) : Conforms (asking Tasked) (fun _ => Unobserving)
      (executeRecoveryAction recipes owner watcher) () := by
  refine (asks_ask (.daemon .cancellationRequested) trivial).andThen fun cancelled => ?_
  split
  · trivial
  · cases recipes watcher with
    | none => trivial
    | some =>
      dsimp only
      split
      · trivial
      · refine (asks_ask (.daemon (.beginAction _ _)) trivial).andThen fun begun => ?_
        cases begun with
        | none => trivial
        | some current =>
          refine Asks.andThen ?_ fun result => conclude_asks _ result
          unfold engineExecute
          cases recipes current with
          | none => trivial
          | some =>
            refine (asks_ask (.ledger .monotonicMs) trivial).bind fun mono => ?_
            cases RecoveryContext.fromWatcher current (mono / 1000) with
            | error => trivial
            | ok => exact (asks_transaction _ _).bind fun _ => trivial

theorem main_asks (recipes : WatcherState → Option Action) (owner : OwnerIdentity)
    (call : ServiceCall) :
    Conforms (asking call.Asked) (fun _ => call.Resumes) (main recipes owner call) () := by
  cases call with
  | observationLoop => exact round_asks ∅
  | recover watcher => exact execute_asks recipes owner watcher
  | serve request => exact (asks_ask (.handle request) trivial).andThen fun _ => trivial
  | lifecycleMonitor => trivial
  | shutdown jobs => exact (asks_waitForTerminalJobs jobs).andThen fun _ => trivial
  | recoverStale | recoverAfterRestart =>
    exact Asks.andThen ((asks_true _).interpret fun op _ => asks_ask (.ledger op) trivial)
      fun _ => trivial

theorem asked_step {recipes : WatcherState → Option Action} {owner : OwnerIdentity}
    {call : ServiceCall} {h : List ServiceEvent} {p q : (serviceMachine recipes owner).State}
    {e : ServiceEvent} (hr : (serviceMachine recipes owner).Runs call h p)
    (hs : (serviceMachine recipes owner).Step p e q) : call.Asked e.op := by
  have hmain : Conforms (asking call.Asked) (fun _ => call.Resumes) (main recipes owner call)
      ((asking (S := serviceSig) call.Asked).start ()) := main_asks recipes owner call
  obtain ⟨s,hrun,-⟩ := hmain.runs (fun _ _ => body_asks) (hr.snoc hs)
  exact asking_runs hrun e (List.mem_append_right _ (List.mem_singleton.2 rfl))

end Jobs

end Service

abbrev ServiceDiscipline := Discipline serviceSig ServiceCall Unit ServiceState

section Runs
variable [Chrono] [Render] [Digest] [JsonText] {recipes : WatcherState → Option Action}
  {owner : OwnerIdentity} {observes : Observes}
  {D D' : ServiceDiscipline} {init : ServiceState}
  {P Q : Pool (serviceMachine recipes owner) ServiceState}
variable {e : ServiceEvent}

theorem issued_step {i : Nat}
    (hr : Pool.Reachable (serviceMachine recipes owner) (serviceWorld observes) D init P)
    (hs : Pool.Step (serviceWorld observes) P (.act i e) Q) : Issued e.op := by
  cases hs with
  | act _ t _ s shared ht _ hm => exact (asked_step (hr.runs_at ht) hm).issued

omit [Render] [Digest] in
theorem keyed_answers {s s' : ServiceState} (hkeyed : s.registry.Keyed)
    (hw : (serviceWorld observes).Answers s e s') : s'.registry.Keyed :=
  (answers_performs hw).keyed hkeyed

theorem service_keyed (hinit : init.registry.Keyed)
    (hr : Pool.Reachable (serviceMachine recipes owner) (serviceWorld observes) D init P) :
    P.shared.registry.Keyed := by
  refine hr.invariant hinit ?_
  rintro P l P' - hkeyed - hs
  cases hs with
  | spawn => exact hkeyed
  | act i t e s shared _ _ _ hw => exact keyed_answers hkeyed hw
  | crash shared hw => exact hw.1.keyed

omit [Render] [Digest] in
theorem answers_keep {s s' : ServiceState} {id : String} {ψ : WatcherState → Prop}
    (hw : (serviceWorld observes).Answers s e s') (h : ∃ v, s.registry.get id = some v ∧ ψ v) (hedit
      : ∀ R c v v' now, EventCalls s.registry e R c → R.get id = some v → ψ v → RegistryCall.Edit v
      v' c → c.about R = some id → ψ { v' with revision := v'.revision + 1, updatedAtUnixMs := now
      }) : ∃ v, s'.registry.get id = some v ∧ ψ v := by
  refine (answers_performs hw).invariant (I := fun R => ∃ v, R.get id = some v ∧ ψ v) ?_ h
  rintro c R answer R' hc hp ⟨v,hv,hψ⟩
  rcases hp.entry id with hsame | ⟨reply,w,-,hw,hentry⟩
  · exact ⟨v,hsame.trans hv,hψ⟩
  · cases hentry with
    | added _ _ hnone => cases hnone.symm.trans hv
    | edited _ u u' now hu hedits habout =>
      obtain rfl := Option.some.inj (hv.symm.trans hu)
      exact ⟨_,hw,hedit R c v u' now hc hv hψ hedits habout⟩

/-- A fact about a watcher holds from then on if a restart keeps it and every registry call
does that the discipline admits. -/
theorem has_leads {id : String} {ψ : WatcherState → Prop}
    (hr : Pool.Reachable (serviceMachine recipes owner) (serviceWorld observes) D' init P)
    (hD : ∀ V l, D V l → D' V l) (hlead : Pool.Leads (serviceWorld observes) D P Q)
    (hP : P.shared.registry.Has id ψ) (hrestart : ∀ w, ψ w → ψ (Registry.afterRestart w))
    (hcall : ∀ V i e R c v v' now, D V (.act i e) → Issued e.op →
      EventCalls V.shared.registry e R c → R.watchers[id]? = some v → ψ v →
      RegistryCall.Edit v v' c → c.about R = some id →
      ψ { v' with revision := v'.revision + 1, updatedAtUnixMs := now }) :
    Q.shared.registry.Has id ψ := by
  refine hlead.invariant hP ?_
  intro Q l Q' hQ hhas hd hs
  have hreach := hQ.reachable hD hr
  cases hs with
  | spawn => exact hhas
  | act i t e s shared ht ha hm hw =>
    have hissued := issued_step hreach (.act Q i t e s shared ht ha hm hw)
    refine (answers_performs hw).invariant ?_ hhas
    intro c R answer R' hc hp hR
    exact hR.performed hp fun v v' now hv hψ hedit habout =>
      hcall Q.view i e R c v v' now hd hissued hc hv hψ hedit habout
  | crash shared hw => exact hhas.reloads hrestart hw.1

end Runs

end WatchMe
