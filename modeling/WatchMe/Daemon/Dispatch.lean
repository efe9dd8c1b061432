import WatchMe.Daemon.Executor
import WatchMe.Daemon.Reload
import WatchMe.Effects.Play
import WatchMe.Recovery.RunTraces

/-! # Dispatch is linearized by the registry lock

A recovery takes a snapshot of its watcher and, when it comes to type into the pane, holds
the lock while it compares the snapshot with the registry and runs the command. Equality
is a version check: no call takes a watcher away, and one that changes it counts its
revision up, so a watcher that is equal again was never different.
-/
namespace WatchMe
open Effects Program

def markResumeSent (event : Event) (fingerprint : String) : Event :=
  if fingerprint = "" then event
  else { event with
    metadata := event.metadata.insert "codex_resume_sent_fingerprint" (.string fingerprint) }

namespace Registry
variable [JsonText]

def markedResume (R : Registry) (id fingerprint : String) (now : Nat) (host : WriteOutcome) :
    Registry :=
  match (R.get id).bind (·.lastObservation) with
  | none => R
  | some event =>
    if event.metadata["codex_resume"]? = some (.bool true) then
      (R.persistObservationEvent id (markResumeSent event fingerprint) now host).2
    else R

/-- What a recovery does under the lock before it runs its transaction: it begins the
action, marks a Codex resume as sent and takes the snapshot. -/
def beginAction (R : Registry) (id fingerprint : String) (clock : ClockSnapshot)
    (now later : Nat) (host host' : WriteOutcome) : Option WatcherState × Registry :=
  match R.applyRecoveryTransition id (.beginAction fingerprint clock) now host with
  | (.error _,R) => (none,R)
  | (.ok _,R) =>
    let R := R.markedResume id fingerprint later host'
    ((R.dispatchSnapshot id).toOption,R)

/-- The critical section of `DaemonRuntimeServices::schedule`. -/
def scheduleWait (R : Registry) (id : String) (untilMs now : Nat) (host host' : WriteOutcome) :
    Except String Unit × Registry :=
  match R.get id with
  | none => (.error "unknown watcher for scheduled action",R)
  | some watcher =>
    let schedule := { watcher.observationSchedule with
      nextDueWallMs := untilMs, eventWakePending := false }
    match R.persistObservationSchedule id schedule now host with
    | (.error error,R) => (.error error.text,R)
    | (.ok (),R) =>
      let (answer,R) := R.transition id (.waiting untilMs "recovery wait scheduled") now host'
      (answer.mapError RegistryError.text,R)

/-- What holds between a registry and a later one of the same daemon. -/
structure Follows (R R' : Registry) : Prop where
  keyed : R.Keyed → R'.Keyed
  advances : Advances WatcherState.revision R.get R'.get

omit [JsonText] in
theorem Follows.refl (R : Registry) : Follows R R := ⟨id,.refl _⟩

omit [JsonText] in
theorem Follows.trans {R R' R'' : Registry} (h : Follows R R') (h' : Follows R' R'') :
    Follows R R'' :=
  ⟨h'.keyed ∘ h.keyed,h.advances.trans h'.advances⟩

theorem follows_performed {β : Type} {c : RegistryCall} {R : Registry} {reply : β → RegistryReply}
    {answer : Except RegistryError β × Registry}
    (h : RegistryCall.Performed c R (RegistryCall.replied reply answer)) : Follows R answer.2 :=
  ⟨h.keyed,h.disciplined.advances⟩

theorem follows_markedResume (R : Registry) (id fingerprint : String) (now : Nat)
    (host : WriteOutcome) : Follows R (R.markedResume id fingerprint now host) := by
  unfold markedResume
  split
  · exact .refl R
  · split
    · exact follows_performed
        (RegistryCall.perform_performed (.persistObservationEvent id _ now) R host)
    · exact .refl R

def Raised (R R' : Registry) (id : String) : Prop :=
  ∃ w w', R.get id = some w ∧ R'.get id = some w' ∧ w.revision < w'.revision

omit [JsonText] in
theorem Raised.follows {R R' R'' : Registry} {id : String} (h : Raised R R' id)
    (h' : Follows R' R'') : Raised R R'' id := by
  obtain ⟨w,w',hw,hw',hlt⟩ := h
  obtain ⟨w'',hw'',hor⟩ := h'.advances id w' hw'
  refine ⟨w,w'',hw,hw'',?_⟩
  rcases hor with rfl | hlt'
  · exact hlt
  · exact Nat.lt_trans hlt hlt'

omit [JsonText] in
theorem raised_disciplined {c : RegistryCall} {R : Registry}
    {answer : Except RegistryError RegistryReply × Registry} {reply : RegistryReply}
    (h : RegistryCall.Disciplined c R answer) (hrest : c.mayRest = false)
    (hok : answer.1 = .ok reply) : Raised R answer.2 (c.named reply) := by
  rcases h.named _ hok with ⟨h,-⟩ | ⟨w,rfl,-⟩ | h
  · rw [h] at hrest
    cases hrest
  · cases hrest
  · exact h

theorem beginAction_spec (R : Registry) (id fingerprint : String) (clock : ClockSnapshot)
    (now later : Nat) (host host' : WriteOutcome) {answer : Option WatcherState}
    {R' : Registry}
    (h : R.beginAction id fingerprint clock now later host host' = (answer,R')) :
    Follows R R' ∧ ∀ snapshot, answer = some snapshot →
      R'.get id = some snapshot ∧ Raised R R' id := by
  have hperformed := RegistryCall.perform_performed
    (.applyRecoveryTransition id (.beginAction fingerprint clock) now) R host
  unfold beginAction at h
  generalize hcall : R.applyRecoveryTransition id (.beginAction fingerprint clock) now host =
    called at h
  rw [RegistryCall.perform,hcall] at hperformed
  have hfollows := follows_performed hperformed
  obtain ⟨error | state,R₁⟩ := called
  · cases h
    exact ⟨hfollows,fun _ hs => by cases hs⟩
  · have hraised := raised_disciplined hperformed.disciplined rfl rfl
    cases h
    have hmark := follows_markedResume R₁ id fingerprint later host'
    refine ⟨hfollows.trans hmark,fun snapshot hs => ⟨?_,hraised.follows hmark⟩⟩
    unfold dispatchSnapshot at hs
    split at hs
    · cases hs
    · next w hw =>
      cases hs
      exact hw

theorem scheduleWait_spec (R : Registry) (id : String) (untilMs now : Nat)
    (host host' : WriteOutcome) {answer : Except String Unit} {R' : Registry}
    (h : R.scheduleWait id untilMs now host host' = (answer,R')) :
    Follows R R' ∧ (answer = .ok () → Raised R R' id) := by
  unfold scheduleWait at h
  cases hw : R.get id with
  | none =>
    rw [hw] at h
    cases h
    exact ⟨.refl R,nofun⟩
  | some w =>
    simp only [hw] at h
    generalize hsch : { w.observationSchedule with
      nextDueWallMs := untilMs, eventWakePending := false } = schedule at h
    have hperformed := RegistryCall.perform_performed (.persistObservationSchedule id schedule now)
      R host
    generalize hcall : R.persistObservationSchedule id schedule now host = called at h
    rw [RegistryCall.perform,hcall] at hperformed
    have hfollows := follows_performed hperformed
    obtain ⟨error | u,R₁⟩ := called
    · cases h
      exact ⟨hfollows,nofun⟩
    · have hraised := raised_disciplined hperformed.disciplined rfl rfl
      have hwait := follows_performed (RegistryCall.perform_performed
        (.transition id (.waiting untilMs "recovery wait scheduled") now) R₁ host')
      cases h
      exact ⟨hfollows.trans hwait,fun _ => hraised.follows hwait⟩

end Registry

/-- The threads that use the registry: a recovery with the action it executes, and any
other user with its call. -/
inductive DaemonCall where
  | operate (call : RegistryCall)
  | recover (id fingerprint : String) (action : Action)

abbrev DaemonResult := Option (Except ExecutionError ExecutionOutput)

def DaemonCall.main [Chrono] [Digest] : DaemonCall → Program daemonSig (Empty ⊕ DaemonResult)
  | operate call => do
    let _ ← request (S := daemonSig) (.registry call)
    return .inr none
  | recover id fingerprint action => do
    match ← request (S := daemonSig) (.beginAction id fingerprint) with
    | none => return .inr none
    | some snapshot => return .inr (some (← (Executor.execute snapshot action).run))

def daemonMachine [Chrono] [Digest] : Machine daemonSig DaemonCall DaemonResult :=
  Program.machine nofun DaemonCall.main

def daemonWorld [Chrono] [JsonText] : World daemonSig Registry where
  Answers R e R' := match e with
    | ⟨.registry call,answer⟩ => ∃ host, call.perform R host = (answer,R')
    | ⟨.beginAction id fingerprint,answer⟩ => ∃ clock now later host host',
      R.beginAction id fingerprint clock now later host host' = (answer,R')
    | ⟨.scheduleWait id untilMs now,answer⟩ => ∃ host host',
      R.scheduleWait id untilMs now host host' = (answer,R')
    | ⟨.muxCommand snapshot _,answer⟩ | ⟨.capture snapshot _ _,answer⟩ =>
      R' = R ∧ answer.isSome = R.matchesDispatchSnapshot snapshot
    | ⟨.watcher id,answer⟩ => R' = R ∧ answer = R.get id
    | _ => R' = R
  Restarts R R' := Registry.Reloads R.disk R'

section World
variable [Chrono] [JsonText]

theorem follows_answers {R R' : Registry} {e : DaemonEvent} (h : daemonWorld.Answers R e R') :
    Registry.Follows R R' := by
  obtain ⟨op,answer⟩ := e
  cases op with
  | registry call =>
    obtain ⟨host,hcall⟩ := h
    have hperformed := call.perform_performed R host
    rw [hcall] at hperformed
    exact ⟨hperformed.keyed,hperformed.disciplined.advances⟩
  | beginAction id fingerprint =>
    obtain ⟨clock,now,later,host,host',hcall⟩ := h
    exact (Registry.beginAction_spec R id fingerprint clock now later host host' hcall).1
  | scheduleWait id untilMs now =>
    obtain ⟨host,host',hcall⟩ := h
    exact (Registry.scheduleWait_spec R id untilMs now host host' hcall).1
  | muxCommand | capture | watcher => exact h.1 ▸ .refl R
  | nowMs | cancellationRequested | processAlive | validateMux | composerSafe | notify =>
    cases h
    exact .refl R

def Registry.answer (R : Registry) (clock : ClockSnapshot) (now : Nat)
    (output : Except ExecutionError ExecutionOutput) : (op : DaemonOp) → op.Answer × Registry
  | .registry call => call.perform R .stored
  | .beginAction id fingerprint => R.beginAction id fingerprint clock now now .stored .stored
  | .scheduleWait id untilMs now => R.scheduleWait id untilMs now .stored .stored
  | .muxCommand snapshot _ | .capture snapshot _ _ =>
    (if R.matchesDispatchSnapshot snapshot then some output else none,R)
  | .watcher id => (R.get id,R)
  | .nowMs => (now,R)
  | .cancellationRequested => (false,R)
  | .processAlive _ | .validateMux _ _ | .composerSafe _ _ => (true,R)
  | .notify _ _ => (.ok (),R)

def daemonHost (clock : ClockSnapshot) (now : Nat)
    (output : Except ExecutionError ExecutionOutput) : Host daemonWorld where
  answer R := R.answer clock now output
  answers R op _ := by
    cases op with
    | registry => exact ⟨.stored,rfl⟩
    | beginAction => exact ⟨_,_,_,_,_,rfl⟩
    | scheduleWait => exact ⟨_,_,rfl⟩
    | muxCommand snapshot | capture snapshot =>
      refine ⟨rfl,?_⟩
      cases h : R.matchesDispatchSnapshot snapshot <;> simp [Registry.answer,h]
    | watcher => exact ⟨rfl,rfl⟩
    | _ => rfl

end World

deriving instance DecidableEq for RegistryCall, RegistryReply, PersistedRegistry, Registry,
  MuxIdentity, DaemonOp

/-- What an executor asks: no new snapshot, and no command but its own. -/
def Dispatches (snapshot : WatcherState) (action : Action) : DaemonOp → Prop
  | .muxCommand s a => s = snapshot ∧ a = action
  | .beginAction _ _ => False
  | _ => True

inductive ExecutorCall (id : String) : RegistryCall → Prop
  | escalate (now : Nat) :
      ExecutorCall id (.transition id (.humanRequired "recovery escalation requested") now)
  | stop (now : Nat) :
      ExecutorCall id (.transition id (.stopped "recovery action stopped watcher") now)

/-- The same with what it does to the registry: it writes to its own watcher only. -/
def Executes (snapshot : WatcherState) (action : Action) : DaemonOp → Prop
  | .registry call => ExecutorCall snapshot.watcherId call
  | .scheduleWait id _ _ => id = snapshot.watcherId
  | op => Dispatches snapshot action op

theorem Executes.dispatches {snapshot : WatcherState} {action : Action} (op : DaemonOp)
    (h : Executes snapshot action op) : Dispatches snapshot action op := by
  cases op <;> first | exact h | trivial

def Reads : DaemonOp → Prop
  | .watcher _ | .nowMs | .cancellationRequested | .processAlive _ | .validateMux _ _
  | .composerSafe _ _ => True
  | _ => False

/-- What the services of the runtime ask: they send no command and do not look at the pane. -/
def Serves (id : String) : DaemonOp → Prop
  | .registry call => ExecutorCall id call
  | .scheduleWait i _ _ => i = id
  | .watcher _ | .nowMs | .cancellationRequested | .processAlive _ | .notify _ _ => True
  | _ => False

theorem Reads.executes {snapshot : WatcherState} {action : Action} (op : DaemonOp)
    (h : Reads op) : Executes snapshot action op := by
  cases op <;> first | exact h | exact h.elim

theorem Serves.executes {snapshot : WatcherState} {action : Action} (op : DaemonOp)
    (h : Serves snapshot.watcherId op) : Executes snapshot action op := by
  cases op <;> first | exact h | exact h.elim

namespace Executor
variable {φ : DaemonOp → Prop} {id : String}

theorem asks_ask {op : DaemonOp} (h : φ op) : (ask op).run.Asks (S := daemonSig) φ :=
  Asks.run_lift ⟨h,fun _ => trivial⟩

theorem asks_askThen {β : Type} {op : DaemonOp} {f : op.Answer → Exec β} (h : φ op)
    (hf : ∀ r, (f r).run.Asks (S := daemonSig) φ) :
    (ask op >>= f).run.Asks (S := daemonSig) φ :=
  (asks_ask h).run_bind hf

theorem asks_settled {α : Type} (result : Except ExecutionError α) :
    (settled result).run.Asks (S := daemonSig) φ := by
  cases result <;> trivial

theorem asks_rejectIfCancelled (h : φ .cancellationRequested) :
    rejectIfCancelled.run.Asks (S := daemonSig) φ := by
  refine asks_askThen h fun cancelled => ?_
  split <;> trivial

theorem asks_probe (watcher : WatcherState) (alive : Bool) :
    (probe watcher alive).run.Asks (S := daemonSig) Reads := by
  unfold probe
  split
  · refine asks_askThen trivial fun validated => ?_
    split
    · exact asks_askThen trivial fun _ => trivial
    · trivial
  · trivial
  · trivial

theorem asks_confirmLiveEvidence [Digest] (watcher : WatcherState) :
    (confirmLiveEvidence watcher).run.Asks (S := daemonSig) Reads := by
  refine Asks.run_bind ?_ fun live => ?_
  · refine asks_askThen trivial fun found => ?_
    split
    · trivial
    · split
      · trivial
      · refine asks_askThen trivial fun alive => ?_
        exact (asks_probe _ alive).run_bind fun _ => trivial
  · split <;> trivial

theorem asks_schedule [Chrono] (deadline : String) :
    (schedule id deadline).run.Asks (S := daemonSig) (Serves id) := by
  refine asks_askThen trivial fun now => ?_
  refine (asks_settled _).run_bind fun untilMs => ?_
  exact asks_askThen rfl fun _ => asks_settled _

theorem asks_registryService {call : RegistryCall} (h : ExecutorCall id call) :
    (registryService call).run.Asks (S := daemonSig) (Serves id) :=
  asks_askThen h fun _ => asks_settled _

theorem asks_checkStatus (check : StatusCheck) :
    (checkStatus id check).run.Asks (S := daemonSig) (Serves id) := by
  unfold checkStatus
  split
  · trivial
  · refine asks_askThen trivial fun found => ?_
    split
    · trivial
    · exact asks_ask trivial

theorem asks_runtimeActuator [Chrono] (id : String) (action : Action) :
    (runtimeActuator id action).run.Asks (S := daemonSig) (Serves id) := by
  refine (asks_settled _).run_bind fun _ => ?_
  cases action.kind with
  | waitUntil | waitDuration => exact (asks_schedule _).run_bind fun _ => trivial
  | checkStatus check => exact (asks_checkStatus check).run_bind fun _ => trivial
  | notify =>
    refine asks_askThen trivial fun _ => ?_
    exact (asks_settled _).run_bind fun _ => trivial
  | escalate =>
    refine Asks.run_bind ?_ fun _ => trivial
    unfold escalate
    split
    · trivial
    · exact asks_askThen trivial fun now => asks_registryService (.escalate now)
  | stopWatching =>
    refine Asks.run_bind ?_ fun _ => trivial
    exact asks_askThen trivial fun now => asks_registryService (.stop now)
  | capture | noop | sendText | submitText | sendKeys => trivial

theorem asks_dispatched (answer : Option (Except ExecutionError ExecutionOutput)) :
    (dispatched answer).run.Asks (S := daemonSig) φ := by
  cases answer <;> trivial

theorem asks_execute [Chrono] [Digest] (snapshot : WatcherState) (action : Action) :
    (execute snapshot action).run.Asks (S := daemonSig) (Executes snapshot action) := by
  have hserves : ∀ {α : Type} {x : Exec α},
      x.run.Asks (S := daemonSig) (Serves snapshot.watcherId) →
        x.run.Asks (S := daemonSig) (Executes snapshot action) :=
    fun hx => hx.mono fun op h => h.executes
  have hreads : ∀ {α : Type} {x : Exec α}, x.run.Asks (S := daemonSig) Reads →
      x.run.Asks (S := daemonSig) (Executes snapshot action) :=
    fun hx => hx.mono fun op h => h.executes
  refine (asks_rejectIfCancelled trivial).run_bind fun _ => ?_
  cases action.kind with
  | sendText | submitText | sendKeys =>
    refine (hreads (asks_confirmLiveEvidence snapshot)).run_bind fun _ => ?_
    refine asks_askThen ⟨rfl,rfl⟩ fun answer => ?_
    refine (asks_dispatched answer).run_bind fun result => ?_
    refine asks_askThen trivial fun cancelled => ?_
    split
    · trivial
    · exact asks_settled _
  | capture =>
    refine (hreads (asks_confirmLiveEvidence snapshot)).run_bind fun _ => ?_
    refine asks_askThen trivial fun answer => ?_
    refine (asks_dispatched answer).run_bind fun result => ?_
    exact (asks_rejectIfCancelled trivial).run_bind fun _ => asks_settled _
  | notify => trivial
  | waitUntil | waitDuration | checkStatus | escalate | stopWatching | noop =>
    exact hserves (asks_runtimeActuator snapshot.watcherId action)

end Executor

namespace Sample

@[reducible] def digest : Digest :=
  ⟨fun _ => fingerprint,fun _ => [],fun _ => by decide⟩

@[reducible] def jsonText : JsonText := ⟨fun _ => 0⟩

def target : TargetIdentity :=
  .multiplexer "tmux" "/tmp/tmux" "%1" (.new 7 1) none
    (some (.tmux "/tmp/tmux" "server" "$1" "@1" "%1" "/dev/pts/1")) none false

def watcher (revision : Nat) (machine : RecoveryMachine) : WatcherState :=
  { WatcherState.new "watcher-1" target .observing revision 0 with
    recovery := some machine
    lastObservation := some (event fingerprint .pausedGoal) }

def confirmed : RecoveryMachine :=
  { RecoveryMachine.new ⟨3,0,0,0⟩ with state := .confirmed, current := some fingerprint }

def acting : RecoveryMachine :=
  { confirmed.moved .acting "validated transition" with attempts := 1, lastAttemptMono := some 5 }

def submit : Action := action (.submitText "continue") []

def registry : Registry := ⟨(∅ : StrMap WatcherState).insert "watcher-1" (watcher 1 confirmed),none⟩

def snapshot : WatcherState := watcher 2 acting

theorem registry_keyed : registry.Keyed := by
  intro id w hw
  rw [registry,StrMap.getElem?_insert] at hw
  split at hw
  · next heq =>
    cases hw
    exact heq
  · simp at hw

def paneHost :
    let _ := chrono
    let _ := jsonText
    Host daemonWorld :=
  let _ := chrono
  let _ := jsonText
  daemonHost ⟨5,5⟩ 0 (.ok .committed)

end Sample

section Linearization
variable [Chrono] [Digest]

def NoSnapshot : DaemonOp → Prop
  | .beginAction _ _ => False
  | _ => True

omit [Chrono] [Digest] in
theorem Dispatches.noSnapshot {snapshot : WatcherState} {action : Action} (op : DaemonOp)
    (h : Dispatches snapshot action op) : NoSnapshot op := by
  cases op <;> first | exact h | trivial

theorem runs_noSnapshot {call : DaemonCall} {h : List DaemonEvent} {s : daemonMachine.State}
    (hr : daemonMachine.Runs call h s) :
    s = daemonMachine.start call ∨ Asks (S := daemonSig) NoSnapshot s := by
  refine hr.invariant (.inl rfl) ?_
  rintro h s e s' (rfl | hasks) hs
  · right
    cases call with
    | operate =>
      cases hs with
      | answer => trivial
    | recover id fingerprint action =>
      cases hs with
      | answer op next r =>
        refine Asks.unroll ?_
        cases r with
        | none => trivial
        | some snapshot =>
          have hasks := (Executor.asks_execute snapshot action).mono Executes.dispatches
          exact (hasks.mono Dispatches.noSnapshot).bind fun _ => trivial
  · exact .inr (hasks.step hs).2

theorem begun_asks {call : DaemonCall} {h : List DaemonEvent} {s s' : daemonMachine.State}
    {id fingerprint : String} {snapshot : WatcherState} (hr : daemonMachine.Runs call h s)
    (hs : daemonMachine.Step s ⟨.beginAction id fingerprint,some snapshot⟩ s') :
    ∃ action, call = .recover id fingerprint action ∧
      Asks (S := daemonSig) (Dispatches snapshot action) s' := by
  rcases runs_noSnapshot hr with rfl | hasks
  · cases call with
    | operate => cases hs
    | recover id' fingerprint' action =>
      cases hs
      refine ⟨action,rfl,Asks.unroll ?_⟩
      exact ((Executor.asks_execute snapshot action).mono Executes.dispatches).bind
        fun _ => trivial
  · exact (hasks.step hs).1.elim

variable [JsonText] {init : Registry}

theorem reachable_keyed (hinit : init.Keyed) {P : Pool daemonMachine Registry}
    (hr : Pool.Reachable daemonMachine daemonWorld (fun _ _ => True) init P) :
    P.shared.Keyed := by
  refine hr.invariant hinit ?_
  rintro P l P' - hkeyed - hs
  cases hs with
  | spawn => exact hkeyed
  | act i t e s shared _ _ _ hw => exact (follows_answers hw).keyed hkeyed
  | crash shared hw => exact hw.keyed

def Changes (id : String) : DaemonEvent → Prop
  | ⟨.registry call,.ok reply⟩ => call.mayRest = false ∧ call.named reply = id
  | ⟨.scheduleWait id' _ _,.ok ()⟩ => id' = id
  | ⟨.beginAction id' _,some _⟩ => id' = id
  | _ => False

omit [Digest] in
theorem raised_changes {R R' : Registry} {e : DaemonEvent} {id : String}
    (h : daemonWorld.Answers R e R') (hc : Changes id e) : Registry.Raised R R' id := by
  obtain ⟨op,answer⟩ := e
  cases op with
  | registry call =>
    obtain ⟨host,hcall⟩ := h
    cases answer with
    | error => exact hc.elim
    | ok =>
      obtain ⟨hrest,rfl⟩ := hc
      have hperformed := call.perform_performed R host
      rw [hcall] at hperformed
      exact Registry.raised_disciplined hperformed.disciplined hrest rfl
  | scheduleWait id' untilMs now =>
    obtain ⟨host,host',hcall⟩ := h
    cases answer with
    | error => exact hc.elim
    | ok =>
      cases hc
      exact (Registry.scheduleWait_spec R _ untilMs now host host' hcall).2 rfl
  | beginAction id' fingerprint =>
    obtain ⟨clock,now,later,host,host',hcall⟩ := h
    cases answer with
    | none => exact hc.elim
    | some snapshot =>
      cases hc
      exact ((Registry.beginAction_spec R _ fingerprint clock now later host host' hcall).2
        snapshot rfl).2
  | muxCommand | capture | watcher | nowMs | cancellationRequested | processAlive
  | validateMux | composerSafe | notify => exact hc.elim

section Window
variable {id fingerprint : String} {snapshot s : WatcherState} {a : Action} {n : Nat}
  {result : Except ExecutionError ExecutionOutput} {ls ms : List (Label daemonSig DaemonCall)}
  {e : DaemonEvent}
  {P₀ P₁ P₂ P₃ : Pool daemonMachine Registry}

def ExecutesAt (P : Pool daemonMachine Registry) (n : Nat) (snapshot : WatcherState) : Prop :=
  ∃ action t, P.threads[n]? = some t ∧
    Asks (S := daemonSig) (Dispatches snapshot action) t.state

theorem taken_at (hinit : init.Keyed)
    (hr : Pool.Reachable daemonMachine daemonWorld (fun _ _ => True) init P₀)
    (htake : Pool.Step daemonWorld P₀
      (.act n ⟨.beginAction id fingerprint,some snapshot⟩) P₁) :
    P₁.shared.get id = some snapshot ∧ snapshot.watcherId = id ∧ ExecutesAt P₁ n snapshot := by
  have hkeyed := reachable_keyed hinit hr
  cases htake with
  | act _ t _ s₁ shared ht ha hs hw =>
    obtain ⟨action,-,hasks⟩ := begun_asks (hr.runs_at ht) hs
    obtain ⟨clock,now,later,host,host',hbegin⟩ := hw
    obtain ⟨hfollows,hspec⟩ :=
      Registry.beginAction_spec _ id fingerprint clock now later host host' hbegin
    obtain ⟨htaken,-⟩ := hspec snapshot rfl
    have hlt := (List.getElem?_eq_some_iff.1 ht).1
    exact ⟨htaken,hfollows.keyed hkeyed id snapshot htaken,action,_,
      List.getElem?_set_self hlt,hasks⟩

theorem issued_at (hexec : ExecutesAt P₁ n snapshot) (hpath : Pool.Path daemonWorld P₁ ls P₂)
    (hissue : Pool.Step daemonWorld P₂ (.act n ⟨.muxCommand s a,some result⟩) P₃) :
    s = snapshot ∧ P₂.shared.get snapshot.watcherId = some snapshot ∧ .crash ∉ ls := by
  obtain ⟨action,t,ht,hasks⟩ := hexec
  obtain ⟨u,hu,-,huasks,halive⟩ := hpath.thread
    (J := fun p => Asks (S := daemonSig) (Dispatches snapshot action) p)
    (fun _ _ _ h hstep => (h.step hstep).2) ht hasks
  cases hissue with
  | act _ u' _ s₂ shared hu' hua hs hw =>
    obtain rfl := Option.some.inj (hu.symm.trans hu')
    obtain ⟨rfl,-⟩ := (huasks.step hs).1
    exact ⟨rfl,beq_iff_eq.1 hw.2.symm,(halive hua).2⟩

theorem held_between (hpath : Pool.Path daemonWorld P₀ ls P₁)
    (hpath' : Pool.Path daemonWorld P₁ ms P₂) (hcrash : .crash ∉ ls) (hcrash' : .crash ∉ ms)
    (hw : P₀.shared.get id = some snapshot) (hw' : P₂.shared.get id = some snapshot) :
    P₁.shared.get id = some snapshot := by
  have hto := hpath.shared Registry.Follows.refl (fun _ _ _ => .trans)
    (fun _ _ _ => follows_answers) hcrash
  have hfrom := hpath'.shared Registry.Follows.refl (fun _ _ _ => .trans)
    (fun _ _ _ => follows_answers) hcrash'
  exact hto.advances.between hfrom.advances hw hw'

theorem not_changes (hstep : Pool.Step daemonWorld P₀ (.act n e) P₁)
    (hw : P₀.shared.get id = some snapshot) (hw' : P₁.shared.get id = some snapshot) :
    ¬ Changes id e := by
  intro hchanges
  cases hstep with
  | act _ t _ s shared _ _ _ hanswers =>
    obtain ⟨w,w',hwb,hwa,hlt⟩ := raised_changes hanswers hchanges
    obtain rfl := Option.some.inj (hw.symm.trans hwb)
    obtain rfl := Option.some.inj (hw'.symm.trans hwa)
    exact Nat.lt_irrefl _ hlt

/-- Every registry call keeps to the revision discipline, and a multiplexer command is run
only with the snapshot its recovery took, and only if at no time in between the registry
held another state of the watcher; so no pause, stop, retarget, observation or other
change of it came between the two. -/
theorem dispatch_linearized (hinit : init.Keyed)
    (hr : Pool.Reachable daemonMachine daemonWorld (fun _ _ => True) init P₀)
    (htake : Pool.Step daemonWorld P₀
      (.act n ⟨.beginAction id fingerprint,some snapshot⟩) P₁)
    (hpath : Pool.Path daemonWorld P₁ ls P₂)
    (hissue : Pool.Step daemonWorld P₂ (.act n ⟨.muxCommand s a,some result⟩) P₃) :
    (∀ c R host, RegistryCall.Disciplined c R (c.perform R host)) ∧
    s = snapshot ∧
    (∀ ls₁ ls₂ Q, ls = ls₁ ++ ls₂ → Pool.Path daemonWorld P₁ ls₁ Q →
      Pool.Path daemonWorld Q ls₂ P₂ → Q.shared.get id = some snapshot) ∧
    ∀ i e, .act i e ∈ ls → ¬ Changes id e := by
  obtain ⟨htaken,rfl,hexec⟩ := taken_at hinit hr htake
  obtain ⟨hs,hmatches,hnocrash⟩ := issued_at hexec hpath hissue
  have hbetween : ∀ ls₁ ls₂ Q, ls = ls₁ ++ ls₂ → Pool.Path daemonWorld P₁ ls₁ Q →
      Pool.Path daemonWorld Q ls₂ P₂ → Q.shared.get snapshot.watcherId = some snapshot := by
    rintro ls₁ ls₂ Q rfl h₁ h₂
    rw [List.mem_append,not_or] at hnocrash
    exact held_between h₁ h₂ hnocrash.1 hnocrash.2 htaken hmatches
  refine ⟨fun c R host => (c.perform_performed R host).disciplined,hs,hbetween,?_⟩
  intro i e he
  obtain ⟨ls₁,ls₂,Q,Q',rfl,h₁,hstep,h₂⟩ := hpath.of_mem he
  refine not_changes hstep (hbetween ls₁ _ Q rfl h₁ (.cons hstep h₂)) ?_
  exact hbetween (ls₁ ++ [.act i e]) ls₂ Q' (by simp) (h₁.append (.cons hstep (.nil _))) h₂

end Window

end Linearization

attribute [local instance] Sample.chrono Sample.digest Sample.jsonText

def Sample.submitting : Pool daemonMachine Registry :=
  (⟨registry,[]⟩ : Pool daemonMachine Registry).next (.spawn (.recover "watcher-1" fingerprint submit) :
    Move daemonWorld _)

def Sample.confirming (steps : Nat) : Pool daemonMachine Registry :=
  (submitting.next (.act 0 paneHost)).play (List.replicate steps (.act 0 paneHost))

theorem dispatch_linearized_submit :
    let _ := Sample.chrono
    let _ := Sample.digest
    let _ := Sample.jsonText
    ∃ (P₁ P₂ P₃ : Pool daemonMachine Registry) (ls : List (Label daemonSig DaemonCall)),
      Pool.Path daemonWorld P₁ ls P₂ ∧
      Pool.Step daemonWorld P₂
        (.act 0 ⟨.muxCommand Sample.snapshot Sample.submit,some (.ok .committed)⟩) P₃ ∧
      (∀ ls₁ ls₂ Q, ls = ls₁ ++ ls₂ → Pool.Path daemonWorld P₁ ls₁ Q →
        Pool.Path daemonWorld Q ls₂ P₂ → Q.shared.get "watcher-1" = some Sample.snapshot) ∧
      ∀ i e, .act i e ∈ ls → ¬ Changes "watcher-1" e := by
  have hinit : Pool.Reachable daemonMachine daemonWorld (fun _ _ => True) Sample.registry
    Sample.submitting := .step .init trivial (.spawn _ _)
  have htake : Pool.Step daemonWorld Sample.submitting (.act 0 ⟨.beginAction "watcher-1"
      Sample.fingerprint,some Sample.snapshot⟩) (Sample.confirming 0) :=
    Pool.step_next Sample.paneHost (by decide) (by decide)
  have hpath : Pool.Path daemonWorld (Sample.confirming 0) _ (Sample.confirming 5) :=
    Pool.path_play _ _
  have hissue : Pool.Step daemonWorld (Sample.confirming 5) (.act 0 ⟨.muxCommand Sample.snapshot
      Sample.submit,some (.ok .committed)⟩) _ :=
    Pool.step_next Sample.paneHost (by decide +kernel) (by decide +kernel)
  obtain ⟨-,-,hheld,hunchanged⟩ :=
    dispatch_linearized Sample.registry_keyed hinit htake hpath hissue
  exact ⟨_,_,_,_,hpath,hissue,hheld,hunchanged⟩

end WatchMe
