import WatchMe.Agents.Recipes
import WatchMe.Daemon.Authorization
import WatchMe.Daemon.Observer
import WatchMe.Daemon.Requests
import WatchMe.Effects.Interpret
import WatchMe.Recovery.System

/-! # The daemon and its tasks

The observation loop, the recovery jobs it starts, the requests of users, the lifecycle monitor and
the end of the daemon, each as a program over the registry and the action store. Everything that
happens under one lock is one request, and the transaction of a job runs inside the job. The
recipes, the owner of the transactions and what observers may report are parameters.
-/
namespace WatchMe
open Effects Program Transaction

inductive ServiceOp where
  | daemon (op : DaemonOp)
  | ledger (op : TxOp)
  | executed (action : Action) (result : Except ExecutionError ExecutionOutput)
  | wallNowMs
  | monoNowMs
  | sleepUntilMono (deadline : Nat)
  | list
  | observe (watcher : WatcherState)
  | commit (id : String) (schedule : ObservationSchedule) (event : Option Event)
  | handle (request : Request)
  | monitor
  | jobTimedOut (id : String)

/-- An observation is answered with its time. A commit is answered with the watcher as it was
committed, and the monitor with what it decided. -/
@[reducible] def ServiceOp.Answer : ServiceOp → Type
  | daemon op => op.Answer
  | ledger op => op.Answer
  | executed _ _ | sleepUntilMono _ => Unit
  | wallNowMs | monoNowMs => Nat
  | list => List WatcherState
  | observe _ => Int × Except String ObservationResult
  | commit _ _ _ => Option WatcherState
  | handle _ => Response
  | monitor => WatcherState → LifecycleDecision
  | jobTimedOut _ => Bool

abbrev serviceSig : Signature := ⟨ServiceOp,ServiceOp.Answer⟩
abbrev ServiceEvent := serviceSig.Event

namespace Service

def ask (op : ServiceOp) : Program serviceSig op.Answer := request (S := serviceSig) op

def askDaemon (op : DaemonOp) : Program serviceSig op.Answer := ask (.daemon op)

def recoveryObservationIntervalMs (watcher : WatcherState) : Nat :=
  if watcher.recovery.any (·.state == .acting) then 1000 else 60000

def observationJitterSeconds (watcherId : String) (intervalSequence : Nat) : Int :=
  let hash := (utf8Bytes watcherId).foldl
    (fun acc byte => (acc * 109 + byte.toNat) % 2 ^ 64) intervalSequence
  ((hash % 11 : Nat) : Int) - 5

def nextSequence (schedule : ObservationSchedule) : Nat :=
  saturatingAdd schedule.intervalSequence 1

def nextIntervalMs (watcher : WatcherState) : Nat :=
  let interval := recoveryObservationIntervalMs watcher
  if interval < 60000 then interval
  else (max (60000 + observationJitterSeconds watcher.watcherId
    (nextSequence watcher.observationSchedule) * 1000) 1).toNat

/-- The schedule that the loop will commit with the observation of a due watcher. -/
def nextSchedule (watcher : WatcherState) (now : Nat) : ObservationSchedule :=
  { watcher.observationSchedule with
    lastCheckWallMs := some now
    intervalSequence := nextSequence watcher.observationSchedule
    nextDueWallMs := saturatingAdd now (nextIntervalMs watcher) }

def isSkipped : WatcherLifecycle → Bool
  | .paused | .stopped _ | .targetTerminated => true
  | _ => false

abbrev RuntimeDue := StrMap Nat
abbrev Queue := List (WatcherState × ObservationSchedule)

def dueMono (due : RuntimeDue) (watcher : WatcherState) (now mono : Nat) : Nat :=
  min (due[watcher.watcherId]?.getD
      (saturatingAdd mono (min (watcher.observationSchedule.nextDueWallMs - now) 65000)))
    (saturatingAdd mono (recoveryObservationIntervalMs watcher))

def collectDue (now mono : Nat) (acc : RuntimeDue × Queue) (watcher : WatcherState) :
    RuntimeDue × Queue :=
  if isSkipped watcher.lifecycle then acc
  else
    let deadline := dueMono acc.1 watcher now mono
    if watcher.observationSchedule.eventWakePending ∨ deadline ≤ mono then
      (acc.1.insert watcher.watcherId (saturatingAdd mono (nextIntervalMs watcher)),
        acc.2 ++ [(watcher,nextSchedule watcher now)])
    else (acc.1.insert watcher.watcherId deadline,acc.2)

def dueWatchers (due : RuntimeDue) (now mono : Nat) (watchers : List WatcherState) :
    RuntimeDue × Queue :=
  watchers.foldl (collectDue now mono) (due,[])

/-- The count of equal screens is a `u8`. -/
def recordScreen (schedule : ObservationSchedule) (event : Event) : ObservationSchedule :=
  if event.source.kind ≠ .screenDetection then schedule
  else if event.category.isActionable then
    if schedule.screenFingerprint = some event.evidenceFingerprint then
      { schedule with screenStableCount := min (schedule.screenStableCount + 1) 255 }
    else
      { schedule with
        screenFingerprint := some event.evidenceFingerprint, screenStableCount := 1 }
  else { schedule with screenFingerprint := none, screenStableCount := 0 }

def recordResult (schedule : ObservationSchedule) (result : ObservationResult) :
    ObservationSchedule :=
  let schedule := { schedule with
    herdrAfterSequence := result.herdrAfterSequence.getD schedule.herdrAfterSequence }
  match result.event with
  | none => schedule
  | some event => recordScreen schedule event

/-- Every due watcher is observed, and what was observed is committed with its schedule. -/
def observeAll : Queue → Program serviceSig Unit
  | [] => done ()
  | (watcher,next) :: queue => do
    match (← ask (.observe watcher)).2 with
    | .error _ => observeAll queue
    | .ok result =>
      let _ ← ask (.commit watcher.watcherId (recordResult next result) result.event)
      observeAll queue

/-- A job whose action was begun, with the snapshot taken then. -/
structure Dispatched where
  current : WatcherState
  fingerprint : String

/-- Where the loops of the daemon go round: the observation loop with its own deadlines, the
verification loop of a job, and the monitor. -/
inductive Resumption where
  | round (due : RuntimeDue)
  | polling (d : Dispatched) (p : Poll)
  | monitoring

def runObservationRound (due : RuntimeDue) : Program serviceSig (Resumption ⊕ Unit) := do
  let now ← ask .wallNowMs
  let mono ← ask .monoNowMs
  let watchers ← ask .list
  let (due,queue) := dueWatchers due now mono watchers
  observeAll queue
  ask (.sleepUntilMono (saturatingAdd mono 1000))
  return .inl (.round due)

/-- A transaction reads evidence and the clock and writes the ledger; its executor is the
daemon's. -/
def handleTx [Chrono] [Digest] (snapshot : WatcherState) :
    (op : TxOp) → Program serviceSig op.Answer
  | .executeReturns action => do
    let result ← (Executor.execute snapshot action).run.interpret askDaemon
    ask (.executed action result)
    return result
  | op => ask (.ledger op)

def handOff (id reason : String) : Program serviceSig Unit := do
  let now ← askDaemon .nowMs
  let _ ← askDaemon (.registry (.transition id (.humanRequired reason) now))

def cancelledReason : String := "recovery cancellation followed a completed side effect"

def reviewReason (error : TransactionError) : String :=
  "recovery action requires review: " ++ error.text

/-- What a job does with the result of its transaction, `none` if there was none to run. -/
def conclude (d : Dispatched) : Except TransactionError (Option (Poll ⊕ ActionRecord)) →
    Program serviceSig (Resumption ⊕ Unit)
  | .ok none => return .inr ()
  | .ok (some (.inl p)) => return .inl (.polling d p)
  | .ok (some (.inr record)) => do
    if record.phase = .succeeded then
      if (← askDaemon .cancellationRequested) = true then
        handOff d.current.watcherId cancelledReason
      else
        let now ← askDaemon .nowMs
        let _ ← askDaemon (.registry (RecoveryCoordinator.actionSucceeded d.current.watcherId
          d.fingerprint now))
    return .inr ()
  | .error error => do
    handOff d.current.watcherId (reviewReason error)
    return .inr ()

section Jobs
variable [Chrono] [Render] [Digest] (recipes : WatcherState → Option Action)
  (owner : OwnerIdentity)

/-- `RecoveryEngine::execute`, up to the first round of the verification loop. -/
def engineExecute (current : WatcherState) :
    Program serviceSig (Except TransactionError (Option (Poll ⊕ ActionRecord))) :=
  match recipes current with
  | none => return .ok none
  | some action => do
    let mono ← ask (.ledger .monotonicMs)
    match RecoveryContext.fromWatcher current (mono / 1000) with
    | .error reason => return .error (.policy reason)
    | .ok context =>
      let result ← (Transaction.run ⟨current.watcherId,owner,action,context⟩).run.interpret
        (handleTx current)
      return result.map some

def executeRecoveryAction (watcher : WatcherState) : Program serviceSig (Resumption ⊕ Unit) := do
  if (← askDaemon .cancellationRequested) = true then return .inr ()
  else match recipes watcher with
    | none => return .inr ()
    | some action =>
      if actionFingerprint action = "" then return .inr ()
      else
        match ← askDaemon (.beginAction watcher.watcherId (actionFingerprint action)) with
        | none => return .inr ()
        | some current =>
          conclude ⟨current,actionFingerprint action⟩ (← engineExecute recipes owner current)

def pollRound (d : Dispatched) (p : Poll) : Program serviceSig (Resumption ⊕ Unit) := do
  let result ← (Transaction.poll p).run.interpret (handleTx d.current)
  conclude d (result.map some)

end Jobs

def graceReason : String := "recovery cancellation exceeded shutdown grace"

/-- A job that does not end in time is handed to a human while it is still running. -/
def waitForTerminalJobs : List String → Program serviceSig Unit
  | [] => done ()
  | id :: jobs => do
    if (← ask (.jobTimedOut id)) = true then handOff id graceReason
    waitForTerminalJobs jobs

end Service

open Service

/-- The tasks. A job comes with the watcher that was committed and, for the record, the time of
the observation. -/
inductive ServiceCall where
  | observationLoop
  | recover (watcher : WatcherState) (observedAt : Int)
  | serve (request : Request)
  | lifecycleMonitor
  | shutdown (jobs : List String)
  | recoverStale (target : String)
  | recoverAfterRestart (target : String)

section Machine
variable [Chrono] [Render] [Digest] (recipes : WatcherState → Option Action)
  (owner : OwnerIdentity)

def Service.body : Resumption → Program serviceSig (Resumption ⊕ Unit)
  | .round due => runObservationRound due
  | .polling d p => pollRound d p
  | .monitoring => do
    let _ ← ask .monitor
    return .inl .monitoring

def Service.main : ServiceCall → Program serviceSig (Resumption ⊕ Unit)
  | .observationLoop => runObservationRound ∅
  | .recover watcher _ => executeRecoveryAction recipes owner watcher
  | .serve request => do
    let _ ← ask (.handle request)
    return .inr ()
  | .lifecycleMonitor => return .inl .monitoring
  | .shutdown jobs => do
    waitForTerminalJobs jobs
    return .inr ()
  | .recoverStale target => do
    let _ ← (Transaction.recoverStale target).run.interpret fun op => ask (.ledger op)
    return .inr ()
  | .recoverAfterRestart target => do
    let _ ← (Transaction.recoverAfterRestart target).run.interpret fun op => ask (.ledger op)
    return .inr ()

def serviceMachine : Machine serviceSig ServiceCall Unit :=
  Program.machine body (main recipes owner)

end Machine

structure ServiceState where
  registry : Registry
  store : JsonActionStore

abbrev Observes := WatcherState → Int → Except String ObservationResult → Prop

/-- The observer of the daemon, with the timeout of the loop. -/
def genericObserves [Texts] [Digest] [SnapshotBytes] : Observes := fun watcher now answer =>
  answer = .error "observation timed out" ∨
    ∃ host, answer = GenericObserver.observe host watcher now

/-- What the critical section of a commit returns to the loop. -/
def committedWatcher (result : Except RegistryError Unit) (R : Registry) (id : String) :
    Option WatcherState :=
  match result with
  | .ok () => R.get id
  | .error _ => none

def serviceWorld [Chrono] [JsonText] (observes : Observes) : World serviceSig ServiceState where
  Answers s e s' := match e with
    | ⟨.daemon op,answer⟩ =>
      daemonWorld.Answers s.registry ⟨op,answer⟩ s'.registry ∧ s'.store = s.store
    | ⟨.ledger op,answer⟩ =>
      recoveryWorld.Answers s.store ⟨op,answer⟩ s'.store ∧ s'.registry = s.registry
    | ⟨.list,answer⟩ => s' = s ∧ answer = s.registry.list
    | ⟨.observe watcher,answer⟩ => s' = s ∧ observes watcher answer.1 answer.2
    | ⟨.commit id schedule event,answer⟩ => s'.store = s.store ∧ ∃ now host result,
      s.registry.commitObservation id schedule event now host = (result,s'.registry) ∧
        answer = committedWatcher result s'.registry id
    | ⟨.handle request,answer⟩ => s'.store = s.store ∧ ∃ writes,
      s.registry.serve writes request = (answer,s'.registry)
    | ⟨.monitor,answer⟩ => s'.store = s.store ∧ ∃ writes now,
      s'.registry = s.registry.monitorProcessLifecycles writes now answer
    | _ => s' = s
  Restarts s s' := Registry.Reloads s.registry.disk s'.registry ∧
    JsonActionStore.load s.store.disk = .ok s'.store

end WatchMe
