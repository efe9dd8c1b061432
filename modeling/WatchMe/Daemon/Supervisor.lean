import WatchMe.Effects.Interference

/-! # The owner of the recovery jobs

`RecoverySupervisor` has a flag, a list of jobs under a mutex, and the jobs themselves, which run on
threads of their own. Tasks schedule jobs, a shutdown lowers the flag, and `wait_for_terminal_jobs`
takes the list and waits for every job in it. Each access to the flag, to the mutex and to a job is
a request of its own, between which all others act.
-/
namespace WatchMe
open Effects

/-- What a job does next. It may look at the cancellation, or send input to a multiplexer. -/
inductive JobStep where
  | inspect
  | input
  | finished
  deriving DecidableEq

/-- What the `select!` of the daemon returns. -/
inductive SelectEvent where
  | schedulerEnded (joined : Bool)
  | shutdownRequested
  | accepted
  | acceptFailed
  deriving DecidableEq

abbrev JobEntry := String × Nat

inductive SupervisorOp where
  /-- The mutex of the list; `stored` is whether the caller has lowered the flag before. -/
  | lock (stored : Bool)
  | unlock
  | loadAccepting
  | storeAccepting (value : Bool)
  | storeCancellation (value : Bool)
  | jobs
  | setJobs (jobs : List JobEntry)
  | isFinished (handle : Nat)
  | spawnBlocking (watcherId : String)
  | timeout (handle : Nat)
  | transition (watcherId reason : String)
  | join (handle : Nat)
  | proceed (handle : Nat)
  | select
  | tryRecv
  | idle
  | schedulerFromRegistry
  | sendShutdown
  | abortObservation
  | joinObservation
  | acknowledge
  | stopTasks
  | releaseLock
  deriving DecidableEq

@[reducible] def SupervisorOp.Answer : SupervisorOp → Type
  | loadAccepting | isFinished _ | timeout _ | tryRecv | idle => Bool
  | jobs => List JobEntry
  | spawnBlocking _ => Nat
  | proceed _ => JobStep
  | select => SelectEvent
  | schedulerFromRegistry => Except String Unit
  | _ => Unit

abbrev supervisorSig : Signature := ⟨SupervisorOp,SupervisorOp.Answer⟩

abbrev SupervisorM := Program supervisorSig

namespace RecoverySupervisor

def call (op : SupervisorOp) : SupervisorM op.Answer := Program.request (S := supervisorSig) op

/-- `Vec::retain`, with the jobs that are not finished. -/
def retain : List JobEntry → SupervisorM (List JobEntry)
  | [] => pure []
  | entry :: rest => call (.isFinished entry.2) >>= fun finished =>
    retain rest >>= fun kept => pure (if finished then kept else entry :: kept)

def schedule (watcherId : String) : SupervisorM Unit := do
  call (.lock false)
  let accepting ← call .loadAccepting
  if accepting then
    let jobs ← call .jobs
    let kept ← retain jobs
    call (.setJobs kept)
    let handle ← call (.spawnBlocking watcherId)
    call (.setJobs (kept ++ [(watcherId,handle)]))
    call .unlock
  else
    call .unlock

def beginShutdown : SupervisorM Unit := do
  call (.storeAccepting false)
  call (.storeCancellation true)

def graceReason : String := "recovery cancellation exceeded shutdown grace"

def awaitJobs : List JobEntry → SupervisorM Unit
  | [] => pure ()
  | entry :: rest => call (.timeout entry.2) >>= fun joined =>
    if joined then awaitJobs rest
    else call (.transition entry.1 graceReason) >>= fun _ =>
      call (.join entry.2) >>= fun _ => awaitJobs rest

def waitForTerminalJobs : SupervisorM Unit := do
  beginShutdown
  call (.lock true)
  let jobs ← call .jobs
  call (.setJobs [])
  call .unlock
  awaitJobs jobs

end RecoverySupervisor

open RecoverySupervisor

inductive SupervisorCall where
  | schedule (watcherId : String)
  | beginShutdown
  | waitForTerminalJobs
  | job (handle : Nat)
  | daemon
  deriving DecidableEq

/-- The loops: a job, and the `select!` of the daemon. -/
inductive SupervisorLoop where
  | job (handle : Nat)
  | daemon

abbrev SupervisorRound := SupervisorM (SupervisorLoop ⊕ Unit)

namespace Daemon

def shutdown : SupervisorRound := do
  beginShutdown
  call .abortObservation
  call .joinObservation
  waitForTerminalJobs
  call .acknowledge
  call .stopTasks
  call .releaseLock
  return .inr ()

def leave : SupervisorRound := do
  call .stopTasks
  call .abortObservation
  call .joinObservation
  call .releaseLock
  return .inr ()

/-- An error is returned with `?`: the tasks are dropped, which does not stop the observation. -/
def propagate : SupervisorRound := do
  call .releaseLock
  return .inr ()

def afterScheduler : SupervisorRound := do
  let requested ← call .tryRecv
  if requested then
    shutdown
  else
    let idle ← call .idle
    if idle then
      leave
    else
      match ← call .schedulerFromRegistry with
      | .ok _ => return .inl .daemon
      | .error _ => propagate

def round : SupervisorRound := do
  match ← call .select with
  | .schedulerEnded true => afterScheduler
  | .schedulerEnded false => propagate
  | .shutdownRequested => do
    call .sendShutdown
    shutdown
  | .acceptFailed => leave
  | .accepted => return .inl .daemon

end Daemon

def SupervisorLoop.body : SupervisorLoop → SupervisorRound
  | job handle => do
    match ← call (.proceed handle) with
    | .finished => return .inr ()
    | _ => return .inl (.job handle)
  | daemon => Daemon.round

def SupervisorCall.main : SupervisorCall → SupervisorRound
  | schedule watcherId => RecoverySupervisor.schedule watcherId >>= fun _ => pure (.inr ())
  | beginShutdown => RecoverySupervisor.beginShutdown >>= fun _ => pure (.inr ())
  | waitForTerminalJobs => RecoverySupervisor.waitForTerminalJobs >>= fun _ => pure (.inr ())
  | job handle => pure (.inl (.job handle))
  | daemon => pure (.inl .daemon)

abbrev supervisorMachine : Machine supervisorSig SupervisorCall Unit :=
  Program.machine SupervisorLoop.body SupervisorCall.main

/-- The supervisor, its jobs, and whether the daemon has dropped its lock. `published` is set once a
caller that had lowered the flag was in the critical section: whoever comes after it sees the flag. -/
structure SupervisorState where
  accepting : Bool
  cancellation : Bool
  published : Bool
  locked : Bool
  jobs : List JobEntry
  started : Nat
  finished : List Nat
  released : Bool

namespace SupervisorState

def new : SupervisorState := ⟨true,false,false,false,[],0,[],false⟩

def Finished (s : SupervisorState) : Prop := ∀ handle, handle < s.started → handle ∈ s.finished

end SupervisorState

/-- A flag that was not published may still be read as raised. A job that was started goes on until
it has finished, and only then is it joined. -/
def supervisorWorld : World supervisorSig SupervisorState where
  Answers s e s' := match e with
    | ⟨.lock stored,_⟩ => s.locked = false ∧
        s' = { s with locked := true, published := s.published || stored }
    | ⟨.unlock,_⟩ => s' = { s with locked := false }
    | ⟨.loadAccepting,value⟩ => s' = s ∧
        (value = s.accepting ∨ (value = true ∧ s.published = false))
    | ⟨.storeAccepting value,_⟩ => s' = { s with accepting := value }
    | ⟨.storeCancellation value,_⟩ => s' = { s with cancellation := value }
    | ⟨.jobs,jobs⟩ => s' = s ∧ jobs = s.jobs
    | ⟨.setJobs jobs,_⟩ => s' = { s with jobs := jobs }
    | ⟨.isFinished handle,finished⟩ => s' = s ∧ (finished = true → handle ∈ s.finished)
    | ⟨.spawnBlocking _,handle⟩ => handle = s.started ∧ s' = { s with started := s.started + 1 }
    | ⟨.timeout handle,joined⟩ => s' = s ∧ (joined = true → handle ∈ s.finished)
    | ⟨.join handle,_⟩ => s' = s ∧ handle ∈ s.finished
    | ⟨.proceed handle,.finished⟩ => (handle < s.started ∧ handle ∉ s.finished) ∧
        s' = { s with finished := handle :: s.finished }
    | ⟨.proceed handle,_⟩ => (handle < s.started ∧ handle ∉ s.finished) ∧ s' = s
    | ⟨.releaseLock,_⟩ => s' = { s with released := true }
    | _ => s' = s
  Restarts _ _ := False

/-- Where `begin_shutdown` returns to. -/
inductive AfterStore where
  | gone
  | serving
  | closing (daemon : Bool)
  deriving DecidableEq

inductive SupervisorStage where
  | outside (watcherId : String)
  | inside (watcherId : String)
  | refused
  | reading (watcherId : String)
  | pruning (watcherId : String) (rest kept : List JobEntry)
  | starting (watcherId : String) (kept : List JobEntry)
  | pushing (watcherId : String) (kept : List JobEntry) (handle : Nat)
  | leaving
  | storing (next : AfterStore)
  | cancelling (next : AfterStore)
  | closing (daemon : Bool)
  | closed (daemon : Bool)
  | taken (daemon : Bool) (jobs : List JobEntry)
  | emptied (daemon : Bool) (jobs : List JobEntry)
  | awaiting (daemon : Bool) (jobs : List JobEntry)
  | late (daemon : Bool) (entry : JobEntry) (rest : List JobEntry)
  | joining (daemon : Bool) (entry : JobEntry) (rest : List JobEntry)
  | serving
  | acknowledged
  | released (acknowledged : Bool)
  | running (handle : Nat)
  | gone
  deriving DecidableEq

def AfterStore.stage : AfterStore → SupervisorStage
  | gone => .gone
  | serving => .serving
  | closing daemon => .closing daemon

/-- The requests of the daemon that do not concern the supervisor. -/
def Unrelated : SupervisorOp → Prop
  | .select | .tryRecv | .idle | .schedulerFromRegistry | .sendShutdown | .abortObservation
  | .joinObservation | .stopTasks => True
  | _ => False

inductive SupervisorStep : SupervisorStage → supervisorSig.Event → SupervisorStage → Prop
  | entered (id : String) (u : Unit) : SupervisorStep (.outside id) ⟨.lock false,u⟩ (.inside id)
  | admitted (id : String) : SupervisorStep (.inside id) ⟨.loadAccepting,true⟩ (.reading id)
  | refused (id : String) : SupervisorStep (.inside id) ⟨.loadAccepting,false⟩ .refused
  | left (u : Unit) : SupervisorStep .refused ⟨.unlock,u⟩ .gone
  | read (id : String) (jobs : List JobEntry) :
      SupervisorStep (.reading id) ⟨.jobs,jobs⟩ (.pruning id jobs [])
  | pruned (id : String) (entry : JobEntry) (rest kept : List JobEntry) :
      SupervisorStep (.pruning id (entry :: rest) kept) ⟨.isFinished entry.2,true⟩
        (.pruning id rest kept)
  | kept (id : String) (entry : JobEntry) (rest kept : List JobEntry) :
      SupervisorStep (.pruning id (entry :: rest) kept) ⟨.isFinished entry.2,false⟩
        (.pruning id rest (kept ++ [entry]))
  | stored (id : String) (kept : List JobEntry) (u : Unit) :
      SupervisorStep (.pruning id [] kept) ⟨.setJobs kept,u⟩ (.starting id kept)
  | started (id : String) (kept : List JobEntry) (handle : Nat) :
      SupervisorStep (.starting id kept) ⟨.spawnBlocking id,handle⟩ (.pushing id kept handle)
  | pushed (id : String) (kept : List JobEntry) (handle : Nat) (u : Unit) :
      SupervisorStep (.pushing id kept handle) ⟨.setJobs (kept ++ [(id,handle)]),u⟩ .leaving
  | leaves (u : Unit) : SupervisorStep .leaving ⟨.unlock,u⟩ .gone
  | lowered (next : AfterStore) (u : Unit) :
      SupervisorStep (.storing next) ⟨.storeAccepting false,u⟩ (.cancelling next)
  | loweredFirst (u : Unit) :
      SupervisorStep .serving ⟨.storeAccepting false,u⟩ (.cancelling .serving)
  | loweredAgain (u : Unit) :
      SupervisorStep .serving ⟨.storeAccepting false,u⟩ (.cancelling (.closing true))
  | cancelled (next : AfterStore) (u : Unit) :
      SupervisorStep (.cancelling next) ⟨.storeCancellation true,u⟩ next.stage
  | closes (daemon : Bool) (u : Unit) :
      SupervisorStep (.closing daemon) ⟨.lock true,u⟩ (.closed daemon)
  | takes (daemon : Bool) (jobs : List JobEntry) :
      SupervisorStep (.closed daemon) ⟨.jobs,jobs⟩ (.taken daemon jobs)
  | empties (daemon : Bool) (jobs : List JobEntry) (u : Unit) :
      SupervisorStep (.taken daemon jobs) ⟨.setJobs [],u⟩ (.emptied daemon jobs)
  | opens (daemon : Bool) (jobs : List JobEntry) (u : Unit) :
      SupervisorStep (.emptied daemon jobs) ⟨.unlock,u⟩ (.awaiting daemon jobs)
  | joined (daemon : Bool) (entry : JobEntry) (rest : List JobEntry) :
      SupervisorStep (.awaiting daemon (entry :: rest)) ⟨.timeout entry.2,true⟩
        (.awaiting daemon rest)
  | expired (daemon : Bool) (entry : JobEntry) (rest : List JobEntry) :
      SupervisorStep (.awaiting daemon (entry :: rest)) ⟨.timeout entry.2,false⟩
        (.late daemon entry rest)
  | handedOff (daemon : Bool) (entry : JobEntry) (rest : List JobEntry) (u : Unit) :
      SupervisorStep (.late daemon entry rest) ⟨.transition entry.1 graceReason,u⟩
        (.joining daemon entry rest)
  | joins (daemon : Bool) (entry : JobEntry) (rest : List JobEntry) (u : Unit) :
      SupervisorStep (.joining daemon entry rest) ⟨.join entry.2,u⟩ (.awaiting daemon rest)
  | serves (op : SupervisorOp) (r : op.Answer) (h : Unrelated op) :
      SupervisorStep .serving ⟨op,r⟩ .serving
  | acknowledges (u : Unit) : SupervisorStep (.awaiting true []) ⟨.acknowledge,u⟩ .acknowledged
  | stops (u : Unit) : SupervisorStep .acknowledged ⟨.stopTasks,u⟩ .acknowledged
  | releases (u : Unit) : SupervisorStep .acknowledged ⟨.releaseLock,u⟩ (.released true)
  | abandons (u : Unit) : SupervisorStep .serving ⟨.releaseLock,u⟩ (.released false)
  | proceeds (handle : Nat) (step : JobStep) :
      SupervisorStep (.running handle) ⟨.proceed handle,step⟩ (.running handle)
  | finishes (handle : Nat) :
      SupervisorStep (.running handle) ⟨.proceed handle,.finished⟩ .gone

def SupervisorCall.stage : SupervisorCall → SupervisorStage
  | schedule watcherId => .outside watcherId
  | beginShutdown => .storing .gone
  | waitForTerminalJobs => .storing (.closing false)
  | job handle => .running handle
  | daemon => .serving

def SupervisorStage.result : SupervisorStage → Option Unit
  | gone | awaiting false [] | released _ => some ()
  | _ => none

def supervisorStages : Machine supervisorSig SupervisorCall Unit where
  State := SupervisorStage
  start := SupervisorCall.stage
  Step := SupervisorStep
  result := SupervisorStage.result

namespace RecoverySupervisor

theorem conforms_op {op : SupervisorOp} {stage : SupervisorStage}
    {Q : SupervisorStage → op.Answer → Prop} (hresult : stage.result = none)
    (h : ∀ r, ∃ stage', SupervisorStep stage ⟨op,r⟩ stage' ∧ Q stage' r) :
    Conforms supervisorStages Q (call op) stage :=
  ⟨hresult,h⟩

theorem retain_conforms (id : String) (rest kept : List JobEntry) :
    Conforms supervisorStages (fun t r => t = SupervisorStage.pruning id [] (kept ++ r))
      (retain rest) (SupervisorStage.pruning id rest kept) := by
  induction rest generalizing kept with
  | nil =>
    change SupervisorStage.pruning id [] kept = .pruning id [] (kept ++ [])
    rw [List.append_nil]
  | cons entry rest ih =>
    refine conforms_bind.2 (conforms_op rfl fun finished => ?_)
    cases finished with
    | true =>
      refine ⟨_,.pruned id entry rest kept,conforms_bind.2 ((ih kept).mono ?_)⟩
      rintro t r rfl
      rfl
    | false =>
      refine ⟨_,.kept id entry rest kept,conforms_bind.2 ((ih (kept ++ [entry])).mono ?_)⟩
      rintro t r rfl
      change SupervisorStage.pruning id [] (kept ++ [entry] ++ r) = _
      rw [List.append_assoc]
      rfl

theorem schedule_conforms (id : String) :
    Conforms supervisorStages (fun t _ => t = SupervisorStage.gone) (schedule id)
      (SupervisorStage.outside id) := by
  refine conforms_bind.2 (conforms_op rfl fun u => ⟨_,.entered id u,?_⟩)
  refine conforms_bind.2 (conforms_op rfl fun accepting => ?_)
  cases accepting with
  | false => exact ⟨_,.refused id,conforms_op rfl fun u => ⟨_,.left u,rfl⟩⟩
  | true =>
    refine ⟨_,.admitted id,conforms_bind.2 (conforms_op rfl fun jobs => ⟨_,.read id jobs,?_⟩)⟩
    refine conforms_bind.2 ((retain_conforms id jobs []).mono ?_)
    rintro t kept rfl
    refine conforms_bind.2 (conforms_op rfl fun u => ⟨_,.stored id kept u,?_⟩)
    refine conforms_bind.2 (conforms_op rfl fun handle => ⟨_,.started id kept handle,?_⟩)
    refine conforms_bind.2 (conforms_op rfl fun u => ⟨_,.pushed id kept handle u,?_⟩)
    exact conforms_op rfl fun u => ⟨_,.leaves u,rfl⟩

theorem beginShutdown_conforms {stage : SupervisorStage} {next : AfterStore}
    (hresult : stage.result = none)
    (h : ∀ u, SupervisorStep stage ⟨.storeAccepting false,u⟩ (.cancelling next)) :
    Conforms supervisorStages (fun t _ => t = next.stage) beginShutdown stage :=
  conforms_bind.2 (conforms_op hresult fun u => ⟨_,h u,conforms_op rfl fun u =>
    ⟨_,.cancelled next u,rfl⟩⟩)

theorem awaitJobs_conforms (daemon : Bool) (jobs : List JobEntry) :
    Conforms supervisorStages (fun t _ => t = SupervisorStage.awaiting daemon [])
      (awaitJobs jobs) (SupervisorStage.awaiting daemon jobs) := by
  induction jobs with
  | nil => rfl
  | cons entry rest ih =>
    have hresult : (SupervisorStage.awaiting daemon (entry :: rest)).result = none := by
      cases daemon <;> rfl
    refine conforms_bind.2 (conforms_op hresult fun joined => ?_)
    cases joined with
    | true => exact ⟨_,.joined daemon entry rest,ih⟩
    | false =>
      refine ⟨_,.expired daemon entry rest,conforms_bind.2 (conforms_op rfl fun u => ?_)⟩
      refine ⟨_,.handedOff daemon entry rest u,conforms_bind.2 (conforms_op rfl fun u => ?_)⟩
      exact ⟨_,.joins daemon entry rest u,ih⟩

theorem waitForTerminalJobs_conforms {stage : SupervisorStage} {daemon : Bool}
    (hresult : stage.result = none)
    (h : ∀ u, SupervisorStep stage ⟨.storeAccepting false,u⟩ (.cancelling (.closing daemon))) :
    Conforms supervisorStages (fun t _ => t = SupervisorStage.awaiting daemon [])
      waitForTerminalJobs stage := by
  refine conforms_bind.2 ((beginShutdown_conforms hresult h).mono ?_)
  rintro t - rfl
  refine conforms_bind.2 (conforms_op rfl fun u => ⟨_,.closes daemon u,?_⟩)
  refine conforms_bind.2 (conforms_op rfl fun jobs => ⟨_,.takes daemon jobs,?_⟩)
  refine conforms_bind.2 (conforms_op rfl fun u => ⟨_,.empties daemon jobs u,?_⟩)
  exact conforms_bind.2 (conforms_op rfl fun u => ⟨_,.opens daemon jobs u,
    awaitJobs_conforms daemon jobs⟩)

def AtLoop (t : supervisorStages.State) : SupervisorLoop → Prop
  | .job handle => t = SupervisorStage.running handle
  | .daemon => t = SupervisorStage.serving

theorem conforms_serves (op : SupervisorOp) (h : Unrelated op)
    {f : op.Answer → SupervisorRound}
    (hf : ∀ r, Conforms supervisorStages (LoopPost AtLoop) (f r) SupervisorStage.serving) :
    Conforms supervisorStages (LoopPost AtLoop) (call op >>= f) SupervisorStage.serving :=
  conforms_bind.2 (conforms_op rfl fun r => ⟨_,.serves op r h,hf r⟩)

theorem propagate_conforms : Conforms supervisorStages (LoopPost AtLoop) Daemon.propagate
    SupervisorStage.serving :=
  conforms_bind.2 (conforms_op rfl fun u => ⟨_,.abandons u,rfl⟩)

theorem leave_conforms : Conforms supervisorStages (LoopPost AtLoop) Daemon.leave
    SupervisorStage.serving := by
  refine conforms_serves .stopTasks trivial fun _ => ?_
  refine conforms_serves .abortObservation trivial fun _ => ?_
  exact conforms_serves .joinObservation trivial fun _ => propagate_conforms

theorem shutdown_conforms : Conforms supervisorStages (LoopPost AtLoop) Daemon.shutdown
    SupervisorStage.serving := by
  refine conforms_bind.2 ((beginShutdown_conforms rfl .loweredFirst).mono ?_)
  rintro t - rfl
  refine conforms_serves .abortObservation trivial fun _ => ?_
  refine conforms_serves .joinObservation trivial fun _ => ?_
  refine conforms_bind.2 ((waitForTerminalJobs_conforms rfl .loweredAgain).mono ?_)
  rintro t - rfl
  refine conforms_bind.2 (conforms_op rfl fun u => ⟨_,.acknowledges u,?_⟩)
  refine conforms_bind.2 (conforms_op rfl fun u => ⟨_,.stops u,?_⟩)
  exact conforms_bind.2 (conforms_op rfl fun u => ⟨_,.releases u,rfl⟩)

theorem afterScheduler_conforms : Conforms supervisorStages (LoopPost AtLoop)
    Daemon.afterScheduler SupervisorStage.serving := by
  refine conforms_serves .tryRecv trivial fun requested => ?_
  cases requested with
  | true => exact shutdown_conforms
  | false =>
    refine conforms_serves .idle trivial fun idle => ?_
    cases idle with
    | true => exact leave_conforms
    | false =>
      refine conforms_serves .schedulerFromRegistry trivial fun rebuilt => ?_
      cases rebuilt with
      | ok => rfl
      | error => exact propagate_conforms

theorem round_conforms : Conforms supervisorStages (LoopPost AtLoop) Daemon.round
    SupervisorStage.serving := by
  refine conforms_serves .select trivial fun event => ?_
  match event with
  | .schedulerEnded true => exact afterScheduler_conforms
  | .schedulerEnded false => exact propagate_conforms
  | .shutdownRequested => exact conforms_serves .sendShutdown trivial fun _ => shutdown_conforms
  | .acceptFailed => exact leave_conforms
  | .accepted => rfl

theorem job_conforms (handle : Nat) : Conforms supervisorStages (LoopPost AtLoop)
    (SupervisorLoop.body (.job handle)) (SupervisorStage.running handle) := by
  refine conforms_bind.2 (conforms_op rfl fun step => ?_)
  cases step with
  | finished => exact ⟨_,.finishes handle,rfl⟩
  | inspect => exact ⟨_,.proceeds handle .inspect,rfl⟩
  | input => exact ⟨_,.proceeds handle .input,rfl⟩

theorem simulates : Machine.Simulates supervisorMachine supervisorStages
    fun p s => Conforms supervisorStages (LoopPost AtLoop) p s ∧
      Program.result p = supervisorStages.result s := by
  refine Conforms.simulates (fun t loop ht => ?_) fun k => ?_
  · cases loop with
    | job handle =>
      obtain rfl : t = SupervisorStage.running handle := ht
      exact ⟨_,_,rfl,job_conforms handle⟩
    | daemon =>
      obtain rfl : t = SupervisorStage.serving := ht
      exact ⟨_,_,rfl,round_conforms⟩
  · cases k with
    | schedule id =>
      refine conforms_bind.2 ((schedule_conforms id).mono ?_)
      rintro t - rfl
      rfl
    | beginShutdown =>
      refine conforms_bind.2 ((beginShutdown_conforms rfl (.lowered .gone)).mono ?_)
      rintro t - rfl
      rfl
    | waitForTerminalJobs =>
      refine conforms_bind.2 ((waitForTerminalJobs_conforms rfl (.lowered (.closing false))).mono ?_)
      rintro t - rfl
      rfl
    | job => rfl
    | daemon => rfl

end RecoverySupervisor

end WatchMe
