import WatchMe.Daemon.ServiceTraces

/-! # Jobs that come to their end

A job that brings the wait it proposes to success: the answers, in the order in which they are
asked for, and the watcher they leave.
-/
namespace WatchMe
open Effects Program Transaction Service

def Registry.waitingUntil (w : WatcherState) (untilMs now : Nat) : WatcherState :=
  { w with
    lifecycle := .waiting untilMs "recovery wait scheduled"
    observationSchedule := { w.observationSchedule with
      nextDueWallMs := untilMs, eventWakePending := false }
    revision := w.revision + 2
    updatedAtUnixMs := now }

/-- The records by which a transaction is closed whose action needs no verification. -/
def Prelude.closing [Render] (d : Prelude) (job : Job) (output : ExecutionOutput) : List TxEvent :=
  [⟨.append job.target (d.sent job output).record,.ok ()⟩,
    ⟨.append job.target ((d.sent job output).record.next .succeeded
      "non-input action completed durably"),.ok ()⟩]

namespace Service
variable [Chrono] [Render] [Digest] {now : Nat}

/-- The answers by which a transaction advances inside a job, when its executor got the given
ones. -/
def inJob (during : List DaemonEvent) : TxEvent → List ServiceEvent
  | ⟨.executeReturns action,result⟩ =>
    during.map (fun e => ⟨.daemon e.op,e.answer⟩) ++ [⟨.executed action result,()⟩]
  | ⟨op,answer⟩ => [⟨.ledger op,answer⟩]

def beginEvents (w : WatcherState) (fingerprint : String) (current : WatcherState) (mono : Nat) :
    List ServiceEvent :=
  [⟨.daemon .cancellationRequested,false⟩,
    ⟨.daemon (.beginAction w.watcherId fingerprint),some current⟩,⟨.ledger .monotonicMs,mono⟩]

def waitEvents (id : String) (untilMs now : Nat) : List DaemonEvent :=
  [⟨.cancellationRequested,false⟩,⟨.nowMs,now⟩,⟨.scheduleWait id untilMs now,.ok ()⟩]

omit [Render] in
theorem traces_wait {snapshot : WatcherState} {action : Action} {untilMs : Nat} {deadline : String}
    {output : ExecutionOutput} (hvalid : validateAction action = .ok ()) (hkind : (action.kind =
      .waitUntil deadline ∧ output = .scheduled 0) ∨ ∃ seconds : Nat, action.kind = .waitDuration
      seconds ∧ deadline = "monotonic+" ++ toString seconds ++ "s" ∧ output = .scheduled (seconds *
      nanosPerSecond)) (huntil : Executor.parseWaitDeadline deadline now = .ok untilMs) :
    Traces (Executor.execute snapshot action).run (waitEvents snapshot.watcherId untilMs now)
      (.ok output) := by
  have hnow : Traces (Executor.ask .nowMs).run [⟨.nowMs,now⟩] (.ok now) := .ask _ (.done _)
  have hschedule : Traces (Executor.schedule snapshot.watcherId deadline).run
      [⟨.nowMs,now⟩,⟨.scheduleWait snapshot.watcherId untilMs now,.ok ()⟩] (.ok ()) := by
    refine hnow.run_bind ?_
    rw [huntil]
    exact .ask _ (.done _)
  have hscheduled := hschedule.run_bind (f := fun _ => pure output) (.done _)
  have hactuator : Traces (Executor.runtimeActuator snapshot.watcherId action).run
      [⟨.nowMs,now⟩,⟨.scheduleWait snapshot.watcherId untilMs now,.ok ()⟩] (.ok output) := by
    unfold Executor.runtimeActuator
    rw [hvalid]
    refine Traces.run_bind (h := []) (.done _) ?_
    rcases hkind with ⟨hkind,rfl⟩ | ⟨seconds,hkind,rfl,rfl⟩
    · rw [hkind]
      exact hscheduled
    · rw [hkind]
      exact hscheduled
  have hgo : Traces Executor.rejectIfCancelled.run [⟨.cancellationRequested,false⟩] (.ok ()) :=
    .ask _ (.done _)
  refine hgo.run_bind ?_
  rcases hkind with ⟨hkind,-⟩ | ⟨seconds,hkind,-⟩
  · rw [hkind]
    exact hactuator
  · rw [hkind]
    exact hactuator

/-- A job that brings the wait it proposes for a watcher to success: the machine while the job is
at it and afterwards, the answers, and the checks that pass on them. -/
structure WaitJob (recipes : WatcherState → Option Action) (owner : OwnerIdentity)
    (w : WatcherState) where
  action : Action
  context : RecoveryContext
  d : Prelude
  output : ExecutionOutput
  begun : RecoveryMachine
  ended : RecoveryMachine
  now : Nat
  mono : Nat
  untilMs : Nat
  proposed : recipes w = some action
  still : recipes (Sample.withMachine w begun now) = some action
  fingerprint : actionFingerprint action ≠ ""
  context_ok : RecoveryContext.fromWatcher (Sample.withMachine w begun now) (mono / 1000) =
    .ok context
  passed : d.Passed ⟨w.watcherId,owner,action,context⟩
  executed : Traces (Executor.execute (Sample.withMachine w begun now) action).run
    (waitEvents w.watcherId untilMs now) (.ok output)
  receipt : receiptOutcomesHold output action.expectedOutcomes = true
  unverified : needsProgressVerification action.kind action.expectedOutcomes = false
  begins : ∃ m clock, w.recovery = some m ∧
    m.applied (.beginAction (actionFingerprint action) clock) = .ok begun
  ends : begun.applied (.actionSucceeded (actionFingerprint action)) = .ok ended
  fresh : carriesResume w = false
  room : w.revision + 4 ≤ revisionMax

namespace WaitJob
variable {recipes : WatcherState → Option Action} {owner : OwnerIdentity} {w : WatcherState}
  (j : WaitJob recipes owner w)

def job : Job := ⟨w.watcherId,owner,j.action,j.context⟩

def current : WatcherState := Sample.withMachine w j.begun j.now

def after : WatcherState :=
  Sample.withMachine (Registry.waitingUntil j.current j.untilMs j.now) j.ended j.now

def txEvents : List TxEvent :=
  (j.d.events j.job beginReason ++ [⟨.execute j.action,()⟩]) ++
    ⟨.executeReturns j.action,.ok j.output⟩ :: j.d.closing j.job j.output

def events : List ServiceEvent :=
  beginEvents w (actionFingerprint j.action) j.current j.mono ++
    (j.txEvents.flatMap (inJob (waitEvents w.watcherId j.untilMs j.now)) ++
      [⟨.daemon .cancellationRequested,false⟩,⟨.daemon .nowMs,j.now⟩,
        ⟨.daemon (.registry (RecoveryCoordinator.actionSucceeded w.watcherId
          (actionFingerprint j.action) j.now)),.ok (.moved j.ended.state)⟩])

end WaitJob

end Service
end WatchMe
