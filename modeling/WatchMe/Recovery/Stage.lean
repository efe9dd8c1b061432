import WatchMe.Recovery.Transaction

/-! # The protocol of a transaction

The stages a call goes through, with the data later stages depend on, and the
requests that lead from one to the next. `stageMachine_simulates` is the only place
where the programs of the transaction module are opened; all results about runs and
interleavings are about `Stage.Step`.
-/
namespace WatchMe
open Effects Transaction

inductive Stage where
  | entered (job : Job)
  | baselined (job : Job) (baseline : LiveEvidence)
  | authorized (job : Job) (baseline : LiveEvidence)
  | confirmed (job : Job) (baseline again : LiveEvidence)
  | prepared (c : Claim) (again : LiveEvidence)
  | claimed (c : Claim) (again : LiveEvidence)
  | rechecked (c : Claim)
  | begun (c : Claim)
  | calling (c : Claim)
  | returned (c : Claim) (output : ExecutionOutput)
  | closing (c : Claim)
  | opening (c : Claim)
  | verifying (c : Claim)
  | polling (p : Poll)
  | checked (p : Poll)
  | sleeping (p : Poll)
  | proven (p : Poll) (after : LiveEvidence)
  | failing (c : Claim) (error : TransactionError)
  | doubtful (c : Claim) (reason : String)
  | restarting (target : String)
  | reclaiming (target : String)
  | expiring (target : String) (record : ActionRecord)
  | probing (target : String) (record : ActionRecord)
  | reaping (target : String) (record terminal : ActionRecord)
  | ended (result : TxResult)

def Transaction.Claim.next (c : Claim) (phase : ActionPhase) (reason : String) : Claim :=
  { c with record := c.record.next phase reason }

def Transaction.Claim.withOutput [Render] (c : Claim) (output : ExecutionOutput) : Claim :=
  { c with record := { c.record with output := some (outputSummary output) } }

def ExecutionError.Clean : ExecutionError → Prop
  | possibleSideEffect _ => False
  | _ => True

def restarted (record : ActionRecord) : ActionRecord :=
  record.next (restartReason record.phase).1 (restartReason record.phase).2

def expired (record : ActionRecord) : ActionRecord :=
  record.next (staleReason record.phase).1 (staleReason record.phase).2

namespace Stage
variable [Chrono] [Render]

def startRun (job : Job) : Stage :=
  match validateAction job.action with
  | .error error => ended (.error (.execution error.text))
  | .ok () => entered job

omit [Render] in
theorem startRun_cases (job : Job) :
    (startRun job = entered job ∧ validateAction job.action = .ok ()) ∨
      ∃ r, startRun job = ended r := by
  unfold startRun
  split
  · exact .inr ⟨_,rfl⟩
  · rename_i hvalid
    exact .inl ⟨rfl,hvalid⟩

def start : TxCall → Stage
  | .run job => startRun job
  | .recoverStale target => reclaiming target
  | .recoverAfterRestart target => restarting target

inductive Step : Stage → TxEvent → Stage → Prop
  | readFailed {job : Job} {e : String} :
      Step (entered job) ⟨.read,.error e⟩ (ended (.error (.store e)))
  | refused {job : Job} {live : LiveEvidence} {reason : String} :
      Step (entered job) ⟨.read,.ok live⟩ (ended (.error (.revalidation reason)))
  | baseline {job : Job} {live : LiveEvidence} :
      revalidationRefusal job.action none live = none →
      Step (entered job) ⟨.read,.ok live⟩ (baselined job live)
  | denied {job : Job} {base : LiveEvidence} {wall reason : String} :
      Step (baselined job base) ⟨.wallTime,wall⟩ (ended (.error (.policy reason)))
  | authorize {job : Job} {base : LiveEvidence} {wall : String} :
      WatchMe.authorize job.action (policyContext base job.recovery wall) = .ok () →
      Step (baselined job base) ⟨.wallTime,wall⟩ (authorized job base)
  | rereadFailed {job : Job} {base : LiveEvidence} {e : String} :
      Step (authorized job base) ⟨.read,.error e⟩ (ended (.error (.store e)))
  | rerefused {job : Job} {base live : LiveEvidence} {reason : String} :
      Step (authorized job base) ⟨.read,.ok live⟩ (ended (.error (.revalidation reason)))
  | confirm {job : Job} {base live : LiveEvidence} :
      revalidationRefusal job.action (some base) live = none →
      Step (authorized job base) ⟨.read,.ok live⟩ (confirmed job base live)
  | unrendered {job : Job} {base again : LiveEvidence} {now : Nat} {e : String} :
      Step (confirmed job base again) ⟨.monotonicMs,now⟩ (ended (.error (.store e)))
  | prepare {job : Job} {base again : LiveEvidence} {now : Nat} {snapshot : String} :
      Render.snapshot base.event.source base.event.confidence job.action.preconditions
        = .ok snapshot →
      Step (confirmed job base again) ⟨.monotonicMs,now⟩
        (prepared ⟨job,base,job.prepared base now snapshot⟩ again)
  | claimFailed {c : Claim} {again : LiveEvidence} {e : String} :
      Step (prepared c again) ⟨.claimPrepared c.job.target c.record,.error e⟩
        (ended (.error (.store e)))
  | duplicate {c : Claim} {again : LiveEvidence} :
      Step (prepared c again) ⟨.claimPrepared c.job.target c.record,.ok false⟩
        (ended (.error .duplicate))
  | claim {c : Claim} {again : LiveEvidence} :
      Step (prepared c again) ⟨.claimPrepared c.job.target c.record,.ok true⟩ (claimed c again)
  | recheckFailed {c : Claim} {again : LiveEvidence} {answer : Except String LiveEvidence}
      {error : TransactionError} : Step (claimed c again) ⟨.read,answer⟩ (failing c error)
  | recheck {c : Claim} {again live : LiveEvidence} :
      revalidationRefusal c.job.action (some again) live = none →
      Step (claimed c again) ⟨.read,.ok live⟩ (rechecked c)
  | beginFailed {c : Claim} {reason e : String} :
      Step (rechecked c) ⟨.append c.job.target (c.record.next .begun reason),.error e⟩
        (ended (.error (.store e)))
  | begin {c : Claim} {reason : String} :
      Step (rechecked c) ⟨.append c.job.target (c.record.next .begun reason),.ok ()⟩
        (begun (c.next .begun reason))
  | call {c : Claim} : Step (begun c) ⟨.execute c.job.action,()⟩ (calling c)
  | callOk {c : Claim} {output : ExecutionOutput} :
      Step (calling c) ⟨.executeReturns c.job.action,.ok output⟩ (returned c output)
  | callDoubtful {c : Claim} {reason : String} :
      Step (calling c) ⟨.executeReturns c.job.action,.error (.possibleSideEffect reason)⟩
        (doubtful c reason)
  | callFailed {c : Claim} {error : ExecutionError} : error.Clean →
      Step (calling c) ⟨.executeReturns c.job.action,.error error⟩
        (failing c (.execution error.text))
  | sendFailed {c : Claim} {output : ExecutionOutput} {reason e doubt : String} :
      Step (returned c output)
        ⟨.append c.job.target ((c.withOutput output).record.next .sent reason),.error e⟩
        (doubtful (c.withOutput output) doubt)
  | unreceipted {c : Claim} {output : ExecutionOutput} {reason doubt : String} :
      Step (returned c output)
        ⟨.append c.job.target ((c.withOutput output).record.next .sent reason),.ok ()⟩
        (doubtful ((c.withOutput output).next .sent reason) doubt)
  | sendUnverified {c : Claim} {output : ExecutionOutput} {reason : String} :
      receiptOutcomesHold output c.job.action.expectedOutcomes = true →
      needsProgressVerification c.job.action.kind c.job.action.expectedOutcomes = false →
      Step (returned c output)
        ⟨.append c.job.target ((c.withOutput output).record.next .sent reason),.ok ()⟩
        (closing ((c.withOutput output).next .sent reason))
  | send {c : Claim} {output : ExecutionOutput} {reason : String} :
      needsProgressVerification c.job.action.kind c.job.action.expectedOutcomes = true →
      Step (returned c output)
        ⟨.append c.job.target ((c.withOutput output).record.next .sent reason),.ok ()⟩
        (opening ((c.withOutput output).next .sent reason))
  | closeFailed {c : Claim} {reason e : String} :
      Step (closing c) ⟨.append c.job.target (c.record.next .succeeded reason),.error e⟩
        (ended (.error (.store e)))
  | close {c : Claim} {reason : String} :
      Step (closing c) ⟨.append c.job.target (c.record.next .succeeded reason),.ok ()⟩
        (ended (.ok (some (c.record.next .succeeded reason))))
  | openFailed {c : Claim} {reason e doubt : String} :
      Step (opening c) ⟨.append c.job.target (c.record.next .verifying reason),.error e⟩
        (doubtful c doubt)
  | verify {c : Claim} {reason : String} :
      Step (opening c) ⟨.append c.job.target (c.record.next .verifying reason),.ok ()⟩
        (verifying (c.next .verifying reason))
  | setDeadline {c : Claim} {now deadline : Nat} :
      Step (verifying c) ⟨.monotonicMs,now⟩ (polling ⟨c,deadline⟩)
  | pollDoubtful {p : Poll} {answer : Except String LiveEvidence} {doubt : String} :
      Step (polling p) ⟨.readVerification p.claim.baseline,answer⟩ (doubtful p.claim doubt)
  | prove {p : Poll} {after : LiveEvidence} : after.humanIntervened = false →
      after.identity = p.claim.baseline.identity →
      verified p.claim.baseline after p.claim.job.action.expectedOutcomes = true →
      Step (polling p) ⟨.readVerification p.claim.baseline,.ok after⟩ (proven p after)
  | unproven {p : Poll} {after : LiveEvidence} :
      Step (polling p) ⟨.readVerification p.claim.baseline,.ok after⟩ (checked p)
  | timedOut {p : Poll} {now : Nat} {doubt : String} :
      Step (checked p) ⟨.monotonicMs,now⟩ (doubtful p.claim doubt)
  | retry {p : Poll} {now : Nat} : Step (checked p) ⟨.monotonicMs,now⟩ (sleeping p)
  | wake {p : Poll} : Step (sleeping p) ⟨.sleepMs pollMs,()⟩ (polling p)
  | succeedFailed {p : Poll} {after : LiveEvidence} {reason e : String} :
      Step (proven p after)
        ⟨.append p.claim.job.target (p.claim.record.next .succeeded reason),.error e⟩
        (ended (.error (.store e)))
  | succeed {p : Poll} {after : LiveEvidence} {reason : String} :
      Step (proven p after)
        ⟨.append p.claim.job.target (p.claim.record.next .succeeded reason),.ok ()⟩
        (ended (.ok (some (p.claim.record.next .succeeded reason))))
  | fail {c : Claim} {error : TransactionError} {reason : String}
      {answer : Except String Unit} {error' : TransactionError} :
      Step (failing c error) ⟨.append c.job.target (c.record.next .failed reason),answer⟩
        (ended (.error error'))
  | escalate {c : Claim} {reason : String} {answer : Except String ActionRecord}
      {error : TransactionError} :
      Step (doubtful c reason) ⟨.escalateUncertain c.job.target c.record reason,answer⟩
        (ended (.error error))
  | restartFailed {target e : String} :
      Step (restarting target) ⟨.active target,.error e⟩ (ended (.error (.store e)))
  | restartIdle {target : String} :
      Step (restarting target) ⟨.active target,.ok none⟩ (ended (.ok none))
  | restart {target : String} {record : ActionRecord} :
      Step (restarting target) ⟨.active target,.ok (some record)⟩
        (reaping target record (restarted record))
  | reclaimFailed {target e : String} :
      Step (reclaiming target) ⟨.active target,.error e⟩ (ended (.error (.store e)))
  | reclaimIdle {target : String} :
      Step (reclaiming target) ⟨.active target,.ok none⟩ (ended (.ok none))
  | reclaim {target : String} {record : ActionRecord} :
      Step (reclaiming target) ⟨.active target,.ok (some record)⟩ (expiring target record)
  | leased {target : String} {record : ActionRecord} {now : Nat} :
      Step (expiring target record) ⟨.monotonicMs,now⟩ (ended (.error .activeOwner))
  | expire {target : String} {record : ActionRecord} {now : Nat} :
      record.leaseDeadlineMs < now →
      Step (expiring target record) ⟨.monotonicMs,now⟩ (probing target record)
  | ownerAlive {target : String} {record : ActionRecord} :
      Step (probing target record) ⟨.ownerMatches record.owner,true⟩
        (ended (.error .activeOwner))
  | ownerGone {target : String} {record : ActionRecord} :
      Step (probing target record) ⟨.ownerMatches record.owner,false⟩
        (reaping target record (expired record))
  | reapFailed {target e : String} {record terminal : ActionRecord} :
      Step (reaping target record terminal) ⟨.append target terminal,.error e⟩
        (ended (.error (.store e)))
  | reap {target : String} {record terminal : ActionRecord} :
      Step (reaping target record terminal) ⟨.append target terminal,.ok ()⟩
        (ended (.ok (some terminal)))

def result : Stage → Option TxResult
  | ended r => some r
  | _ => none

end Stage

abbrev stageMachine [Chrono] [Render] : Machine txSig TxCall TxResult where
  State := Stage
  start := Stage.start
  Step := Stage.Step
  result := Stage.result

end WatchMe
