import WatchMe.Recovery.Stage

/-! # The transaction programs follow the protocol

One rule for each helper of the transaction module, then one lemma for each section of
`run`, for one round of its loop and for the two recoveries.
-/
namespace WatchMe
open Effects Transaction
variable {s : Stage}

section Rules
variable {κ ε α : Type} {M : Machine txSig κ ε} {s : M.State}
variable {reason : String} {phase : ActionPhase}

theorem conforms_orThrow {η : Type} {wrap : η → TransactionError} {answer : Except η α}
    {Q : M.State → Except TransactionError α → Prop} :
    Conforms M Q (orThrow wrap answer).run s ↔ match answer with
      | .ok a => Q s (.ok a)
      | .error e => Q s (.error (wrap e)) := by
  cases answer <;> rfl

theorem conforms_askThen {op : TxOp} {β : Type} {f : op.Answer → Tx β}
    {Q : M.State → Except TransactionError β → Prop} (hres : M.result s = none)
    (h : ∀ r, ∃ t, M.Step s ⟨op,r⟩ t ∧ Conforms M Q (f r).run t) :
    Conforms M Q (ask op >>= f).run s :=
  conforms_run_bind.2 (conforms_run_lift.2 ⟨hres,h⟩)

theorem conforms_revalidate {action : Action} {baseline : Option LiveEvidence}
    {Q : M.State → Except TransactionError LiveEvidence → Prop} (hres : M.result s = none)
    (herror : ∀ e, ∃ t, M.Step s ⟨.read,.error e⟩ t ∧ Q t (.error (.store e)))
    (hrefused : ∀ live reason, revalidationRefusal action baseline live = some reason →
      ∃ t, M.Step s ⟨.read,.ok live⟩ t ∧ Q t (.error (.revalidation reason)))
    (hok : ∀ live, revalidationRefusal action baseline live = none →
      ∃ t, M.Step s ⟨.read,.ok live⟩ t ∧ Q t (.ok live)) :
    Conforms M Q (revalidate action baseline).run s := by
  refine conforms_askThen hres fun r => ?_
  cases r with
  | error e => exact herror e
  | ok live =>
    cases href : revalidationRefusal action baseline live with
    | some reason =>
      obtain ⟨t,hs,hQ⟩ := hrefused live reason href
      refine ⟨t,hs,conforms_run_bind.2 (conforms_orThrow.2 ?_)⟩
      simp only [Sequel,href]
      exact hQ
    | none =>
      obtain ⟨t,hs,hQ⟩ := hok live href
      refine ⟨t,hs,conforms_run_bind.2 (conforms_orThrow.2 ?_)⟩
      simp only [Sequel,href]
      exact hQ

theorem conforms_persist {target : String} {record : ActionRecord}
    {Q : M.State → Except TransactionError ActionRecord → Prop} (hres : M.result s = none) (herror :
      ∀ e, ∃ t, M.Step s ⟨.append target (record.next phase reason),.error e⟩ t ∧ Q t (.error
      (.store e))) (hok : ∃ t, M.Step s ⟨.append target (record.next phase reason),.ok ()⟩ t ∧ Q t
      (.ok (record.next phase reason))) :
    Conforms M Q (persist target record phase reason).run s := by
  refine conforms_askThen hres fun r => ?_
  cases r with
  | error e => exact herror e
  | ok => exact hok

theorem conforms_persistOrEscalate {target note : String} {record : ActionRecord}
    {Q : M.State → Except TransactionError ActionRecord → Prop} (hres : M.result s = none) (herror :
      ∀ e, ∃ t, M.Step s ⟨.append target (record.next phase reason),.error e⟩ t ∧ Conforms M Q
      (uncertain target record (note ++ (TransactionError.store e).text) : Tx ActionRecord).run t)
      (hok : ∃ t, M.Step s ⟨.append target (record.next phase reason),.ok ()⟩ t ∧ Q t (.ok
      (record.next phase reason))) :
    Conforms M Q (persistOrEscalate target record phase reason note).run s := by
  refine conforms_run_bind.2 (conforms_run_lift.2 ?_)
  exact conforms_persist hres herror hok

end Rules

variable [Chrono] [Render]

/-- What a section of `run` leaves behind: the given stage, or the reported error. -/
def Leaves {α : Type} (next : α → Stage) (t : stageMachine.State) :
    Except TransactionError α → Prop
  | .ok a => t = next a
  | .error e => t = .ended (.error e)

theorem terminate_conforms {α : Type} {c : Claim} {error : TransactionError}
    {Q : stageMachine.State → Except TransactionError α → Prop}
    (hQ : ∀ e, Q (.ended (.error e)) (.error e)) :
    Conforms stageMachine Q (terminate c.job.target c.record .failed error).run
      (.failing c error) := by
  refine conforms_askThen rfl fun r => ?_
  cases r <;> exact ⟨_,.fail,hQ _⟩

theorem uncertain_conforms {α : Type} {c : Claim} {reason : String}
    {Q : stageMachine.State → Except TransactionError α → Prop}
    (hQ : ∀ e, Q (.ended (.error e)) (.error e)) :
    Conforms stageMachine Q (uncertain c.job.target c.record reason).run (.doubtful c reason) := by
  refine conforms_askThen rfl fun r => ?_
  cases r <;> exact ⟨_,.escalate,hQ _⟩

theorem prepare_conforms (job : Job) :
    Conforms stageMachine (Leaves fun c => .claimed c.1 c.2) (prepare job).run
      (.startRun job) := by
  unfold prepare Stage.startRun
  refine conforms_run_bind.2 (conforms_orThrow.2 ?_)
  cases validateAction job.action with
  | error => exact rfl
  | ok u =>
    refine conforms_run_bind.2 (conforms_revalidate rfl (fun e => ⟨_,.readFailed,rfl⟩)
      (fun live reason _ => ⟨_,.refused,rfl⟩) (fun base hbase => ⟨_,.baseline hbase,?_⟩))
    refine conforms_askThen rfl fun wall => ?_
    cases hauth : authorize job.action (policyContext base job.recovery wall) with
    | error reason => exact ⟨.ended (.error (.policy reason)),.denied,rfl⟩
    | ok =>
      refine ⟨_,.authorize hauth,conforms_run_bind.2 (conforms_orThrow.2 ?_)⟩
      refine conforms_run_bind.2 (conforms_revalidate rfl (fun e => ⟨_,.rereadFailed,rfl⟩)
        (fun live reason _ => ⟨_,.rerefused,rfl⟩) (fun again hagain => ⟨_,.confirm hagain,?_⟩))
      refine conforms_askThen rfl fun now => ?_
      cases hsnap : Render.snapshot base.event.source base.event.confidence
          job.action.preconditions with
      | error e => exact ⟨.ended (.error (.store e)),.unrendered,rfl⟩
      | ok snapshot =>
        refine ⟨_,.prepare hsnap,conforms_run_bind.2 (conforms_orThrow.2 ?_)⟩
        refine conforms_askThen rfl fun granted => ?_
        match granted with
        | .error e => exact ⟨_,.claimFailed,rfl⟩
        | .ok false => exact ⟨_,.duplicate,rfl⟩
        | .ok true => exact ⟨_,.claim,rfl⟩

theorem Leaves.skip {α β : Type} {next : α → Stage} {next' : β → Stage} {f : β → Tx α} {x : Tx β}
    (herr : ∀ b t, t = next' b → Conforms stageMachine (Leaves next) (f b).run t)
    (h : Conforms stageMachine (Leaves next') x.run s) :
    Conforms stageMachine (Leaves next) (x >>= f).run s := by
  refine conforms_run_bind.2 (h.mono fun t r hr => ?_)
  cases r with
  | error => exact hr
  | ok b => exact herr b t hr

theorem commit_conforms (c : Claim) (again : LiveEvidence) :
    Conforms stageMachine (Leaves fun r => .returned r.1 r.2) (commit c again).run
      (.claimed c again) := by
  unfold commit
  refine conforms_run_bind.2 (conforms_run_lift.2 (conforms_revalidate rfl
    (fun e => ⟨_,.recheckFailed,terminate_conforms fun _ => rfl⟩)
    (fun live reason _ => ⟨_,.recheckFailed,terminate_conforms fun _ => rfl⟩)
    (fun live hlive => ⟨_,.recheck hlive,?_⟩)))
  refine conforms_run_bind.2 (conforms_persist rfl (fun e => ⟨_,.beginFailed,rfl⟩)
    ⟨_,.begin,?_⟩)
  refine conforms_askThen rfl fun u => ⟨_,.call,?_⟩
  refine conforms_askThen rfl fun answer => ?_
  match answer with
  | .ok output => exact ⟨_,.callOk,rfl⟩
  | .error (.possibleSideEffect reason) => exact ⟨_,.callDoubtful,uncertain_conforms fun _ => rfl⟩
  | .error (.unsafe_ reason) => exact ⟨_,.callFailed trivial,terminate_conforms fun _ => rfl⟩
  | .error (.integration reason) => exact ⟨_,.callFailed trivial,terminate_conforms fun _ => rfl⟩

/-- The stage in which the verification loop is entered, or the end of the call. -/
def loopStage : Poll ⊕ ActionRecord → Stage
  | .inl p => .polling p
  | .inr record => .ended (.ok (some record))

theorem settle_conforms (c : Claim) (output : ExecutionOutput) :
    Conforms stageMachine (Leaves loopStage) (settle c output).run (.returned c output) := by
  unfold settle
  refine conforms_run_bind.2 (conforms_persistOrEscalate rfl
    (fun e => ⟨_,.sendFailed,uncertain_conforms (c := c.withOutput output) fun _ => rfl⟩) ?_)
  by_cases hreceipt : receiptOutcomesHold output c.job.action.expectedOutcomes = true
  · by_cases hneeds : needsProgressVerification c.job.action.kind
        c.job.action.expectedOutcomes = true
    · refine ⟨_,.send hneeds,?_⟩
      simp only [Sequel,hreceipt,hneeds,Bool.not_true,Bool.false_eq_true,if_false]
      refine conforms_run_bind.2 (conforms_persistOrEscalate rfl
        (fun e => ⟨_,.openFailed,
          uncertain_conforms (c := (c.withOutput output).next _ _) fun _ => rfl⟩)
        ⟨_,.verify,?_⟩)
      exact conforms_askThen rfl fun now => ⟨_,.setDeadline,rfl⟩
    · refine ⟨_,.sendUnverified hreceipt (by simpa using hneeds),?_⟩
      simp only [Sequel,hreceipt,hneeds,Bool.not_true,Bool.not_false,Bool.false_eq_true,if_false,
        if_true]
      exact conforms_run_bind.2 (conforms_persist rfl (fun e => ⟨_,.closeFailed,rfl⟩)
        ⟨_,.close,rfl⟩)
  · refine ⟨.doubtful ((c.withOutput output).next .sent _)
      "executor did not return the canonical outcome receipt",.unreceipted,?_⟩
    simp only [Sequel,hreceipt,Bool.not_false,if_true]
    exact uncertain_conforms (c := (c.withOutput output).next _ _) fun _ => rfl

theorem poll_conforms (p : Poll) :
    Conforms stageMachine (Leaves loopStage) (poll p).run (.polling p) := by
  unfold poll
  refine conforms_askThen rfl fun answer => ?_
  cases answer with
  | error => exact ⟨_,.pollDoubtful,uncertain_conforms fun _ => rfl⟩
  | ok after =>
    dsimp only
    by_cases hhuman : (after.humanIntervened || after.identity != p.claim.baseline.identity) = true
    · rw [if_pos hhuman]
      exact ⟨_,.pollDoubtful,uncertain_conforms fun _ => rfl⟩
    · rw [if_neg hhuman]
      simp only [Bool.or_eq_true,bne_iff_ne,not_or,not_not,Bool.not_eq_true] at hhuman
      by_cases hver : verified p.claim.baseline after p.claim.job.action.expectedOutcomes = true
      · rw [if_pos hver]
        refine ⟨_,.prove hhuman.1 hhuman.2 hver,?_⟩
        exact conforms_run_bind.2 (conforms_persist rfl (fun e => ⟨_,.succeedFailed,rfl⟩)
          ⟨_,.succeed,rfl⟩)
      · rw [if_neg hver]
        refine ⟨_,.unproven,conforms_askThen rfl fun now => ?_⟩
        by_cases hlate : p.deadline ≤ now
        · rw [if_pos hlate]
          exact ⟨_,.timedOut,uncertain_conforms fun _ => rfl⟩
        · rw [if_neg hlate]
          exact ⟨_,.retry,conforms_askThen rfl fun _ => ⟨_,.wake,rfl⟩⟩

theorem run_conforms (job : Job) :
    Conforms stageMachine (Leaves loopStage) (Transaction.run job).run (.startRun job) := by
  unfold Transaction.run
  refine Leaves.skip (fun claimed t ht => ?_) (prepare_conforms job)
  subst ht
  refine Leaves.skip (fun returned t ht => ?_) (commit_conforms claimed.1 claimed.2)
  subst ht
  exact settle_conforms returned.1 returned.2

/-- What a recovery leaves behind is what it returns. -/
def endStage (record : Option ActionRecord) : Stage := .ended (.ok record)

theorem reap_conforms {target : String} {record terminal : ActionRecord} :
    Conforms stageMachine (Leaves endStage)
      (do orThrow .store (← ask (.append target terminal)); return some terminal :
        Tx (Option ActionRecord)).run (.reaping target record terminal) := by
  refine conforms_askThen rfl fun answer => ?_
  cases answer with
  | error => exact ⟨_,.reapFailed,rfl⟩
  | ok => exact ⟨_,.reap,rfl⟩

theorem recoverAfterRestart_conforms (target : String) :
    Conforms stageMachine (Leaves endStage) (recoverAfterRestart target).run
      (.restarting target) := by
  unfold recoverAfterRestart
  refine conforms_askThen rfl fun answer => ?_
  match answer with
  | .error e => exact ⟨_,.restartFailed,rfl⟩
  | .ok none => exact ⟨_,.restartIdle,rfl⟩
  | .ok (some record) => exact ⟨_,.restart,reap_conforms⟩

theorem recoverStale_conforms (target : String) :
    Conforms stageMachine (Leaves endStage) (recoverStale target).run (.reclaiming target) := by
  unfold recoverStale
  refine conforms_askThen rfl fun answer => ?_
  match answer with
  | .error e => exact ⟨_,.reclaimFailed,rfl⟩
  | .ok none => exact ⟨_,.reclaimIdle,rfl⟩
  | .ok (some record) =>
    refine ⟨_,.reclaim,conforms_askThen rfl fun now => ?_⟩
    by_cases hlease : now ≤ record.leaseDeadlineMs
    · rw [if_pos hlease]
      exact ⟨_,.leased,rfl⟩
    · rw [if_neg hlease]
      refine ⟨_,.expire (Nat.lt_of_not_le hlease),conforms_askThen rfl fun alive => ?_⟩
      cases alive with
      | true => exact ⟨_,.ownerAlive,rfl⟩
      | false => exact ⟨_,.ownerGone,reap_conforms⟩

def LoopStage (t : stageMachine.State) (p : Poll) : Prop := t = .polling p

theorem returned_conforms {x : Tx (Poll ⊕ ActionRecord)}
    (h : Conforms stageMachine (Leaves loopStage) x.run s) :
    Conforms stageMachine (LoopPost LoopStage) (do return TxCall.returned (← x.run)) s := by
  rw [conforms_bind]
  refine h.mono fun t r hr => ?_
  match r with
  | .ok (.inl p) => exact hr
  | .ok (.inr record) => subst hr; rfl
  | .error e => subst hr; rfl

theorem recovered_conforms {x : Tx (Option ActionRecord)}
    (h : Conforms stageMachine (Leaves endStage) x.run s) :
    Conforms stageMachine (LoopPost LoopStage) (do return .inr (← x.run)) s := by
  rw [conforms_bind]
  refine h.mono fun t r hr => ?_
  cases r with
  | ok => subst hr; rfl
  | error => subst hr; rfl

/-- Every call of the transaction module, under any answers, follows the protocol. -/
theorem txMachine_simulates :
    ∃ R, Machine.Simulates txMachine stageMachine R := by
  refine ⟨_,Conforms.simulates (J := LoopStage) (fun t p ht => ?_) (fun call => ?_)⟩
  · subst ht
    exact ⟨_,_,rfl,returned_conforms (poll_conforms p)⟩
  · cases call with
    | run job => exact returned_conforms (run_conforms job)
    | recoverStale target => exact recovered_conforms (recoverStale_conforms target)
    | recoverAfterRestart target =>
      exact recovered_conforms (recoverAfterRestart_conforms target)

end WatchMe
