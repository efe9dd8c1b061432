import WatchMe.Recovery.Course
import WatchMe.Recovery.RunTraces

/-! # Success and its verification

`run` records `Succeeded` in two places: after a verification read, and without one when
`needs_progress_verification` finds nothing to verify.
-/
namespace WatchMe
open Effects Transaction
variable {h : List TxEvent}

/-- An evidence read after the executor was called proves the expected outcomes against
the first read of the run. -/
def VerifiedRead (job : Job) (h : List TxEvent) : Prop :=
  ∃ pre post baseline after, h = pre ++ ⟨.readVerification baseline,.ok after⟩ :: post ∧
    Opened pre baseline ∧ executes pre = 1 ∧
    verified baseline after job.action.expectedOutcomes = true

theorem proven_read {job : Job} {p : Poll} {after : LiveEvidence}
    (hc : RunCourse job h (.proven p after)) :
    ∃ pre, h = pre ++ [⟨.readVerification p.claim.baseline,.ok after⟩] ∧
      Opened pre p.claim.baseline ∧ executes pre = 1 ∧ (∃ output, returns pre = [.ok output]) ∧
      after.humanIntervened = false ∧ after.identity = p.claim.baseline.identity ∧
      verified p.claim.baseline after job.action.expectedOutcomes = true := by
  obtain ⟨⟨output,hh⟩,hlast,hhuman,hid,hver⟩ := hc
  obtain ⟨pre,rfl⟩ := List.getLast?_eq_some_iff.1 hlast
  have hexec := hh.executes_eq
  have hret := hh.returns_eq
  have hopen := hh.opened
  simp only [executes_snoc,isExecute,Bool.false_eq_true,if_false,Nat.add_zero] at hexec
  simp only [returns_snoc,executeReturn,Option.toList_none,List.append_nil] at hret
  refine ⟨pre,rfl,?_,hexec,⟨output,hret⟩,hhuman,hid,hh.job_eq ▸ hver⟩
  cases pre with
  | nil => simp [executes] at hexec
  | cons => exact hopen

variable [Chrono] [Render]

/-- The checks of a run can pass and its executor can answer with the receipts. -/
def Executable (job : Job) : Prop :=
  ∃ (d : Prelude) (output : ExecutionOutput), d.Passed job ∧
    receiptOutcomesHold output job.action.expectedOutcomes = true

theorem success_cases {job : Job} {s : Stage} {target : String} {record : ActionRecord}
    {answer : Except String Unit} (hphase : record.phase = .succeeded)
    (hr : stageMachine.Runs (.run job) (h ++ [⟨.append target record,answer⟩]) s) :
    (∃ c, stageMachine.Runs (.run job) h (.closing c)) ∨
      ∃ p after, stageMachine.Runs (.run job) h (.proven p after) := by
  obtain ⟨s₀,hr₀,hs⟩ := hr.snoc_inv
  have hcourse := runs_course hr₀
  cases hs with
  | close | closeFailed => exact .inl ⟨_,hr₀⟩
  | succeed | succeedFailed => exact .inr ⟨_,_,hr₀⟩
  | begin | beginFailed | sendFailed | unreceipted | sendUnverified | send | verify | openFailed
  | fail => cases hphase
  | reap | reapFailed => exact hcourse.elim

theorem runs_closing {job : Job} {c : Claim} (hr : stageMachine.Runs (.run job) h (.closing c)) :
    Executable job ∧
      needsProgressVerification job.action.kind job.action.expectedOutcomes = false := by
  obtain ⟨h₁,s₁,e₁,rfl,hr₁,hs⟩ := Stage.runs_back hr (by simp) (by simp)
  cases hs with | @sendUnverified c output reason hreceipt hneeds =>
  obtain ⟨h₂,s₂,e₂,rfl,hr₂,hs⟩ := Stage.runs_back hr₁ (by simp) (by simp)
  cases hs with | callOk =>
  obtain ⟨h₃,s₃,e₃,rfl,hr₃,hs⟩ := Stage.runs_back hr₂ (by simp) (by simp)
  cases hs with | call =>
  obtain ⟨d,reason,hd,rfl,rfl⟩ := Stage.runs_begun hr₃
  exact ⟨⟨d,output,hd,hreceipt⟩,hneeds⟩

theorem closes_unverified {job : Job} (hexec : Executable job)
    (hneeds : needsProgressVerification job.action.kind job.action.expectedOutcomes = false) :
    ∃ (h : List TxEvent) (target : String) (record : ActionRecord) (p : txMachine.State),
      txMachine.Runs (.run job) (h ++ [⟨.append target record,.ok ()⟩]) p ∧
      record.phase = .succeeded ∧ ¬ VerifiedRead job h := by
  obtain ⟨d,output,hd,hreceipt⟩ := hexec
  have hsettle := traces_settle_closing (d := d) hreceipt hneeds
  have hruns := (traces_main (traces_run hd hsettle)).runs_main TxCall.body
  rw [show ∀ a b c d : TxEvent, [a,b,c,d] = [a,b,c] ++ [d] from fun _ _ _ _ => rfl,
    ← List.append_assoc] at hruns
  refine ⟨_,_,_,_,hruns,rfl,?_⟩
  rintro ⟨pre,post,baseline,after,heq,-⟩
  have hmem : (⟨.readVerification baseline,.ok after⟩ : TxEvent) ∈
      d.events job beginReason ++ [⟨.execute job.action,()⟩,
        ⟨.executeReturns job.action,.ok output⟩,
        ⟨.append job.target (d.sent job output).record,.ok ()⟩] := by
    rw [heq]
    simp
  simp [Prelude.events] at hmem

/-- A non-input run appends `Succeeded` only after a verifying read exactly when one of its
expected outcomes is of the seven kinds that `needs_progress_verification` lists, or when
it cannot come to an end at all. An action that expects only `CLAUDE_PROGRESS` beside
receipts is recorded as succeeded unverified. -/
theorem unverified_success_iff (job : Job) (hkind : requiresComposer job.action.kind = false) :
    (∀ (h : List TxEvent) (target : String) (record : ActionRecord)
        (answer : Except String Unit) (p : txMachine.State),
      txMachine.Runs (.run job) (h ++ [⟨.append target record,answer⟩]) p →
      record.phase = .succeeded → VerifiedRead job h) ↔
    (∃ outcome ∈ job.action.expectedOutcomes, outcome.kind ∈ ["AGENT_WORKING","AGENT_IDLE",
      "BLOCK_CLEARED","GOAL_ACTIVE_OR_PURSUING","AGENT_STATE_IS","MENU_DISMISSED",
      "PROCESS_TERMINATED"]) ∨ ¬ Executable job := by
  have hneeds_iff : needsProgressVerification job.action.kind job.action.expectedOutcomes = true ↔
      ∃ outcome ∈ job.action.expectedOutcomes, outcome.kind ∈ progressOutcomes := by
    simp [needsProgressVerification,hkind]
  constructor
  · intro hverified
    by_cases hneeds : needsProgressVerification job.action.kind
        job.action.expectedOutcomes = true
    · exact .inl (hneeds_iff.1 hneeds)
    · right
      intro hexec
      obtain ⟨h,target,record,p,hrun,hphase,hnot⟩ :=
        closes_unverified hexec (Bool.not_eq_true _ ▸ hneeds)
      exact hnot (hverified h target record _ p hrun hphase)
  · intro hcond h target record answer p hrun hphase
    obtain ⟨R,hsim⟩ := txMachine_simulates
    obtain ⟨s,hrun,-⟩ := hsim.runs hrun
    rcases success_cases hphase hrun with ⟨c,hclosing⟩ | ⟨p,after,hproven⟩
    · obtain ⟨hexec,hneeds⟩ := runs_closing hclosing
      rcases hcond with hlisted | hnot
      · rw [hneeds_iff.2 hlisted] at hneeds
        cases hneeds
      · exact absurd hexec hnot
    · obtain ⟨pre,rfl,hopen,hexec,-,-,-,hver⟩ := proven_read (runs_course hproven)
      exact ⟨pre,[],_,after,rfl,hopen,hexec,hver⟩

omit [Chrono] [Render] in
theorem unverified_success_iff_cleared :
    let _ := Sample.chrono
    let _ := Sample.render
    ∀ (h : List TxEvent) (target : String) (record : ActionRecord)
        (answer : Except String Unit) (p : txMachine.State),
      txMachine.Runs (.run (Sample.job .noop ["BLOCK_CLEARED"]))
        (h ++ [⟨.append target record,answer⟩]) p →
      record.phase = .succeeded → VerifiedRead (Sample.job .noop ["BLOCK_CLEARED"]) h := by
  intro _ _
  refine (unverified_success_iff (Sample.job .noop ["BLOCK_CLEARED"]) rfl).2 (.inl ?_)
  exact ⟨_,List.mem_singleton.2 rfl,by decide⟩

omit [Chrono] [Render] in
/-- A `NOOP` that expects `CLAUDE_PROGRESS` succeeds with no read after the executor. -/
theorem noop_succeeds_unverified :
    let _ := Sample.chrono
    let _ := Sample.render
    let job := Sample.job .noop ["CLAUDE_PROGRESS"]
    requiresComposer job.action.kind = false ∧
    (∃ outcome ∈ job.action.expectedOutcomes,
      outcome.kind ∉ ["WAIT_STATE_RECORDED","HUMAN_NOTIFIED","NO_STATE_CHANGE_EXPECTED"]) ∧
    ∃ (h : List TxEvent) (target : String) (record : ActionRecord) (p : txMachine.State),
      txMachine.Runs (.run job) (h ++ [⟨.append target record,.ok ()⟩]) p ∧
      record.phase = .succeeded ∧ ¬ VerifiedRead job h := by
  intro _ _ job
  refine ⟨rfl,⟨_,List.mem_singleton.2 rfl,by decide⟩,closes_unverified ?_ (by decide)⟩
  exact ⟨Sample.prelude,.committed,Sample.noop_passed,by decide⟩

end WatchMe
