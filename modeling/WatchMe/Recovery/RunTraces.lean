import WatchMe.Effects.Trace
import WatchMe.Recovery.Prelude

/-! # Answers that lead a run to its end

The converse of the protocol: whenever the checks of a run pass, its program does take
the answers that come with them. These traces show that the results about runs are not
empty, and give the schedules of the counterexamples.
-/
namespace WatchMe
open Effects Program Transaction

theorem answer_nonempty (op : TxOp) : Nonempty (txSig.Answer op) := by
  cases op with
  | read | readVerification | claimPrepared | append | escalateUncertain | active => exact ⟨.error ""⟩
  | executeReturns => exact ⟨.ok .committed⟩
  | wallTime => exact ⟨""⟩
  | monotonicMs => exact ⟨0⟩
  | sleepMs | execute => exact ⟨()⟩
  | ownerMatches => exact ⟨true⟩

section Helpers
variable {α β : Type}

theorem traces_askThen {op : TxOp} {f : op.Answer → Tx β} {r : op.Answer} {k : List TxEvent}
    {b : Except TransactionError β} (h : Traces (f r).run k b) :
    Traces (ask op >>= f).run (⟨op,r⟩ :: k) b :=
  (Traces.request (S := txSig) r).run_lift.run_bind h

theorem traces_orThrow {ε : Type} {wrap : ε → TransactionError} {x : Except ε α} {a : α}
    (h : x = .ok a) : Traces (orThrow wrap x).run [] (.ok a) := by
  subst h
  exact .done _

theorem traces_revalidate {action : Action} {baseline : Option LiveEvidence}
    {live : LiveEvidence} (h : revalidationRefusal action baseline live = none) :
    Traces (revalidate action baseline).run [⟨.read,.ok live⟩] (.ok live) := by
  refine traces_askThen ?_
  refine (traces_orThrow rfl).run_bind (k := []) ?_
  simp only [h]
  exact .done _

theorem traces_persist {target reason : String} {record : ActionRecord} {phase : ActionPhase} :
    Traces (persist target record phase reason).run
      [⟨.append target (record.next phase reason),.ok ()⟩]
      (.ok (record.next phase reason)) := by
  refine traces_askThen ?_
  exact (traces_orThrow rfl).run_bind (k := []) (.done _)

end Helpers

section Run
variable [Chrono] [Render]
variable {d : Prelude} {output : ExecutionOutput}

def beginReason : String := "commit boundary entered"
def sentReason : String := "executor completed action unit"

theorem traces_prepare {job : Job} (hd : d.Passed job) :
    Traces (prepare job).run ((d.events job beginReason).take 5)
      (.ok (⟨job,d.baseline,d.record job⟩,d.again)) := by
  refine (traces_orThrow hd.valid).run_bind ?_
  refine (traces_revalidate hd.baseline).run_bind ?_
  refine traces_askThen ?_
  refine (traces_orThrow hd.authorized).run_bind ?_
  refine (traces_revalidate hd.again).run_bind ?_
  refine traces_askThen ?_
  refine (traces_orThrow hd.rendered).run_bind ?_
  refine traces_askThen ?_
  exact (traces_orThrow rfl).run_bind (k := []) (.done _)

def Prelude.begun (d : Prelude) (job : Job) : Claim :=
  ⟨job,d.baseline,(d.record job).next .begun beginReason⟩

theorem traces_commit {job : Job} (hd : d.Passed job) (output : ExecutionOutput) :
    Traces (commit ⟨job,d.baseline,d.record job⟩ d.again).run
      ((d.events job beginReason).drop 5 ++
        [⟨.execute job.action,()⟩,⟨.executeReturns job.action,.ok output⟩])
      (.ok (d.begun job,output)) := by
  refine (traces_revalidate hd.recheck).run_lift.run_bind ?_
  refine traces_persist.run_bind ?_
  refine traces_askThen ?_
  refine traces_askThen ?_
  exact .done _

def Prelude.sent (d : Prelude) (job : Job) (output : ExecutionOutput) : Claim :=
  ((d.begun job).withOutput output).next .sent sentReason

omit [Chrono] in
theorem traces_settle_closing {job : Job}
    (hreceipt : receiptOutcomesHold output job.action.expectedOutcomes = true)
    (hneeds : needsProgressVerification job.action.kind job.action.expectedOutcomes = false) :
    Traces (settle (d.begun job) output).run
      [⟨.append job.target (d.sent job output).record,.ok ()⟩,
        ⟨.append job.target ((d.sent job output).record.next .succeeded
          "non-input action completed durably"),.ok ()⟩]
      (.ok (.inr ((d.sent job output).record.next .succeeded
        "non-input action completed durably"))) := by
  refine Traces.run_bind (x := persistOrEscalate ..)
    (traces_persist.run_lift.run_bind (k := []) (.done _)) ?_
  simp only [Prelude.begun,hreceipt,hneeds,Bool.not_true,Bool.not_false,Bool.false_eq_true,
    if_false,if_true]
  exact traces_persist.run_bind (k := []) (.done _)

theorem traces_run {job : Job} (hd : d.Passed job) {k : List TxEvent}
    {r : Except TransactionError (Poll ⊕ ActionRecord)}
    (hsettle : Traces (settle (d.begun job) output).run k r) :
    Traces (Transaction.run job).run
      (d.events job beginReason ++
        ⟨.execute job.action,()⟩ :: ⟨.executeReturns job.action,.ok output⟩ :: k) r := by
  have hsplit : d.events job beginReason ++
        ⟨.execute job.action,()⟩ :: ⟨.executeReturns job.action,.ok output⟩ :: k =
      (d.events job beginReason).take 5 ++ ((d.events job beginReason).drop 5 ++
        [⟨.execute job.action,()⟩,⟨.executeReturns job.action,.ok output⟩] ++ k) := rfl
  rw [hsplit]
  refine (traces_prepare hd).run_bind ?_
  exact (traces_commit hd output).run_bind hsettle

theorem traces_main {job : Job} {h : List TxEvent}
    {r : Except TransactionError (Poll ⊕ ActionRecord)}
    (hrun : Traces (Transaction.run job).run h r) :
    Traces (TxCall.main (.run job)) h (TxCall.returned r) :=
  hrun.bind_pure TxCall.returned

theorem runs_execute {job : Job} (hd : d.Passed job) :
    ∃ p : txMachine.State, txMachine.Runs (.run job)
      (d.events job beginReason ++ [⟨.execute job.action,()⟩]) p := by
  obtain ⟨k,r,hsettle⟩ := Traces.exists answer_nonempty (settle (d.begun job) .committed).run
  have hruns := (traces_main (traces_run hd hsettle)).runs_main TxCall.body
  rw [← List.singleton_append,← List.append_assoc] at hruns
  exact hruns.of_append

end Run

/-! ### A concrete transaction

The inputs of the schedules below: a Codex pane whose goal is resumed. -/
namespace Sample

/-- No stamp is parsed in these transactions. -/
@[reducible] def chrono : Chrono := ⟨fun _ => none⟩

@[reducible] def render : Render := ⟨fun _ _ _ => .ok "authorized",fun _ => "output"⟩

def fingerprint : String := "00112233445566778899aabbccddeeff"
def laterFingerprint : String := "ffeeddccbbaa99887766554433221100"

def event (fingerprint : String) (category : EventCategory) : Event where
  schemaVersion := "1.0"
  eventId := "event-1"
  observedAt := "2026-01-01T00:00:00Z"
  monotonicSequence := none
  watcherId := "watcher-1"
  targetIdentityHash := "0123456789abcdef"
  agentId := none
  sessionId := none
  providerFamily := none
  source := .new .structuredLog "codex" "goal_state"
  category := category
  confidence := 1
  terminal := false
  evidenceFingerprint := fingerprint
  summary := "goal state"
  redactedEvidence := none
  reset := none
  policyHint := .deterministicActionAllowed
  supersedesEventId := none
  metadata := ∅

def live (fp : String) (category : EventCategory) (hfp : validHash fp = true) :
    LiveEvidence where
  identity := "pane-1"
  targetRevalidated := true
  processAlive := true
  paneMatches := true
  evidenceCurrent := true
  composerSafe := true
  humanIntervened := false
  event := event fp category
  fingerprint_valid := hfp

def paused : LiveEvidence := live fingerprint .pausedGoal (by decide)
def working : LiveEvidence := live laterFingerprint .working (by decide)

def action (kind : ActionKind) (outcomes : List String) : Action where
  kind := kind
  actionId := "resume"
  reason := "goal is paused"
  preconditions := [⟨"EVIDENCE_FINGERPRINT_MATCHES",some (.string fingerprint)⟩]
  expectedOutcomes := outcomes.map fun kind => ⟨kind,none⟩
  timeoutSeconds := 30

def recovery : RecoveryContext := ⟨1,60,0,false,true,none,none,none⟩

def job (kind : ActionKind) (outcomes : List String) : Job :=
  ⟨"pane-1",⟨7,1,"nonce"⟩,action kind outcomes,recovery⟩

def prelude : Prelude := ⟨paused,"2026-01-01T00:00:00Z",paused,1000,"authorized",paused⟩

def resume : Job := job (.submitText "/goal resume") ["AGENT_WORKING"]

theorem resume_passed : @Prelude.Passed chrono render prelude resume := by
  let _ := chrono
  let _ := render
  constructor
  · rfl
  · decide
  · rfl
  · decide
  · rfl
  · decide

theorem noop_passed :
    @Prelude.Passed chrono render prelude (job .noop ["CLAUDE_PROGRESS"]) := by
  let _ := chrono
  let _ := render
  constructor
  · rfl
  · decide
  · rfl
  · decide
  · rfl
  · decide

end Sample

end WatchMe
