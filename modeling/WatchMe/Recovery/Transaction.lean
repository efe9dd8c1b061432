import WatchMe.Effects.Program
import WatchMe.Policy
import WatchMe.Recovery.ActionStore

/-! # Recovery transactions

`Transaction::run`, `recover_stale` and `recover_after_restart` as programs that ask an evidence
reader, an executor, a clock, a process probe and the action store. A call of the executor is two
requests, its start and its return, so that other threads and crashes can come between them.
-/
namespace WatchMe
open Effects

/-- `LiveEvidence`. Its event came out of `Event::new` or out of decoding, which both
refuse other hashes, and later writes of the field are hexadecimal SHA-256 digests. -/
structure LiveEvidence where
  identity : String
  targetRevalidated : Bool
  processAlive : Bool
  paneMatches : Bool
  evidenceCurrent : Bool
  composerSafe : Bool
  humanIntervened : Bool
  event : Event
  fingerprint_valid : validHash event.evidenceFingerprint = true

structure RecoveryContext where
  attemptsRemaining : Nat
  cumulativeWaitRemainingSeconds : Nat
  plannerCallsRemaining : Nat
  plannerConcurrencyAvailable : Bool
  cooldownReady : Bool
  sessionId : Option String
  failedProviderFamily : Option String
  plannerProviderFamily : Option String

inductive TransactionError where
  | duplicate
  | activeOwner
  | revalidation (reason : String)
  | policy (reason : String)
  | execution (reason : String)
  | verificationFailed
  | uncertain (reason : String)
  | store (reason : String)
  deriving DecidableEq, Repr

def TransactionError.text : TransactionError → String
  | duplicate => "duplicate or in-flight action"
  | activeOwner => "active transaction owner is still alive"
  | revalidation reason => "live state changed: " ++ reason
  | policy reason => "policy denied action: " ++ reason
  | execution reason => "action execution failed: " ++ reason
  | verificationFailed => "postcondition verification failed"
  | uncertain reason => "action outcome is uncertain: " ++ reason
  | store reason => "durable store failed: " ++ reason

/-- Texts that other libraries render: the JSON snapshot stored with a record, and the
`Debug` form of an executor's output. -/
class Render where
  snapshot : EventSource → Rat → List Condition → Except String String
  debugOutput : ExecutionOutput → String

inductive TxOp where
  | read
  | readVerification (baseline : LiveEvidence)
  | wallTime
  | monotonicMs
  | sleepMs (duration : Nat)
  | claimPrepared (target : String) (record : ActionRecord)
  | append (target : String) (record : ActionRecord)
  | escalateUncertain (target : String) (record : ActionRecord) (reason : String)
  | active (target : String)
  | execute (action : Action)
  | executeReturns (action : Action)
  | ownerMatches (owner : OwnerIdentity)

@[reducible] def TxOp.Answer : TxOp → Type
  | read | readVerification _ => Except String LiveEvidence
  | wallTime => String
  | monotonicMs => Nat
  | sleepMs _ | execute _ => Unit
  | claimPrepared _ _ => Except String Bool
  | append _ _ => Except String Unit
  | escalateUncertain _ _ _ => Except String ActionRecord
  | active _ => Except String (Option ActionRecord)
  | executeReturns _ => Except ExecutionError ExecutionOutput
  | ownerMatches _ => Bool

abbrev txSig : Signature := ⟨TxOp,TxOp.Answer⟩
abbrev TxEvent := txSig.Event
abbrev Tx := ExceptT TransactionError (Program txSig)

def u64Max : Nat := 2 ^ 64 - 1
def saturatingAdd (a b : Nat) : Nat := min (a + b) u64Max
def saturatingMul (a b : Nat) : Nat := min (a * b) u64Max

def leaseMs : Nat := 30000
def pollMs : Nat := 100

namespace Transaction

def ask (op : TxOp) : Tx op.Answer := ExceptT.lift (Program.request (S := txSig) op)

def orThrow {ε α : Type} (wrap : ε → TransactionError) : Except ε α → Tx α
  | .ok a => pure a
  | .error e => throw (wrap e)

def requiresComposer : ActionKind → Bool
  | .sendText _ | .submitText _ | .sendKeys _ => true
  | _ => false

def progressOutcomes : List String :=
  ["AGENT_WORKING","AGENT_IDLE","BLOCK_CLEARED","GOAL_ACTIVE_OR_PURSUING","AGENT_STATE_IS",
    "MENU_DISMISSED","PROCESS_TERMINATED"]

def needsProgressVerification (kind : ActionKind) (outcomes : List Condition) : Bool :=
  requiresComposer kind || outcomes.any (fun outcome => progressOutcomes.contains outcome.kind)

def actionFingerprint (action : Action) : String :=
  ((action.preconditions.find? (fun c => c.kind == "EVIDENCE_FINGERPRINT_MATCHES")).bind
    Condition.text).getD ""

def policyContext (live : LiveEvidence) (recovery : RecoveryContext) (wall : String) :
    PolicyContext :=
  { PolicyContext.safe with
    targetRevalidated := live.targetRevalidated
    processAlive := live.processAlive
    paneMatches := live.paneMatches
    evidenceCurrent := live.evidenceCurrent
    composerEmpty := live.composerSafe
    humanIntervened := live.humanIntervened
    sourceRank := live.event.source.kind.rank
    attemptsRemaining := recovery.attemptsRemaining
    cumulativeWaitRemainingSeconds := recovery.cumulativeWaitRemainingSeconds
    plannerCallsRemaining := recovery.plannerCallsRemaining
    plannerConcurrencyAvailable := recovery.plannerConcurrencyAvailable
    cooldownReady := recovery.cooldownReady
    sessionId := recovery.sessionId
    failedProviderFamily := recovery.failedProviderFamily
    plannerProviderFamily := recovery.plannerProviderFamily
    evidenceFingerprint := some live.event.evidenceFingerprint
    eventCategory := some live.event.category.debugUpper
    agentState := live.event.metadataStr "agent_state"
    goalState := live.event.metadataStr "goal_state"
    wallTimeRfc3339 := some wall
    claudeResumeSession := live.event.metadataStr "claude_resume_session" }

def receiptHolds (output : ExecutionOutput) (outcome : Condition) : Bool :=
  match outcome.kind, output with
  | "WAIT_STATE_RECORDED", .scheduled _ => true
  | "WAIT_STATE_RECORDED", _ => false
  | "HUMAN_NOTIFIED", .notified => true
  | "HUMAN_NOTIFIED", _ => false
  -- every output there is counts as a receipt for the third kind
  | "NO_STATE_CHANGE_EXPECTED", _ => true
  | _, _ => true

def receiptOutcomesHold (output : ExecutionOutput) (outcomes : List Condition) : Bool :=
  outcomes.all (receiptHolds output)

def claudeMenuBecameStructuredWait (before after : LiveEvidence) : Bool :=
  before.event.source.kind == .screenDetection
    && before.event.source.sourceId == "claude"
    && before.event.source.ruleOrField == "labelled_wait_menu"
    && after.event.source.kind == .hook
    && after.event.source.sourceId == "claude_stop_failure"
    && [EventCategory.usageLimit,.sessionLimit,.weeklyLimit].contains after.event.category
    && after.event.policyHint == .waitAllowed
    && after.event.metadata.contains "claude_reset_at"

def verifiedClaudeProgress (before after : LiveEvidence) (outcome : Condition) : Bool :=
  match outcome.text with
  | none => false
  | some session =>
    after.event.source.sourceId == "claude"
      && after.event.category == .working
      && after.event.metadata["claude_post_resume_progress"]?.any Json.isTrue
      && before.event.metadataStr "claude_resume_session" == some session
      && after.event.metadataStr "claude_resume_session" == some session
      && decide (before.event.observedAt < after.event.observedAt)

/-- One arm of the final match of `verified`: the outcome shows in the later event. -/
def outcomeShown (before after : LiveEvidence) (outcome : Condition) : Bool :=
  match outcome.kind with
  | "AGENT_WORKING" => after.event.category == .working
  | "GOAL_ACTIVE_OR_PURSUING" =>
    after.event.category == .working
      || (after.event.metadataStr "goal_state").any (fun state =>
        [['a','c','t','i','v','e'],['p','u','r','s','u','i','n','g']].contains
          (state.toList.map Char.toLower))
      || after.event.metadata["codex_post_resume_progress"]?.any Json.isTrue
  | "AGENT_STATE_IS" => outcome.text == some "WORKING" && after.event.category == .working
  | "AGENT_IDLE" => after.event.category == .idle
  | "BLOCK_CLEARED" => !after.event.category.isActionable
  | "MENU_DISMISSED" =>
    !after.event.category.isActionable || claudeMenuBecameStructuredWait before after
  | "PROCESS_TERMINATED" => after.event.category == .terminated
  | _ => false

def expectsClaudeProgress (outcomes : List Condition) : Bool :=
  outcomes.any (fun outcome => outcome.kind == "CLAUDE_PROGRESS")

def verified (before after : LiveEvidence) (outcomes : List Condition) : Bool :=
  if after.event.evidenceFingerprint == before.event.evidenceFingerprint then false
  else if expectsClaudeProgress outcomes then
    outcomes.any (fun outcome =>
      outcome.kind == "CLAUDE_PROGRESS" && verifiedClaudeProgress before after outcome)
  else if after.event.source.kind.rank < before.event.source.kind.rank
      || after.event.confidence < before.event.confidence then false
  else outcomes.any (outcomeShown before after)

/-- The first check that `revalidate` fails, in the source's order. -/
def revalidationRefusal (action : Action) (baseline : Option LiveEvidence)
    (live : LiveEvidence) : Option String :=
  if !live.targetRevalidated then some "target was not revalidated"
  else if !live.processAlive then some "target process is not alive"
  else if !live.paneMatches then some "target pane does not match"
  else if !live.evidenceCurrent then some "live evidence is not current"
  else if live.humanIntervened then some "human intervention"
  else if requiresComposer action.kind && !live.composerSafe then some "composer unsafe"
  else if live.event.evidenceFingerprint != actionFingerprint action then
    some "evidence fingerprint changed"
  else if action.preconditions.any (fun condition =>
      condition.kind == "CLAUDE_RESUME_SESSION"
        && condition.text != live.event.metadataStr "claude_resume_session") then
    some "Claude resume session changed"
  else if baseline.any (fun old => old.identity != live.identity
      || old.event.source != live.event.source
      || old.event.confidence != live.event.confidence) then
    some "identity or evidence source changed"
  else none

def revalidate (action : Action) (baseline : Option LiveEvidence) : Tx LiveEvidence := do
  let live ← orThrow .store (← ask .read)
  match revalidationRefusal action baseline live with
  | some reason => throw (.revalidation reason)
  | none => return live

def persist (target : String) (record : ActionRecord) (phase : ActionPhase)
    (reason : String) : Tx ActionRecord := do
  let next := record.next phase reason
  orThrow .store (← ask (.append target next))
  return next

def terminate {α : Type} (target : String) (record : ActionRecord) (phase : ActionPhase)
    (error : TransactionError) : Tx α := do
  orThrow .store (← ask (.append target (record.next phase error.text)))
  throw error

def uncertain {α : Type} (target : String) (record : ActionRecord) (reason : String) :
    Tx α := do
  let _ ← orThrow .store (← ask (.escalateUncertain target record reason))
  throw (.uncertain reason)

/-- After a possible side effect a failed `persist` is escalated, under the old record. -/
def persistOrEscalate (target : String) (record : ActionRecord) (phase : ActionPhase)
    (reason note : String) : Tx ActionRecord := do
  match ← ExceptT.lift (persist target record phase reason).run with
  | .ok next => return next
  | .error error => uncertain target record (note ++ error.text)

def outputSummary [Render] : ExecutionOutput → String
  | .captured text => "captured " ++ toString text.utf8ByteSize ++ " bytes"
  | other => Render.debugOutput other

def idempotencyKey (target actionId fingerprint : String) : String :=
  target ++ ":" ++ actionId ++ ":" ++ fingerprint

structure Job where
  target : String
  owner : OwnerIdentity
  action : Action
  recovery : RecoveryContext

def Job.key (job : Job) (baseline : LiveEvidence) : String :=
  idempotencyKey job.target job.action.actionId baseline.event.evidenceFingerprint

/-- `ActionRecord::prepared`, with the arguments `run` gives it. -/
def Job.prepared (job : Job) (baseline : LiveEvidence) (now : Nat) (snapshot : String) :
    ActionRecord where
  actionId := job.action.actionId
  idempotencyKey := job.key baseline
  target := job.target
  identity := baseline.identity
  fingerprint := baseline.event.evidenceFingerprint
  owner := job.owner
  preparedAtMs := now
  leaseDeadlineMs := saturatingAdd now leaseMs
  phase := .prepared
  reason := "policy, evidence, identity and preconditions confirmed"
  snapshot := snapshot
  output := none

/-- A claimed job with the first evidence read and the record persisted last. -/
structure Claim where
  job : Job
  baseline : LiveEvidence
  record : ActionRecord

structure Poll where
  claim : Claim
  deadline : Nat

section
variable [Chrono] [Render]

/-- `run` up to the claim: everything that happens before a record exists. -/
def prepare (job : Job) : Tx (Claim × LiveEvidence) := do
  orThrow (fun error => .execution error.text) (validateAction job.action)
  let baseline ← revalidate job.action none
  let wall ← ask .wallTime
  orThrow .policy (authorize job.action (policyContext baseline job.recovery wall))
  let confirmed ← revalidate job.action (some baseline)
  let now ← ask .monotonicMs
  let snapshot ← orThrow .store
    (Render.snapshot baseline.event.source baseline.event.confidence job.action.preconditions)
  let record := job.prepared baseline now snapshot
  let granted ← orThrow .store (← ask (.claimPrepared job.target record))
  if granted then return (⟨job,baseline,record⟩,confirmed) else throw .duplicate

/-- The commit boundary: a last revalidation, the durable `Begun`, the executor. -/
def commit (c : Claim) (confirmed : LiveEvidence) : Tx (Claim × ExecutionOutput) := do
  match ← ExceptT.lift (revalidate c.job.action (some confirmed)).run with
  | .error error => terminate c.job.target c.record .failed error
  | .ok _ =>
    let record ← persist c.job.target c.record .begun "commit boundary entered"
    ask (.execute c.job.action)
    match ← ask (.executeReturns c.job.action) with
    | .ok output => return ({ c with record },output)
    | .error (.possibleSideEffect reason) => uncertain c.job.target record reason
    | .error error => terminate c.job.target record .failed (.execution error.text)

/-- Everything after the executor returned, up to the verification loop. -/
def settle (c : Claim) (output : ExecutionOutput) : Tx (Poll ⊕ ActionRecord) := do
  let target := c.job.target
  let record := { c.record with output := some (outputSummary output) }
  let record ← persistOrEscalate target record .sent "executor completed action unit"
    "could not durably record a possible side effect: "
  if !receiptOutcomesHold output c.job.action.expectedOutcomes then
    uncertain target record "executor did not return the canonical outcome receipt"
  else if !needsProgressVerification c.job.action.kind c.job.action.expectedOutcomes then
    return .inr (← persist target record .succeeded "non-input action completed durably")
  else
    let record ← persistOrEscalate target record .verifying "polling canonical expected outcomes"
      "could not durably begin verification after possible side effect: "
    let now ← ask .monotonicMs
    let deadline := saturatingAdd now (saturatingMul c.job.action.timeoutSeconds 1000)
    return .inl ⟨{ c with record },deadline⟩

def poll (p : Poll) : Tx (Poll ⊕ ActionRecord) := do
  let target := p.claim.job.target
  let record := p.claim.record
  match ← ask (.readVerification p.claim.baseline) with
  | .error error => uncertain target record ("verification evidence unavailable: " ++ error)
  | .ok after =>
    if after.humanIntervened || after.identity != p.claim.baseline.identity then
      uncertain target record "human intervention or identity contradiction during verification"
    else if verified p.claim.baseline after p.claim.job.action.expectedOutcomes then
      return .inr (← persist target record .succeeded "canonical expected outcome verified")
    else
      let now ← ask .monotonicMs
      if p.deadline ≤ now then
        uncertain target record "verification timed out after possible side effect"
      else
        ask (.sleepMs pollMs)
        return .inl p

def run (job : Job) : Tx (Poll ⊕ ActionRecord) := do
  let (claim,confirmed) ← prepare job
  let (claim,output) ← commit claim confirmed
  settle claim output

end

def restartReason : ActionPhase → ActionPhase × String
  | .prepared => (.failed,"restart cancelled prepared action before side effect")
  | _ => (.humanRequired,"restart found action after commit boundary; blind retry forbidden")

def staleReason : ActionPhase → ActionPhase × String
  | .prepared => (.failed,"expired lease owned by a different pid/start identity")
  | _ => (.humanRequired,"expired lease owned by a different pid/start identity")

def recoverAfterRestart (target : String) : Tx (Option ActionRecord) := do
  match ← orThrow .store (← ask (.active target)) with
  | none => return none
  | some record =>
    let (phase,reason) := restartReason record.phase
    let terminal := record.next phase reason
    orThrow .store (← ask (.append target terminal))
    return some terminal

def recoverStale (target : String) : Tx (Option ActionRecord) := do
  match ← orThrow .store (← ask (.active target)) with
  | none => return none
  | some record =>
    let now ← ask .monotonicMs
    if now ≤ record.leaseDeadlineMs then throw .activeOwner
    else if ← ask (.ownerMatches record.owner) then throw .activeOwner
    else
      let (phase,reason) := staleReason record.phase
      let terminal := record.next phase reason
      orThrow .store (← ask (.append target terminal))
      return some terminal

end Transaction

open Transaction

inductive TxCall where
  | run (job : Job)
  | recoverStale (target : String)
  | recoverAfterRestart (target : String)

/-- What a call returns; `run` returns a record when it returns `Ok`. -/
abbrev TxResult := Except TransactionError (Option ActionRecord)

namespace TxCall

def returned : Except TransactionError (Poll ⊕ ActionRecord) → Poll ⊕ TxResult
  | .ok (.inl p) => .inl p
  | .ok (.inr record) => .inr (.ok (some record))
  | .error error => .inr (.error error)

variable [Chrono] [Render]

def body (p : Poll) : Program txSig (Poll ⊕ TxResult) := do
  return returned (← (poll p).run)

def main : TxCall → Program txSig (Poll ⊕ TxResult)
  | .run job => do return returned (← (Transaction.run job).run)
  | .recoverStale target => do return .inr (← (Transaction.recoverStale target).run)
  | .recoverAfterRestart target => do
    return .inr (← (Transaction.recoverAfterRestart target).run)

end TxCall

def txMachine [Chrono] [Render] : Machine txSig TxCall TxResult :=
  Program.machine TxCall.body TxCall.main

end WatchMe
