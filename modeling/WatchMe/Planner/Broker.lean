import WatchMe.Effects.Play
import WatchMe.Planner.Schema

/-! # The planner broker and its budgets

A call takes a budget, starts the processes of one or two planners, gives its place back and only
then counts against the limits of its event and of its session and day. Each of the three is a
critical section of its own. The limits therefore hold in the runs in which a budget is granted
only while the calls that were granted before leave room, and a call starts one process.
-/
namespace WatchMe
open Effects Program Pool

inductive WatchmeError where
  | configuration (message : String)
  | retryableIntegration (message : String)
  | policyDenied (message : String)
  | humanRequired (message : String)
  deriving DecidableEq, Repr

inductive PlannerErrorKind where
  | failed
  | timeout
  | outputLimit
  deriving DecidableEq, Repr

structure PlannerProcessError where
  kind : PlannerErrorKind
  message : String
  deriving DecidableEq, Repr

structure PlannerRequest where
  sessionId : String
  eventId : String
  failedProviderFamily : String
  snapshotJson : Json
  dayKey : String
  resolved : List ResolvedPlanner

structure PlannerResult where
  plannerId : String
  providerFamily : String
  actions : List Action
  usedSecondOpinion : Bool

/-- What other modules make of texts: the strict decoder of plans, and the redaction of a
snapshot. -/
class PlanText where
  decodeRecoveryPlan : String → Except String RecoveryPlan
  redactJson : Json → List String → Json

structure PlannerBroker where
  planning : PlanningConfig
  extraSecretNames : List String

/-- A key that was never counted has the count zero. -/
structure BudgetState where
  active : Nat
  perEvent : String → Nat
  perSessionDay : String × String → Nat

def BudgetState.empty : BudgetState := ⟨0,fun _ => 0,fun _ => 0⟩

def PlannerRequest.sessionKey (request : PlannerRequest) : String × String :=
  (request.sessionId,request.dayKey)

namespace BudgetState

def acquireBudget (planning : PlanningConfig) (request : PlannerRequest) (budgets : BudgetState) :
    Except WatchmeError Unit × BudgetState :=
  if planning.maxConcurrentCalls ≤ budgets.active then
    (.error (.policyDenied "planner concurrency budget denied"),budgets)
  else if planning.maxCallsPerEvent ≤ budgets.perEvent request.eventId then
    (.error (.policyDenied "planner per-event budget denied"),budgets)
  else if planning.maxCallsPerSessionPerDay ≤ budgets.perSessionDay request.sessionKey then
    (.error (.policyDenied "planner per-session daily budget denied"),budgets)
  else (.ok (),{ budgets with active := budgets.active + 1 })

def releaseConcurrency (budgets : BudgetState) : BudgetState :=
  { budgets with active := budgets.active - 1 }

def commitBudget (request : PlannerRequest) (budgets : BudgetState) : BudgetState :=
  { budgets with
    perEvent := fun event =>
      budgets.perEvent event + if request.eventId = event then 1 else 0
    perSessionDay := fun key =>
      budgets.perSessionDay key + if request.sessionKey = key then 1 else 0 }

end BudgetState

inductive BrokerOp where
  | acquireBudget (request : PlannerRequest)
  | tempdir
  | spawn (planner : ResolvedPlanner)
  /-- The text it has printed, once it has ended. -/
  | output
  | systemNow
  | releaseConcurrency
  | commitBudget (request : PlannerRequest)

@[reducible] def BrokerOp.Answer : BrokerOp → Type
  | acquireBudget _ => Except WatchmeError Unit
  | tempdir | spawn _ => Except String Unit
  | output => Except PlannerProcessError String
  | systemNow => String
  | releaseConcurrency | commitBudget _ => Unit

abbrev brokerSig : Signature := ⟨BrokerOp,BrokerOp.Answer⟩

abbrev BrokerEvent := brokerSig.Event

abbrev Planning (α : Type) := ExceptT WatchmeError (Program brokerSig) α

namespace PlannerBroker

def call (op : BrokerOp) : Program brokerSig op.Answer := Program.request (S := brokerSig) op

def settled {α : Type} (result : Except WatchmeError α) : Planning α := ExceptT.mk (pure result)

def requiredStr (object : Json) (key : String) : Except WatchmeError String :=
  match (object.get key).bind Json.asStr with
  | none => .error (.configuration ("snapshot missing " ++ key))
  | some text => .ok text

def required {α : Type} (value : Option α) (name : String) : Except WatchmeError α :=
  match value with
  | none => .error (.configuration ("snapshot missing " ++ name))
  | some a => .ok a

def validationContextFromSnapshot (snapshot : Json) (failedFamily plannerFamily : String) :
    Planning PlanValidationContext := do
  let watcher ← settled (required (snapshot.get "watcher") "watcher")
  let target ← settled (required (snapshot.get "target") "target")
  let evidenceFingerprint ← settled (requiredStr watcher "evidence_fingerprint")
  let watcherId ← settled (requiredStr watcher "watcher_id")
  let processPid ← settled (required ((target.get "process_pid").bind Json.asU64) "process_pid")
  let processStartTime ← settled (requiredStr target "process_start_time")
  let muxKind ← settled (requiredStr target "mux_kind")
  let paneId ← settled (requiredStr target "pane_id")
  let allowedActions ←
    settled (required ((snapshot.get "allowed_actions").bind Json.asArray) "allowed_actions")
  let nowRfc3339 ← ExceptT.lift (call .systemNow)
  return {
    failedProviderFamily := failedFamily, plannerProviderFamily := plannerFamily,
    evidenceFingerprint, watcherId, processPid := processPid % 2 ^ 32, processStartTime, muxKind,
    paneId, nowRfc3339, allowedActions := allowedActions.filterMap Json.asStr }

/-- `run_planner_process` with the errors of its caller. -/
def runPlannerProcess (planner : ResolvedPlanner) : Planning String :=
  ExceptT.mk (call (.spawn planner) >>= fun started => match started with
    | .error message => pure (.error (.retryableIntegration message))
    | .ok () => call .output >>= fun result => pure (result.mapError fun error =>
      match error.kind with
      | .outputLimit => .policyDenied error.message
      | .timeout | .failed => .retryableIntegration error.message))

variable [Chrono] [PlanText]

def invokeOne (planner : ResolvedPlanner) (snapshot : Json) (failedFamily : String) :
    Planning (List Action) := do
  let cwd ← ExceptT.lift (call .tempdir)
  settled (cwd.mapError .retryableIntegration)
  let text ← runPlannerProcess planner
  let plan ← settled ((PlanText.decodeRecoveryPlan (trim text)).mapError fun error =>
    .policyDenied ("planner schema rejected: " ++ error))
  let context ← validationContextFromSnapshot snapshot failedFamily planner.providerFamily
  settled (refuseIf (plan.diagnosis.plannerProviderFamily != planner.providerFamily)
    (.policyDenied "planner family mismatch in plan"))
  settled ((validateRecoveryPlan plan context).mapError .policyDenied)

/-- The loop over the planners that may be tried, with the last error. -/
def invokeEach (snapshot : Json) (failedFamily : String) :
    Nat → WatchmeError → List ResolvedPlanner →
      Program brokerSig (Except WatchmeError PlannerResult)
  | _, lastError, [] => pure (.error lastError)
  | index, _, planner :: planners =>
    (invokeOne planner snapshot failedFamily).run >>= fun invoked => match invoked with
      | .ok actions =>
        pure (.ok ⟨planner.id,planner.providerFamily,actions,decide (0 < index)⟩)
      | .error error => invokeEach snapshot failedFamily (index + 1) error planners

def maxAttempts (broker : PlannerBroker) (request : PlannerRequest) : Nat :=
  min (if broker.planning.allowIndependentSecondOpinion then 2 else 1) request.resolved.length

def invokeWithOptionalFallback (broker : PlannerBroker) (request : PlannerRequest) :
    Program brokerSig (Except WatchmeError PlannerResult) :=
  invokeEach (PlanText.redactJson request.snapshotJson broker.extraSecretNames)
    request.failedProviderFamily 0 (.humanRequired "no planner succeeded")
    (request.resolved.take (broker.maxAttempts request))

def turnedAway (broker : PlannerBroker) (request : PlannerRequest) : Option WatchmeError :=
  if !broker.planning.enabled then some (.humanRequired "planning disabled; human required")
  else if request.resolved.isEmpty then some (.humanRequired "no independent planner available")
  else none

def requestPlan (broker : PlannerBroker) (request : PlannerRequest) :
    Program brokerSig (Except WatchmeError PlannerResult) :=
  match broker.turnedAway request with
  | some error => pure (.error error)
  | none => call (.acquireBudget request) >>= fun acquired => match acquired with
    | .error error => pure (.error error)
    | .ok () => do
      let result ← broker.invokeWithOptionalFallback request
      call .releaseConcurrency
      call (.commitBudget request)
      return result

def main (broker : PlannerBroker) (request : PlannerRequest) :
    Program brokerSig (Empty ⊕ Except WatchmeError PlannerResult) :=
  broker.requestPlan request >>= fun result => pure (.inr result)

def machine (broker : PlannerBroker) :
    Machine brokerSig PlannerRequest (Except WatchmeError PlannerResult) :=
  Program.machine nofun broker.main

end PlannerBroker

/-- The broker lives as long as its process: there is no restart with budgets of before. -/
def brokerWorld (planning : PlanningConfig) : World brokerSig BudgetState where
  Answers budgets e budgets' := match e with
    | ⟨.acquireBudget request,answer⟩ => budgets.acquireBudget planning request = (answer,budgets')
    | ⟨.releaseConcurrency,_⟩ => budgets' = budgets.releaseConcurrency
    | ⟨.commitBudget request,_⟩ => budgets' = budgets.commitBudget request
    | _ => budgets' = budgets
  Restarts _ _ := False

def BrokerOp.Works : BrokerOp → Prop
  | tempdir | spawn _ | output | systemNow => True
  | acquireBudget _ | releaseConcurrency | commitBudget _ => False

inductive CallStage where
  | requested (request : PlannerRequest)
  | granted (request : PlannerRequest)
  | released (request : PlannerRequest)
  | returned (result : Except WatchmeError PlannerResult)

inductive CallStage.Step : CallStage → BrokerEvent → CallStage → Prop
  | granted {request : PlannerRequest} :
      Step (.requested request) ⟨.acquireBudget request,.ok ()⟩ (.granted request)
  | refused {request : PlannerRequest} {error : WatchmeError} :
      Step (.requested request) ⟨.acquireBudget request,.error error⟩ (.returned (.error error))
  | works {request : PlannerRequest} {e : BrokerEvent} : BrokerOp.Works e.op →
      Step (.granted request) e (.granted request)
  | released {request : PlannerRequest} {u : Unit} :
      Step (.granted request) ⟨.releaseConcurrency,u⟩ (.released request)
  | committed {request : PlannerRequest} {u : Unit}
      {result : Except WatchmeError PlannerResult} :
      Step (.released request) ⟨.commitBudget request,u⟩ (.returned result)

def CallStage.result : CallStage → Option (Except WatchmeError PlannerResult)
  | returned result => some result
  | requested _ | granted _ | released _ => none

def callMachine (broker : PlannerBroker) :
    Machine brokerSig PlannerRequest (Except WatchmeError PlannerResult) where
  State := CallStage
  start request := match broker.turnedAway request with
    | some error => .returned (.error error)
    | none => .requested request
  Step := CallStage.Step
  result := CallStage.result

namespace PlannerBroker

section Works
variable {α : Type}

theorem asks_settled (result : Except WatchmeError α) :
    (settled result).run.Asks (S := brokerSig) BrokerOp.Works :=
  trivial

theorem asks_validationContext (snapshot : Json) (failedFamily plannerFamily : String) :
    (validationContextFromSnapshot snapshot failedFamily plannerFamily).run.Asks
      (S := brokerSig) BrokerOp.Works := by
  refine (asks_settled _).run_bind fun _ => (asks_settled _).run_bind fun _ => ?_
  refine (asks_settled _).run_bind fun _ => (asks_settled _).run_bind fun _ => ?_
  refine (asks_settled _).run_bind fun _ => (asks_settled _).run_bind fun _ => ?_
  refine (asks_settled _).run_bind fun _ => (asks_settled _).run_bind fun _ => ?_
  refine (asks_settled _).run_bind fun _ => ?_
  exact ⟨trivial,fun _ => trivial⟩

theorem asks_runPlannerProcess (planner : ResolvedPlanner) :
    (runPlannerProcess planner).run.Asks (S := brokerSig) BrokerOp.Works := by
  refine ⟨trivial,fun started => ?_⟩
  cases started with
  | error => trivial
  | ok => exact ⟨trivial,fun _ => trivial⟩

variable [Chrono] [PlanText]

theorem asks_invokeOne (planner : ResolvedPlanner) (snapshot : Json) (failedFamily : String) :
    (invokeOne planner snapshot failedFamily).run.Asks (S := brokerSig) BrokerOp.Works := by
  refine Asks.run_bind (Asks.run_lift ⟨trivial,fun _ => trivial⟩) fun _ => ?_
  refine (asks_settled _).run_bind fun _ => ?_
  refine (asks_runPlannerProcess planner).run_bind fun _ => ?_
  refine (asks_settled _).run_bind fun _ => ?_
  refine (asks_validationContext snapshot failedFamily planner.providerFamily).run_bind fun _ => ?_
  exact (asks_settled _).run_bind fun _ => asks_settled _

theorem asks_invokeEach (snapshot : Json) (failedFamily : String) (index : Nat)
    (lastError : WatchmeError) (planners : List ResolvedPlanner) :
    (invokeEach snapshot failedFamily index lastError planners).Asks (S := brokerSig)
      BrokerOp.Works := by
  induction planners generalizing index lastError with
  | nil => trivial
  | cons planner planners ih =>
    refine (asks_invokeOne planner snapshot failedFamily).bind fun invoked => ?_
    cases invoked with
    | error error => exact ih (index + 1) error
    | ok => trivial

theorem main_conforms (broker : PlannerBroker) (request : PlannerRequest) :
    Conforms (callMachine broker) (LoopPost fun _ (_ : Empty) => False) (broker.main request)
      ((callMachine broker).start request) := by
  refine conforms_bind.2 ?_
  change Conforms (callMachine broker) _ (broker.requestPlan request)
    (match broker.turnedAway request with
      | some error => .returned (.error error)
      | none => .requested request : CallStage)
  unfold requestPlan
  cases broker.turnedAway request with
  | some => rfl
  | none =>
    refine ⟨rfl,fun acquired => ?_⟩
    cases acquired with
    | error => exact ⟨_,CallStage.Step.refused,rfl⟩
    | ok =>
      refine ⟨_,CallStage.Step.granted,?_⟩
      change Conforms (callMachine broker) _ (broker.invokeWithOptionalFallback request >>= _) _
      refine conforms_bind.2 ?_
      have hworks := (asks_invokeEach (PlanText.redactJson request.snapshotJson
        broker.extraSecretNames) request.failedProviderFamily 0
        (.humanRequired "no planner succeeded")
        (request.resolved.take (broker.maxAttempts request))).conforms
          (M := callMachine broker) (s := CallStage.granted request) rfl
          fun e he => CallStage.Step.works he
      refine hworks.mono ?_
      rintro _ result rfl
      exact ⟨rfl,fun _ => ⟨_,CallStage.Step.released,rfl,fun _ =>
        ⟨_,CallStage.Step.committed,rfl⟩⟩⟩

end Works

section Runs
variable [Chrono] [PlanText] {broker : PlannerBroker} {request : PlannerRequest}
  {h : List BrokerEvent} {p : broker.machine.State}

theorem call_runs (hr : broker.machine.Runs request h p) :
    ∃ s, (callMachine broker).Runs request h s := by
  obtain ⟨s,hs,-⟩ := Conforms.runs (fun _ i _ => i.elim) (broker.main_conforms request) hr
  exact ⟨s,hs⟩

end Runs

end PlannerBroker

def isGrant : BrokerEvent → Bool
  | ⟨.acquireBudget _,.ok ()⟩ => true
  | _ => false

def isCommit : BrokerEvent → Bool
  | ⟨.commitBudget _,_⟩ => true
  | _ => false

def isStart : BrokerEvent → Bool
  | ⟨.spawn _,.ok ()⟩ => true
  | _ => false

def CallStage.Tallies (request : PlannerRequest) (h : List BrokerEvent) : CallStage → Prop
  | requested r => r = request ∧ h = []
  | granted r | released r => r = request ∧ h.countP isGrant = 1 ∧ h.countP isCommit = 0
  | returned _ => h.countP isCommit = h.countP isGrant ∧
      (h.countP isGrant = 0 → h.countP isStart = 0) ∧ h.countP isGrant ≤ 1

theorem CallStage.Tallies.step {request : PlannerRequest} {h : List BrokerEvent} {s s' : CallStage}
    {e : BrokerEvent} (ht : s.Tallies request h) (hs : CallStage.Step s e s') :
    s'.Tallies request (h ++ [e]) := by
  cases hs with
  | granted =>
    obtain ⟨rfl,rfl⟩ := ht
    exact ⟨rfl,rfl,rfl⟩
  | refused =>
    obtain ⟨rfl,rfl⟩ := ht
    exact ⟨rfl,fun _ => rfl,Nat.zero_le _⟩
  | works hw =>
    obtain ⟨rfl,hgrant,hcommit⟩ := ht
    obtain ⟨op,answer⟩ := e
    refine ⟨rfl,?_,?_⟩
    · rw [List.countP_append,hgrant]
      cases op <;> first | exact hw.elim | rfl
    · rw [List.countP_append,hcommit]
      cases op <;> first | exact hw.elim | rfl
  | released =>
    obtain ⟨rfl,hgrant,hcommit⟩ := ht
    exact ⟨rfl,by rw [List.countP_append,hgrant]; rfl,by rw [List.countP_append,hcommit]; rfl⟩
  | committed =>
    obtain ⟨rfl,hgrant,hcommit⟩ := ht
    refine ⟨?_,fun hnone => ?_,?_⟩
    · rw [List.countP_append,List.countP_append,hgrant,hcommit]
      rfl
    · rw [List.countP_append,hgrant] at hnone
      cases hnone
    · rw [List.countP_append,hgrant]
      rfl

theorem runs_tallies {broker : PlannerBroker} {request : PlannerRequest} {h : List BrokerEvent}
    {s : CallStage} (hr : (callMachine broker).Runs request h s) : s.Tallies request h := by
  refine hr.invariant ?_
    fun h s e s' ht hs => CallStage.Tallies.step ht hs
  change CallStage.Tallies request [] (match broker.turnedAway request with
    | some error => .returned (.error error)
    | none => .requested request)
  cases broker.turnedAway request with
  | some => exact ⟨rfl,fun _ => rfl,Nat.zero_le _⟩
  | none => exact ⟨rfl,rfl⟩

/-- A limit of the configuration: what it counts, and where the broker keeps the count. -/
structure Quota (K : Type) [DecidableEq K] where
  key : PlannerRequest → K
  count : BudgetState → K → Nat
  limit : PlanningConfig → Nat
  count_empty : ∀ k, count .empty k = 0
  count_acquire : ∀ planning request budgets k,
    count (budgets.acquireBudget planning request).2 k = count budgets k
  count_release : ∀ budgets k, count budgets.releaseConcurrency k = count budgets k
  count_commit : ∀ request budgets k, count (budgets.commitBudget request) k =
    count budgets k + if key request = k then 1 else 0

theorem acquireBudget_counts (planning : PlanningConfig) (request : PlannerRequest)
    (budgets : BudgetState) :
    (budgets.acquireBudget planning request).2.perEvent = budgets.perEvent ∧
      (budgets.acquireBudget planning request).2.perSessionDay = budgets.perSessionDay := by
  unfold BudgetState.acquireBudget
  split
  · exact ⟨rfl,rfl⟩
  · split
    · exact ⟨rfl,rfl⟩
    · split <;> exact ⟨rfl,rfl⟩

def eventQuota : Quota String where
  key := PlannerRequest.eventId
  count := BudgetState.perEvent
  limit := PlanningConfig.maxCallsPerEvent
  count_empty _ := rfl
  count_acquire planning request budgets k :=
    congrFun (acquireBudget_counts planning request budgets).1 k
  count_release _ _ := rfl
  count_commit _ _ _ := rfl

def sessionQuota : Quota (String × String) where
  key := PlannerRequest.sessionKey
  count := BudgetState.perSessionDay
  limit := PlanningConfig.maxCallsPerSessionPerDay
  count_empty _ := rfl
  count_acquire planning request budgets k :=
    congrFun (acquireBudget_counts planning request budgets).2 k
  count_release _ _ := rfl
  count_commit _ _ _ := rfl

namespace Quota
variable {K : Type} [DecidableEq K]

def concerns (quota : Quota K) (k : K) (request : PlannerRequest) : Bool :=
  decide (quota.key request = k)

def pending (quota : Quota K) (k : K)
    (V : PoolView brokerSig PlannerRequest (Except WatchmeError PlannerResult) BudgetState) : Nat :=
  (V.threads.map fun v =>
    tally (quota.concerns k) isGrant v - tally (quota.concerns k) isCommit v).sum

def Leaves (quota : Quota K) (planning : PlanningConfig) (request : PlannerRequest)
    (V : PoolView brokerSig PlannerRequest (Except WatchmeError PlannerResult) BudgetState) :
    Prop :=
  quota.count V.shared (quota.key request) + quota.pending (quota.key request) V <
    quota.limit planning

end Quota

/-- A budget is granted while the calls granted before leave room, and a call starts one
process. -/
def Reserved (planning : PlanningConfig) :
    Discipline brokerSig PlannerRequest (Except WatchmeError PlannerResult) BudgetState :=
  fun V l => match l with
    | .act _ ⟨.acquireBudget request,.ok ()⟩ =>
      eventQuota.Leaves planning request V ∧ sessionQuota.Leaves planning request V
    | .act i ⟨.spawn _,.ok ()⟩ => ∀ v, V.threads[i]? = some v → v.history.countP isStart = 0
    | _ => True

instance (planning : PlanningConfig)
    (V : PoolView brokerSig PlannerRequest (Except WatchmeError PlannerResult) BudgetState)
    (l : Label brokerSig PlannerRequest) : Decidable (Reserved planning V l) := by
  unfold Reserved Quota.Leaves
  split <;> infer_instance

section Limits
variable [Chrono] [PlanText] {broker : PlannerBroker} {K : Type} [DecidableEq K]
  {P : Pool broker.machine BudgetState}
  {D : Discipline brokerSig PlannerRequest (Except WatchmeError PlannerResult) BudgetState}

abbrev Reaches (broker : PlannerBroker)
    (D : Discipline brokerSig PlannerRequest (Except WatchmeError PlannerResult) BudgetState)
    (P : Pool broker.machine BudgetState) : Prop :=
  Pool.Reachable broker.machine (brokerWorld broker.planning) D .empty P

theorem Reaches.call_step (hr : Reaches broker D P) {i : Nat} {t : Thread broker.machine}
    {e : BrokerEvent} {s : broker.machine.State} (ht : P.threads[i]? = some t)
    (hm : broker.machine.Step t.state e s) :
    ∃ stage stage' : CallStage, stage.Tallies t.call t.history ∧ stage.Step e stage' := by
  obtain ⟨stage',hruns⟩ := PlannerBroker.call_runs ((hr.runs_at ht).snoc hm)
  obtain ⟨stage,hstage,hstep⟩ := hruns.snoc_inv
  exact ⟨stage,stage',runs_tallies hstage,hstep⟩

theorem Reaches.commits_le (hr : Reaches broker D P) (p : PlannerRequest → Bool) :
    ∀ t ∈ P.threads, tally p isCommit t.view ≤ tally p isGrant t.view := by
  intro t ht
  obtain ⟨stage,hruns⟩ := PlannerBroker.call_runs (hr.runs t ht)
  have htallies := runs_tallies hruns
  have hle : t.history.countP isCommit ≤ t.history.countP isGrant := by
    cases stage with
    | requested => rw [htallies.2]; exact Nat.le_refl _
    | granted | released => rw [htallies.2.2]; exact Nat.zero_le _
    | returned => exact Nat.le_of_eq htallies.1
  unfold tally
  split
  · exact hle
  · exact Nat.le_refl _

theorem Reaches.count_eq (quota : Quota K) (k : K) (hr : Reaches broker D P) :
    quota.count P.shared k = Pool.total (tally (quota.concerns k) isCommit) P := by
  refine Pool.Reachable.invariant (quota.count_empty k) ?_ hr
  intro P l P' hr ih _ hs
  cases hs with
  | spawn => rw [total_tally_spawn]; exact ih
  | crash shared hrestart => exact hrestart.elim
  | act i t e s shared ht ha hm hw =>
    rw [total_tally_act ht,← ih]
    obtain ⟨stage,stage',htallies,hstep⟩ := Reaches.call_step hr ht hm
    cases hstep with
    | granted | refused =>
      have hshared : (BudgetState.acquireBudget _ _ P.shared).2 = shared := congrArg Prod.snd hw
      subst hshared
      rw [quota.count_acquire]
      simp [isCommit]
    | works hworks =>
      obtain ⟨op,answer⟩ := e
      cases op with
      | acquireBudget | releaseConcurrency | commitBudget => exact hworks.elim
      | tempdir | spawn | output | systemNow =>
        obtain rfl : shared = P.shared := hw
        simp [isCommit]
    | released =>
      obtain rfl : shared = P.shared.releaseConcurrency := hw
      rw [quota.count_release]
      simp [isCommit]
    | committed =>
      obtain ⟨rfl,-⟩ := htallies
      obtain rfl : shared = P.shared.commitBudget t.call := hw
      rw [quota.count_commit]
      simp [isCommit,Quota.concerns]

theorem Reaches.grants_le (quota : Quota K) (k : K)
    (hD : ∀ V i request, D V (.act i ⟨.acquireBudget request,.ok ()⟩) →
      quota.Leaves broker.planning request V) (hr : Reaches broker D P) :
    Pool.total (tally (quota.concerns k) isGrant) P ≤ quota.limit broker.planning := by
  refine Pool.Reachable.invariant
      (Nat.zero_le _) ?_ hr
  intro P l P' hr ih hd hs
  cases hs with
  | spawn => rw [total_tally_spawn]; exact ih
  | crash shared hrestart => exact hrestart.elim
  | act i t e s shared ht ha hm =>
    rw [total_tally_act ht]
    split
    · next hboth =>
      obtain ⟨hkey,hgrant⟩ := hboth
      obtain ⟨stage,stage',htallies,hstep⟩ := Reaches.call_step hr ht hm
      cases hstep with
      | refused | released | committed => cases hgrant
      | works hworks =>
        obtain ⟨op,answer⟩ := e
        cases op with
        | acquireBudget | releaseConcurrency | commitBudget => exact hworks.elim
        | tempdir | spawn | output | systemNow => cases hgrant
      | granted =>
        obtain ⟨rfl,-⟩ := htallies
        have hleaves := hD P.view i t.call hd
        obtain rfl : quota.key t.call = k := of_decide_eq_true hkey
        have hcount := Reaches.count_eq quota (quota.key t.call) hr
        have hsum := Pool.total_add_rest (Reaches.commits_le hr (quota.concerns (quota.key t.call)))
        have hpending : quota.pending (quota.key t.call) P.view =
            Pool.total (fun v => tally (quota.concerns (quota.key t.call)) isGrant v -
              tally (quota.concerns (quota.key t.call)) isCommit v) P := rfl
        have hroom : quota.count P.shared (quota.key t.call) +
            quota.pending (quota.key t.call) P.view < quota.limit broker.planning := hleaves
        omega
    · exact ih

theorem Reaches.starts_le (hr : Reaches broker (Reserved broker.planning) P)
    (p : PlannerRequest → Bool) :
    ∀ t ∈ P.threads, tally p isStart t.view ≤ tally p isGrant t.view := by
  have hone : ∀ t ∈ P.threads, t.alive = true → t.history.countP isStart ≤ 1 := by
    refine Pool.Reachable.live (Φ := fun _ _ h => h.countP isStart ≤ 1)
      (fun P call _ _ _ => Nat.zero_le _) ?_ hr
    intro P i t e s shared hr hall hd ht ha hm hw
    refine ⟨?_,hall⟩
    by_cases hstart : isStart e = true
    · obtain ⟨op,answer⟩ := e
      cases op with
      | acquireBudget | releaseConcurrency | commitBudget | tempdir | output | systemNow =>
        cases hstart
      | spawn =>
        cases answer with
        | error => cases hstart
        | ok =>
          have hnone : t.history.countP isStart = 0 :=
            hd t.view (by rw [Pool.view,List.getElem?_map,ht]; rfl)
          rw [List.countP_append,hnone]
          exact Nat.le_refl _
    · rw [List.countP_append,List.countP_singleton,if_neg hstart]
      exact hall t (List.mem_of_getElem? ht) ha
  intro t ht
  have halive := Pool.Reachable.alive (fun _ _ h => h) hr t ht
  obtain ⟨stage,hruns⟩ := PlannerBroker.call_runs (hr.runs t ht)
  have htallies := runs_tallies hruns
  have hle : t.history.countP isStart ≤ t.history.countP isGrant := by
    have hstarts := hone t ht halive
    cases stage with
    | requested => rw [htallies.2]; exact Nat.le_refl _
    | granted | released => rw [htallies.2.1]; exact hstarts
    | returned =>
      have hnone := htallies.2.1
      omega
  unfold tally
  split
  · exact hle
  · exact Nat.le_refl _

def startedFor (p : PlannerRequest → Bool) (P : Pool broker.machine BudgetState) : Nat :=
  Pool.total (tally p isStart) P

theorem Reaches.started_le (quota : Quota K) (k : K)
    (hr : Reaches broker (Reserved broker.planning) P)
    (hD : ∀ V i request, Reserved broker.planning V (.act i ⟨.acquireBudget request,.ok ()⟩) →
      quota.Leaves broker.planning request V) :
    startedFor (quota.concerns k) P ≤ quota.limit broker.planning := by
  have hsum := Pool.total_add_rest (hr.starts_le (quota.concerns k))
  have hgrants := hr.grants_le quota k hD
  unfold startedFor
  omega

/-- In the runs in which budgets are reserved, no limit is exceeded. -/
theorem planner_processes_within_budget (hr : Reaches broker (Reserved broker.planning) P) :
    (∀ eventId, startedFor (fun request => request.eventId = eventId) P ≤
      broker.planning.maxCallsPerEvent) ∧
    ∀ sessionId dayKey, startedFor (fun request => request.sessionId = sessionId ∧
      request.dayKey = dayKey) P ≤ broker.planning.maxCallsPerSessionPerDay := by
  refine ⟨fun eventId => ?_,fun sessionId dayKey => ?_⟩
  · exact hr.started_le eventQuota eventId fun V i request h => h.1
  · have hkey : (fun request : PlannerRequest => decide (request.sessionId = sessionId ∧
        request.dayKey = dayKey)) = sessionQuota.concerns (sessionId,dayKey) := by
      funext request
      simp [Quota.concerns,sessionQuota,PlannerRequest.sessionKey]
    rw [hkey]
    exact hr.started_le sessionQuota (sessionId,dayKey) fun V i request h => h.2

end Limits

namespace Sample

@[reducible] def planText : PlanText := ⟨fun _ => .error "unreadable",fun snapshot _ => snapshot⟩

def planningDefaults : PlanningConfig where
  enabled := true
  maxCallsPerEvent := 1
  allowIndependentSecondOpinion := false
  maxCallsPerSessionPerDay := 4
  maxConcurrentCalls := 1
  allowUnknownProviderFamily := false
  plannerPriority := ["codex","claude","hermes","opencode","pi"]
  planners := ∅

def broker : PlannerBroker := ⟨planningDefaults,[]⟩

def hermes : ResolvedPlanner := ⟨"hermes","/usr/bin/hermes","openai",[]⟩

def planRequest : PlannerRequest := ⟨"session-a","event-1","anthropic",.null,"2026-07-11",[hermes]⟩

def planHost : Host (brokerWorld planningDefaults) where
  answer budgets
    | .acquireBudget request => budgets.acquireBudget planningDefaults request
    | .tempdir | .spawn _ => (.ok (),budgets)
    | .output => (.error ⟨.timeout,"planner process timed out"⟩,budgets)
    | .systemNow => ("",budgets)
    | .releaseConcurrency => ((),budgets.releaseConcurrency)
    | .commitBudget request => ((),budgets.commitBudget request)
  answers _ op _ := by cases op <;> rfl

attribute [local instance] epochOnly planText

def noCalls : Pool broker.machine BudgetState := ⟨.empty,[]⟩

def planning (i steps : Nat) : List (Move (brokerWorld planningDefaults) PlannerRequest) :=
  .spawn planRequest :: .replicate steps (.act i planHost)

end Sample

section
attribute [local instance] Sample.epochOnly Sample.planText

theorem planner_processes_within_budget_one :
    let _ := Sample.epochOnly
    let _ := Sample.planText
    ∃ P : Pool Sample.broker.machine BudgetState,
      Reaches Sample.broker (Reserved Sample.broker.planning) P ∧
      startedFor (fun request => request.eventId = "event-1") P = 1 ∧
      startedFor (fun request => request.eventId = "event-1") P ≤
        Sample.broker.planning.maxCallsPerEvent := by
  have hr : Reaches Sample.broker (Reserved Sample.broker.planning)
      (Sample.noCalls.play (Sample.planning 0 3)) :=
    Pool.Reachable.init.play_decided _ (by decide)
  exact ⟨_,hr,by decide,(planner_processes_within_budget hr).1 "event-1"⟩

/-- The second call of one event gets a budget between the release and the commit of the first:
two processes are started where one is allowed. -/
theorem planner_processes_exceed_budget :
    let _ := Sample.epochOnly
    let _ := Sample.planText
    ∃ P : Pool Sample.broker.machine BudgetState, Reaches Sample.broker (fun _ _ => True) P ∧
      Sample.broker.planning.maxCallsPerEvent = 1 ∧
      startedFor (fun request => request.eventId = "event-1") P = 2 :=
  ⟨Sample.noCalls.play (Sample.planning 0 5 ++ Sample.planning 1 3),
    Pool.Reachable.init.play _ fun _ _ _ => trivial,rfl,by decide⟩

end

end WatchMe
