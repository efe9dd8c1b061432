import WatchMe.Planner.Router
import WatchMe.Policy

/-! # Plans of a planner

A plan is checked against the target, the evidence and the families of the request, and each of
its actions by the policy. The router excludes a family up to white space and case; the plan
check and the policy compare the texts as they are.
-/
namespace WatchMe

structure PlanTarget where
  watcherId : String
  processPid : Nat
  processStartTime : String
  muxKind : String
  paneId : String
  evidenceFingerprint : String
  deriving DecidableEq

structure PlanDiagnosis where
  failedProviderFamily : String
  plannerProviderFamily : String

structure RecoveryPlan where
  generatedAt : String
  validUntil : String
  target : PlanTarget
  diagnosis : PlanDiagnosis
  actions : List Action

structure PlanValidationContext where
  failedProviderFamily : String
  plannerProviderFamily : String
  evidenceFingerprint : String
  watcherId : String
  processPid : Nat
  processStartTime : String
  muxKind : String
  paneId : String
  nowRfc3339 : String
  allowedActions : List String

def PlanValidationContext.target (context : PlanValidationContext) : PlanTarget where
  watcherId := context.watcherId
  processPid := context.processPid
  processStartTime := context.processStartTime
  muxKind := context.muxKind
  paneId := context.paneId
  evidenceFingerprint := context.evidenceFingerprint

def actionTypeName : ActionKind → String
  | .waitUntil _ => "WAIT_UNTIL"
  | .waitDuration _ => "WAIT_DURATION"
  | .capture _ _ => "CAPTURE"
  | .checkStatus _ => "CHECK_STATUS"
  | .sendText _ => "SEND_TEXT"
  | .submitText _ => "SUBMIT_TEXT"
  | .sendKeys _ => "SEND_KEYS"
  | .notify _ _ => "NOTIFY"
  | .escalate _ => "ESCALATE"
  | .stopWatching => "STOP_WATCHING"
  | .noop => "NOOP"

def prohibitedWords : List String :=
  ["http://","https://"] ++ forbiddenWords ++ ["curl ","/bin/sh","shell"]

def prohibitedText (text : String) : Bool :=
  let lower := text.toList.map Char.toLower
  prohibitedWords.any fun word => containsText word.toList lower

def typesProhibited : ActionKind → Bool
  | .sendText text | .submitText text => prohibitedText text
  | _ => false

/-- The context in which the policy judges the actions of a plan. -/
def PlanValidationContext.policyContext (context : PlanValidationContext) : PolicyContext :=
  { PolicyContext.safe with
    evidenceFingerprint := some context.evidenceFingerprint
    failedProviderFamily := some context.failedProviderFamily
    plannerProviderFamily := some context.plannerProviderFamily
    goalState := some "blocked"
    wallTimeRfc3339 := some context.nowRfc3339 }

section
variable [Chrono]

def validatedAction (context : PlanValidationContext) (action : Action) : Except String Action := do
  let typeName := actionTypeName action.kind
  refuseIf (!context.allowedActions.contains typeName)
    ("action type not allowlisted: " ++ typeName)
  refuseIf (typesProhibited action.kind) "prohibited send text"
  authorize action context.policyContext
  return action

def parsedTime (text error : String) : Except String Int :=
  match Chrono.parseFromRfc3339 text with
  | none => .error error
  | some nanos => .ok nanos

def validateRecoveryPlan (plan : RecoveryPlan) (context : PlanValidationContext) :
    Except String (List Action) := do
  refuseIf (plan.diagnosis.failedProviderFamily != context.failedProviderFamily)
    "failed provider family mismatch"
  refuseIf (plan.diagnosis.plannerProviderFamily != context.plannerProviderFamily)
    "planner provider family mismatch"
  refuseIf (plan.diagnosis.plannerProviderFamily == plan.diagnosis.failedProviderFamily)
    "same-provider planner plan rejected"
  refuseIf (decide (plan.target ≠ context.target)) "target or evidence mismatch"
  let generated ← parsedTime plan.generatedAt "invalid generated_at"
  let validUntil ← parsedTime plan.validUntil "invalid valid_until"
  let now ← parsedTime context.nowRfc3339 "invalid now"
  refuseIf (decide (validUntil < now) || decide (validUntil < generated)) "plan expired or stale"
  plan.actions.mapM (validatedAction context)

/-- The three places that keep a planner of family `p` from a failure of family `f`. -/
structure FamilyExcluded (f p : String) : Prop where
  router : ∀ planning candidates, ∀ planner ∈ resolveEligiblePlanners planning f candidates,
    normalizeFamily planner.providerFamily ≠ normalizeFamily p
  schema : ∀ (plan : RecoveryPlan) (context : PlanValidationContext),
    plan.diagnosis.plannerProviderFamily = p → plan.diagnosis.failedProviderFamily = f →
      ∃ error, validateRecoveryPlan plan context = .error error
  policy : ∀ (action : Action) (context : PolicyContext), plannerEscalation action.kind = true →
    context.failedProviderFamily = some f → context.plannerProviderFamily = some p →
      ∃ error, authorize action context = .error error

omit [Chrono] in
theorem error_of_not_ok {ε α : Type} {x : Except ε α} (h : ∀ a, x ≠ .ok a) :
    ∃ error, x = .error error := by
  cases x with
  | error error => exact ⟨error,rfl⟩
  | ok a => exact (h a rfl).elim

/-- An escalation to a planner of another family. -/
def alternatePlanner : Action where
  kind := .escalate "alternate_planner"
  actionId := "ask-planner"
  reason := "recipes are exhausted"
  preconditions := []
  expectedOutcomes := [⟨"NO_STATE_CHANGE_EXPECTED",none⟩]
  timeoutSeconds := 30

theorem alternatePlanner_valid : alternatePlanner.validate = .ok () := by
  rfl

def betweenFamilies (f p : String) : PolicyContext :=
  { PolicyContext.safe with failedProviderFamily := some f, plannerProviderFamily := some p }

theorem authorize_alternatePlanner {f p : String} (h : p ≠ f) :
    authorize alternatePlanner (betweenFamilies f p) = .ok () := by
  have hfamilies : (some f == some p) = false := by simpa using h.symm
  simp only [authorize,check_ok_iff,refuseIf_ok_iff]
  refine ⟨alternatePlanner_valid,rfl,?_,rfl,rfl,rfl,rfl,rfl,rfl,rfl⟩
  simp only [betweenFamilies,hfamilies]
  rfl

/-- The exclusion holds up to white space and case exactly where the texts are equal. -/
theorem familyExcluded_iff {f p : String} (h : normalizeFamily p = normalizeFamily f) :
    FamilyExcluded f p ↔ p = f := by
  constructor
  · intro hex
    by_contra hne
    obtain ⟨error,herror⟩ := hex.policy alternatePlanner (betweenFamilies f p) rfl rfl rfl
    cases (authorize_alternatePlanner hne).symm.trans herror
  · rintro rfl
    refine ⟨fun planning candidates planner hp => ?_,?_,?_⟩
    · unfold resolveEligiblePlanners at hp
      split at hp
      · cases hp
      · exact mem_eligible hp
    · intro plan context hplanner hfailed
      refine error_of_not_ok fun actions hok => ?_
      simp only [validateRecoveryPlan,check_ok_iff,refuseIf_ok_iff,hplanner,hfailed] at hok
      simp at hok
    · intro action context hkind hfailed hplanner
      refine error_of_not_ok fun _ hok => ?_
      simp only [authorize,check_ok_iff,refuseIf_ok_iff,hkind,hfailed,hplanner] at hok
      simp at hok

end

namespace Sample

@[reducible] def epochOnly : Chrono := ⟨fun _ => some 0⟩

def planContext (f p : String) : PlanValidationContext where
  failedProviderFamily := f
  plannerProviderFamily := p
  evidenceFingerprint := "00112233445566778899aabbccddeeff"
  watcherId := "watcher-1"
  processPid := 7
  processStartTime := "1"
  muxKind := "tmux"
  paneId := "%1"
  nowRfc3339 := "1970-01-01T00:00:00Z"
  allowedActions := ["ESCALATE"]

def planBy (f p : String) : RecoveryPlan where
  generatedAt := "1970-01-01T00:00:00Z"
  validUntil := "1970-01-01T00:00:00Z"
  target := (planContext f p).target
  diagnosis := ⟨f,p⟩
  actions := [alternatePlanner]

end Sample

theorem openai_excluded :
    let _ := Sample.epochOnly
    normalizeFamily "openai" = normalizeFamily "openai" ∧ FamilyExcluded "openai" "openai" := by
  intro _
  exact ⟨rfl,(familyExcluded_iff rfl).2 rfl⟩

/-- A plan of the same family in other letters is accepted, and so is an escalation to it. -/
theorem openai_capitalized :
    let _ := Sample.epochOnly
    normalizeFamily "OpenAI" = normalizeFamily "openai" ∧
      validateRecoveryPlan (Sample.planBy "openai" "OpenAI")
        (Sample.planContext "openai" "OpenAI") = .ok [alternatePlanner] ∧
      authorize alternatePlanner (betweenFamilies "openai" "OpenAI") = .ok () ∧
      ¬ FamilyExcluded "openai" "OpenAI" := by
  intro _
  have hplan : validateRecoveryPlan (Sample.planBy "openai" "OpenAI")
      (Sample.planContext "openai" "OpenAI") = .ok [alternatePlanner] := by
    rfl
  have hauthorized : authorize alternatePlanner (betweenFamilies "openai" "OpenAI") = .ok () :=
    authorize_alternatePlanner (by decide)
  refine ⟨by decide +kernel,hplan,hauthorized,fun hex => ?_⟩
  obtain ⟨error,herror⟩ := hex.schema (Sample.planBy "openai" "OpenAI") _ rfl rfl
  cases hplan.symm.trans herror

end WatchMe
