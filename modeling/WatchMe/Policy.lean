import WatchMe.Model.Action

/-! # The compiled policy

The last word on an action before a transaction is prepared. `Authorized` collects
what an accepted action and its context have in common; later proofs use it in
place of the chain of refusals.
-/
namespace WatchMe

structure PolicyContext where
  targetRevalidated : Bool
  evidenceCurrent : Bool
  humanIntervened : Bool
  sourceRank : Nat
  contradictorySourceRank : Option Nat
  processAlive : Bool
  paneMatches : Bool
  composerEmpty : Bool
  failedProviderFamily : Option String
  plannerProviderFamily : Option String
  attemptsRemaining : Nat
  cumulativeWaitRemainingSeconds : Nat
  plannerCallsRemaining : Nat
  plannerConcurrencyAvailable : Bool
  cooldownReady : Bool
  sessionId : Option String
  evidenceFingerprint : Option String
  menuStable : Bool
  agentState : Option String
  goalState : Option String
  eventCategory : Option String
  wallTimeRfc3339 : Option String
  claudeResumeSession : Option String

def PolicyContext.safe : PolicyContext where
  targetRevalidated := true
  evidenceCurrent := true
  humanIntervened := false
  sourceRank := 255
  contradictorySourceRank := none
  processAlive := true
  paneMatches := true
  composerEmpty := true
  failedProviderFamily := none
  plannerProviderFamily := none
  attemptsRemaining := 1
  cumulativeWaitRemainingSeconds := 86400
  plannerCallsRemaining := 1
  plannerConcurrencyAvailable := true
  cooldownReady := true
  sessionId := none
  evidenceFingerprint := none
  menuStable := true
  agentState := none
  goalState := none
  eventCategory := none
  wallTimeRfc3339 := none
  claudeResumeSession := none

def forbiddenWords : List String :=
  ["login","sign in","billing","fund","credit","upgrade","approve","permission","yolo","sudo",
    "rm -rf","password","token","secret"]

def safeLiterals : List String :=
  ["/goal resume","continue","retry","Continue exactly where you left off."]

def containsText (word : List Char) : List Char → Bool
  | [] => word.isEmpty
  | c :: cs => List.isPrefixOf word (c :: cs) || containsText word cs

def safeText (text : String) : Bool :=
  let lower := text.toList.map Char.toLower
  !text.toList.any forbiddenLiteralCharacter
    && !forbiddenWords.any (fun word => containsText word.toList lower)
    && safeLiterals.contains text

def policyKeys : List String :=
  ["ENTER","ESCAPE","UP","DOWN","LEFT","RIGHT","TAB","BACKTAB","HOME","END","PAGE_UP",
    "PAGE_DOWN"]

section
variable [Chrono]
variable {context : PolicyContext}

/-- `num_seconds` truncates towards zero, and a negative count is no `u64`. -/
def waitUntilSeconds (at_ : String) (now : Option String) : Option Nat := do
  let required ← Chrono.parseFromRfc3339 at_
  let current ← Chrono.parseFromRfc3339 (← now)
  let seconds := (required - current).tdiv 1000000000
  if 0 ≤ seconds then some seconds.toNat else none

def preconditionHolds (condition : Condition) (context : PolicyContext) : Bool :=
  let text := condition.text
  match condition.kind with
  | "TARGET_IDENTITY_MATCHES" => context.targetRevalidated && context.paneMatches
  | "PROCESS_ALIVE" => context.processAlive
  | "SESSION_ID_MATCHES" => text == context.sessionId
  | "EVIDENCE_FINGERPRINT_MATCHES" => text == context.evidenceFingerprint
  | "COMPOSER_EMPTY" => context.composerEmpty
  | "MENU_STABLE" => context.menuStable
  | "AGENT_STATE_IS" => text == context.agentState
  | "GOAL_STATE_IS" => text == context.goalState
  | "EVENT_CATEGORY_IS" => text == context.eventCategory
  | "NO_HUMAN_INTERVENTION" => !context.humanIntervened
  | "CLAUDE_RESUME_SESSION" => text == context.claudeResumeSession
  | "CURRENT_TIME_AT_OR_AFTER" =>
    match text.bind Chrono.parseFromRfc3339,
        context.wallTimeRfc3339.bind Chrono.parseFromRfc3339 with
    | some required, some current => decide (required ≤ current)
    | _, _ => false
  | _ => false

def plannerEscalation : ActionKind → Bool
  | .escalate level => level != "human_required"
  | _ => false

def secondOpinion : ActionKind → Bool
  | .escalate level => level == "independent_second_opinion"
  | _ => false

/-- The refusals that depend on the remaining wait. -/
def waitRefusal (kind : ActionKind) (context : PolicyContext) : Except String Unit :=
  match kind with
  | .waitDuration seconds =>
    refuseIf (decide (context.cumulativeWaitRemainingSeconds < seconds))
      "cumulative wait budget denied"
  | .waitUntil at_ =>
    match waitUntilSeconds at_ context.wallTimeRfc3339 with
    | none => .error "valid wall time required"
    | some seconds =>
      refuseIf (decide (context.cumulativeWaitRemainingSeconds < seconds))
        "cumulative wait budget denied"
  | _ => .ok ()

/-- The final match of `authorize`: the kinds of action the policy lets through. -/
def kindAllowed (kind : ActionKind) (context : PolicyContext) : Bool :=
  match kind with
  | .waitUntil _ => true
  | .waitDuration seconds => decide (seconds ≤ 86400)
  | .capture _ maxLines => decide (maxLines ≤ 300)
  | .checkStatus _ | .notify _ _ | .stopWatching | .noop => true
  | .escalate level =>
    ["human_required","alternate_planner","independent_second_opinion"].contains level
  | .sendKeys keys => context.composerEmpty && keys.all policyKeys.contains
  | .sendText text | .submitText text => context.composerEmpty && safeText text

def authorize (action : Action) (context : PolicyContext) : Except String Unit := do
  action.validate
  refuseIf (!context.targetRevalidated || !context.evidenceCurrent || context.humanIntervened
    || !context.processAlive || !context.paneMatches) "revalidation required"
  refuseIf (plannerEscalation action.kind
    && (context.failedProviderFamily.isNone || context.plannerProviderFamily.isNone
      || context.failedProviderFamily == context.plannerProviderFamily))
    "same-provider planner denied"
  refuseIf (context.attemptsRemaining == 0 || !context.cooldownReady)
    "attempt or cooldown budget denied"
  waitRefusal action.kind context
  refuseIf (plannerEscalation action.kind && context.plannerCallsRemaining == 0)
    "planner budget denied"
  refuseIf (secondOpinion action.kind && (decide (context.plannerCallsRemaining < 2)
    || !context.plannerConcurrencyAvailable || !context.composerEmpty))
    "independent second opinion budget denied"
  refuseIf (!action.preconditions.all (fun condition => preconditionHolds condition context))
    "declared precondition failed"
  refuseIf (context.contradictorySourceRank.any (fun r => decide (context.sourceRank < r)))
    "higher-ranked contradiction"
  refuseIf (!kindAllowed action.kind context) "action denied by compiled policy"

/-- What every authorised action and its context have in common. -/
structure Authorized (action : Action) (context : PolicyContext) : Prop where
  valid : action.validate = .ok ()
  attempts : 0 < context.attemptsRemaining
  cooldown : context.cooldownReady = true
  allowed : kindAllowed action.kind context = true
  preconditions : ∀ c ∈ action.preconditions, preconditionHolds c context = true

theorem authorize_ok {action : Action} (h : authorize action context = .ok ()) :
    Authorized action context := by
  simp only [authorize,check_ok_iff,refuseIf_ok_iff,Bool.or_eq_false_iff,
    Bool.not_eq_eq_eq_not,Bool.not_false,List.all_eq_true,beq_eq_false_iff_ne] at h
  obtain ⟨hv,-,-,⟨hatt,hcool⟩,-,-,-,hpre,-,hkind⟩ := h
  exact ⟨hv,Nat.pos_of_ne_zero hatt,hcool,hkind,hpre⟩

theorem authorize_wait {action : Action} (h : authorize action context = .ok ()) :
    waitRefusal action.kind context = .ok () := by
  simp only [authorize,check_ok_iff] at h
  exact h.2.2.2.2.1

omit [Chrono] in
theorem kindAllowed_text {kind : ActionKind} {text : String} (h : kindAllowed kind context = true)
    (hk : kind = .sendText text ∨ kind = .submitText text) : text ∈ safeLiterals := by
  have hsafe : safeText text = true := by
    rcases hk with rfl | rfl
    · simp only [kindAllowed,Bool.and_eq_true] at h
      exact h.2
    · simp only [kindAllowed,Bool.and_eq_true] at h
      exact h.2
  simp only [safeText,Bool.and_eq_true,List.contains_iff_mem] at hsafe
  exact hsafe.2

example : safeLiterals.map safeText = [true,true,true,true] := by decide

omit [Chrono] in
theorem Condition.text_eq_some_iff {c : Condition} {text : String} :
    c.text = some text ↔ c.value = some (.string text) := by
  unfold Condition.text
  cases c.value with
  | none => simp
  | some value => cases value <;> simp [Json.asStr]

/-- The fact that a kind of precondition compares its value with. -/
def PolicyContext.fact (context : PolicyContext) : String → Option (Option String)
  | "SESSION_ID_MATCHES" => some context.sessionId
  | "EVIDENCE_FINGERPRINT_MATCHES" => some context.evidenceFingerprint
  | "AGENT_STATE_IS" => some context.agentState
  | "GOAL_STATE_IS" => some context.goalState
  | "EVENT_CATEGORY_IS" => some context.eventCategory
  | "CLAUDE_RESUME_SESSION" => some context.claudeResumeSession
  | _ => none

theorem preconditionHolds_fact {c : Condition} {fact : Option String}
    (h : context.fact c.kind = some fact) : preconditionHolds c context = true ↔ c.text = fact := by
  unfold PolicyContext.fact at h
  unfold preconditionHolds
  split at h <;> cases h <;> rename_i hkind <;> rw [hkind] <;> exact beq_iff_eq

/-- Each value is there, the fact is there, and they are equal. -/
def ValuesMatch (action : Action) (context : PolicyContext) : Prop :=
  ∀ c ∈ action.preconditions, ∀ fact, context.fact c.kind = some fact →
    ∃ value, c.value = some (.string value) ∧ fact = some value

/-- A precondition without a text is met by a fact that is not there. -/
theorem authorized_values_match_iff {action : Action} {context : PolicyContext}
    (h : authorize action context = .ok ()) :
    ValuesMatch action context ↔ ∀ c ∈ action.preconditions,
      (context.fact c.kind).isSome = true → ∃ value, c.value = some (.string value) := by
  constructor
  · intro hmatch c hc hfact
    obtain ⟨fact,hfact⟩ := Option.isSome_iff_exists.1 hfact
    obtain ⟨value,hvalue,-⟩ := hmatch c hc fact hfact
    exact ⟨value,hvalue⟩
  · intro hvalues c hc fact hfact
    obtain ⟨value,hvalue⟩ := hvalues c hc (by rw [hfact]; rfl)
    have hholds := (authorize_ok h).preconditions c hc
    rw [preconditionHolds_fact hfact,Condition.text_eq_some_iff.2 hvalue] at hholds
    exact ⟨value,hvalue,hholds.symm⟩

end

namespace Sample

def sessionBound (value : Option Json) : Action where
  kind := .sendText "continue"
  actionId := "generic.continue"
  reason := "the agent is idle"
  preconditions := [⟨"SESSION_ID_MATCHES",value⟩]
  expectedOutcomes := [⟨"AGENT_WORKING",none⟩]
  timeoutSeconds := 60

@[reducible] def noDates : Chrono := ⟨fun _ => none⟩

end Sample

theorem authorized_values_match_session :
    let _ := Sample.noDates
    ValuesMatch (Sample.sessionBound (some (.string "session-1")))
      { PolicyContext.safe with sessionId := some "session-1" } := by
  intro _
  refine (authorized_values_match_iff (by decide)).2 fun c hc _ => ?_
  cases List.mem_singleton.1 hc
  exact ⟨_,rfl⟩

/-- Text is typed for a precondition that names no session, into a pane of no known session. -/
theorem authorized_without_session :
    let _ := Sample.noDates
    authorize (Sample.sessionBound none) .safe = .ok () ∧
      ¬ ValuesMatch (Sample.sessionBound none) .safe := by
  intro _
  refine ⟨by decide,fun hmatch => ?_⟩
  obtain ⟨value,hvalue,-⟩ := hmatch _ (List.mem_singleton.2 rfl) none rfl
  cases hvalue

end WatchMe
