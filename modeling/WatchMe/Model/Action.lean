import WatchMe.Model.Event

/-! # Recovery actions and their structural validation

An action arrives from a recipe, a manifest or a planner. `Action.validate` bounds
its fields, `validateAction` adds the actuator's own checks on what may be typed
into a pane.
-/
namespace WatchMe

structure Condition where
  kind : String
  value : Option Json
  deriving DecidableEq

def Condition.text (c : Condition) : Option String := c.value.bind Json.asStr

structure StatusCheck where
  kind : String
  value : Option String
  deriving DecidableEq

inductive ActionKind where
  | waitUntil (at_ : String)
  | waitDuration (durationSeconds : Nat)
  | capture (source : String) (maxLines : Nat)
  | checkStatus (check : StatusCheck)
  | sendText (text : String)
  | submitText (text : String)
  | sendKeys (keys : List String)
  | notify (severity message : String)
  | escalate (level : String)
  | stopWatching
  | noop
  deriving DecidableEq

structure Action where
  kind : ActionKind
  actionId : String
  reason : String
  preconditions : List Condition
  expectedOutcomes : List Condition
  timeoutSeconds : Nat
  deriving DecidableEq

def preconditionKinds : List String :=
  ["TARGET_IDENTITY_MATCHES","PROCESS_ALIVE","SESSION_ID_MATCHES",
    "EVIDENCE_FINGERPRINT_MATCHES","COMPOSER_EMPTY","MENU_STABLE","AGENT_STATE_IS",
    "GOAL_STATE_IS","EVENT_CATEGORY_IS","NO_HUMAN_INTERVENTION","CLAUDE_RESUME_SESSION",
    "CURRENT_TIME_AT_OR_AFTER"]

def outcomeKinds : List String :=
  ["AGENT_WORKING","AGENT_IDLE","BLOCK_CLEARED","GOAL_ACTIVE_OR_PURSUING","MENU_DISMISSED",
    "WAIT_STATE_RECORDED","AGENT_STATE_IS","PROCESS_TERMINATED","CLAUDE_PROGRESS",
    "HUMAN_NOTIFIED","NO_STATE_CHANGE_EXPECTED"]

def validKeys : List String :=
  ["ENTER","ESCAPE","UP","DOWN","LEFT","RIGHT","TAB","BACKTAB","CTRL_C","CTRL_D","CTRL_L",
    "HOME","END","PAGE_UP","PAGE_DOWN"]

def checkKinds : List String :=
  ["PROCESS_ALIVE","TARGET_IDENTITY","AGENT_STATE","GOAL_STATE","EVENT_CLEARED",
    "COMPOSER_EMPTY","SCREEN_CONTAINS_LITERAL","SCREEN_NOT_CONTAINS_LITERAL"]

def scalarValue (c : Condition) : Bool :=
  match c.value with
  | none => true
  | some (.string text) => decide (text.utf8ByteSize ≤ 256)
  | some v => v.isScalar

def validPrecondition (c : Condition) : Bool :=
  scalarValue c && preconditionKinds.contains c.kind

def validOutcome (c : Condition) : Bool :=
  scalarValue c && outcomeKinds.contains c.kind

def validKey (key : String) : Bool := validKeys.contains key

def validCheck (check : StatusCheck) : Bool :=
  checkKinds.contains check.kind && !longerThan 256 check.value

def validDatetime [Chrono] (value : String) : Bool :=
  (Chrono.parseFromRfc3339 value).isSome

namespace Action
variable [Chrono]

def validVariant (a : Action) : Bool :=
  match a.kind with
  | .waitUntil at_ => validDatetime at_
  | .waitDuration seconds => decide (1 ≤ seconds) && decide (seconds ≤ 86400)
  | .capture source maxLines =>
    ["screen_detection","screen_recent","structured_state","log_tail"].contains source
      && decide (1 ≤ maxLines) && decide (maxLines ≤ 300)
  | .checkStatus check => validCheck check
  | .sendText text | .submitText text =>
    !a.preconditions.isEmpty && text != "" && decide (text.utf8ByteSize ≤ 512)
  | .sendKeys keys =>
    !a.preconditions.isEmpty && !keys.isEmpty && decide (keys.length ≤ 16) && keys.all validKey
  | .notify severity message =>
    ["info","warning","error","critical"].contains severity && message != ""
      && decide (message.utf8ByteSize ≤ 500)
  | .escalate level =>
    ["alternate_planner","independent_second_opinion","human_required"].contains level
  | .stopWatching | .noop => true

def validate (a : Action) : Except String Unit := do
  refuseIf (!validId a.actionId || decide (96 < a.actionId.utf8ByteSize) || a.reason == ""
    || decide (500 < a.reason.utf8ByteSize) || a.timeoutSeconds == 0
    || decide (86400 < a.timeoutSeconds)) "invalid common action fields"
  refuseIf (decide (12 < a.preconditions.length) || a.expectedOutcomes.isEmpty
    || decide (6 < a.expectedOutcomes.length)) "invalid action conditions"
  refuseIf (!a.preconditions.all validPrecondition || !a.expectedOutcomes.all validOutcome)
    "invalid condition kind or value"
  refuseIf (!a.validVariant) "invalid action variant fields"

end Action

inductive ExecutionOutput where
  | committed
  | scheduled (nanos : Nat)
  | captured (text : String)
  | status (value : Json)
  | notified
  | escalated
  deriving DecidableEq

inductive ExecutionError where
  | unsafe_ (reason : String)
  | integration (reason : String)
  | possibleSideEffect (reason : String)
  deriving DecidableEq, Repr

def ExecutionError.text : ExecutionError → String
  | unsafe_ reason => "unsafe action: " ++ reason
  | integration reason => "multiplexer operation failed: " ++ reason
  | possibleSideEffect reason => "operation may have committed a side effect: " ++ reason

inductive SymbolicKey where
  | enter
  | escape
  | up
  | down
  | left
  | right
  | tab
  deriving DecidableEq, Repr

def symbolicKey : String → Option SymbolicKey
  | "ENTER" => some .enter
  | "ESCAPE" => some .escape
  | "UP" => some .up
  | "DOWN" => some .down
  | "LEFT" => some .left
  | "RIGHT" => some .right
  | "TAB" => some .tab
  | _ => none

def forbiddenLiteralCharacter (c : Char) : Bool :=
  decide (c.toNat ≤ 0x1f) || (decide (0x7f ≤ c.toNat) && decide (c.toNat ≤ 0x9f))

def maxCaptureLines : Nat := 300

def actuatorRefusal (kind : ActionKind) : Option String :=
  match kind with
  | .sendText text | .submitText text =>
    if text.toList.any forbiddenLiteralCharacter then
      some "literal text contains C0/C1 control"
    else none
  | .sendKeys keys =>
    if keys.all (fun key => (symbolicKey key).isSome) then none
    else some "symbolic key is not allowlisted"
  | .capture _ maxLines =>
    if maxCaptureLines < maxLines then some "capture exceeds bound" else none
  | _ => none

/-- The actuator's check, made before anything is read or claimed. -/
def validateAction [Chrono] (a : Action) : Except ExecutionError Unit :=
  match a.validate with
  | .error reason => .error (.unsafe_ reason)
  | .ok () =>
    match actuatorRefusal a.kind with
    | some reason => .error (.unsafe_ reason)
    | none => .ok ()

theorem validateAction_ok_iff [Chrono] {a : Action} :
    validateAction a = .ok () ↔ a.validate = .ok () ∧ actuatorRefusal a.kind = none := by
  unfold validateAction
  cases a.validate with
  | error => simp
  | ok => cases actuatorRefusal a.kind <;> simp

def actuatorKeys : List String := ["ENTER","ESCAPE","UP","DOWN","LEFT","RIGHT","TAB"]

theorem symbolicKey_isSome {key : String} (h : (symbolicKey key).isSome = true) :
    key ∈ actuatorKeys := by
  unfold symbolicKey at h
  split at h
  case h_8 => simp at h
  all_goals simp [actuatorKeys]

theorem validateAction_sendKeys [Chrono] {a : Action} {keys : List String}
    (h : validateAction a = .ok ()) (hk : a.kind = .sendKeys keys) :
    ∀ key ∈ keys, key ∈ actuatorKeys := by
  have hnone := (validateAction_ok_iff.1 h).2
  simp only [hk,actuatorRefusal,ite_eq_left_iff,reduceCtorEq,imp_false,not_not,
    List.all_eq_true] at hnone
  intro key hkey
  exact symbolicKey_isSome (hnone key hkey)

end WatchMe
