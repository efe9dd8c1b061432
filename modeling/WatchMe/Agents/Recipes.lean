import WatchMe.Agents.Claude

/-! # The recipes

What the daemon proposes for the last observation of a watcher. `CompositeRecipes` asks
Claude, then Codex, then the manifests, and gives events that look like Codex to Codex alone.
The manifests are loaded from files; all that is kept of them is that their actions are named
after them.
-/
namespace WatchMe
variable {w : WatcherState} {a : Action}

/-- `to_rfc3339` of an instant in the offset of a stamp that was parsed before. -/
class OffsetTexts extends Texts where
  toRfc3339At : String → Int → String

namespace Action

def new (id : String) (kind : ActionKind) (reason fingerprint : String) (timeoutSeconds : Nat) :
    Action where
  kind := kind
  actionId := id
  reason := reason
  preconditions := [⟨"EVIDENCE_FINGERPRINT_MATCHES",some (.string fingerprint)⟩]
  expectedOutcomes := [⟨"NO_STATE_CHANGE_EXPECTED",none⟩]
  timeoutSeconds := timeoutSeconds

def expecting (action : Action) (preconditions : List Condition) (outcome : Condition) : Action :=
  { action with
    preconditions := action.preconditions ++ preconditions
    expectedOutcomes := [outcome] }

def typing (id : String) (kind : ActionKind) (reason fingerprint : String)
    (preconditions : List String) : Action :=
  let action := new id kind reason fingerprint 30
  { action with
    preconditions := action.preconditions ++ preconditions.map fun kind => ⟨kind,none⟩ }

def sendText (id text reason fingerprint : String) : Action :=
  typing id (.sendText text) reason fingerprint ["TARGET_IDENTITY_MATCHES"]

def submitText (id text reason fingerprint : String) : Action :=
  typing id (.submitText text) reason fingerprint ["TARGET_IDENTITY_MATCHES","COMPOSER_EMPTY"]

end Action

def waitAction (id : String) (kind : ActionKind) (reason : String) (event : Event) : Action :=
  (Action.new id kind reason event.evidenceFingerprint 30).expecting []
    ⟨"WAIT_STATE_RECORDED",none⟩

def BuiltinRecipes.actionFor (watcher : WatcherState) : Option Action := do
  let event ← watcher.lastObservation
  guard (event.policyHint = .waitAllowed
    ∧ (event.category = .waitingForModel ∨ event.category = .waitingForTool))
  let action := waitAction "builtin.wait" (.waitDuration 60) "explicit wait-allowed observation"
    event
  return { action with
    preconditions := action.preconditions ++ [⟨"PROCESS_ALIVE",none⟩,
      ⟨"EVENT_CATEGORY_IS",some (.string event.category.debugUpper)⟩] }

def hash64 (value : String) : Nat :=
  ((utf8Bytes value).foldl (fun (hash : UInt64) (byte : UInt8) =>
    (hash ^^^ byte.toUInt64) * 0x100000001b3) 0xcbf29ce484222325).toNat

def backoffSeconds (attempt entropy cap : Nat) : Nat :=
  entropy % (min (2 ^ min attempt 10 * 5) (max cap 1) + 1)

def eventBackoff (event : Event) (revision cap : Nat) : Nat :=
  max (backoffSeconds (revision % 2 ^ 32) (hash64 event.evidenceFingerprint) cap) 1

namespace ClaudeRecipes

def toI8 (n : Int) : Option Int := if -128 ≤ n ∧ n ≤ 127 then some n else none

def menuKeys (moves : Int) : List String :=
  List.replicate moves.natAbs (if moves < 0 then "UP" else "DOWN") ++ ["ENTER"]

def menuAction (event : Event) : Option Action := do
  let moves ← (← event.metadata["claude_menu_moves"]?).asI64.bind toI8
  return (Action.new "claude.select_wait_menu" (.sendKeys (menuKeys moves))
    "trusted stable Claude labelled wait menu" event.evidenceFingerprint 30).expecting
      [⟨"PROCESS_ALIVE",none⟩,⟨"NO_HUMAN_INTERVENTION",none⟩,⟨"MENU_STABLE",none⟩]
      ⟨"MENU_DISMISSED",none⟩

/-- The wait ends the margin of the event's reset after the reset itself. -/
def waitForReset [OffsetTexts] (event : Event) : Option Action := do
  let stamp ← event.metadataStr "claude_reset_at"
  let reset ← Chrono.parseFromRfc3339 stamp
  let margin ← toI64 ((event.reset.bind (·.marginSeconds)).getD 30)
  return waitAction "claude.wait_for_reset"
    (.waitUntil (OffsetTexts.toRfc3339At stamp (reset + margin * nanosPerSec)))
    "correlated Claude reset time" event

def overloadWait (event : Event) (revision : Nat) : Action :=
  waitAction "claude.terminal_overload_wait" (.waitDuration (eventBackoff event revision 300))
    "terminal Claude overload after native retry ended" event

def resumeAction (event : Event) : Option Action := do
  let session ← event.metadataStr "claude_resume_session"
  return (Action.sendText "claude.resume_once" "Continue exactly where you left off."
    "reset elapsed and live Claude target revalidated" event.evidenceFingerprint).expecting
      [⟨"PROCESS_ALIVE",none⟩,⟨"NO_HUMAN_INTERVENTION",none⟩,⟨"COMPOSER_EMPTY",none⟩,
        ⟨"CLAUDE_RESUME_SESSION",some (.string session)⟩]
      ⟨"CLAUDE_PROGRESS",some (.string session)⟩

def hookAction [OffsetTexts] (event : Event) (revision : Nat) : Option Action :=
  if isLimit event.category ∧ event.policyHint = .waitAllowed then waitForReset event
  else if event.category = .transientOverload ∧ event.terminal = true then
    some (overloadWait event revision)
  else if event.category = .waitingForModel ∧ event.policyHint = .deterministicActionAllowed
      ∧ event.metadata["claude_resume"]? = some (.bool true) then resumeAction event
  else none

def actionFor [OffsetTexts] (watcher : WatcherState) : Option Action := do
  let event ← watcher.lastObservation
  if event.source.kind = .screenDetection ∧ event.source.sourceId = "claude"
      ∧ isLimit event.category ∧ event.policyHint = .deterministicActionAllowed then
    menuAction event
  else if isStopFailure event then hookAction event watcher.revision
  else BuiltinRecipes.actionFor watcher

end ClaudeRecipes

def isCodexResume (event : Event) : Bool :=
  event.metadata["codex_resume"]? == some (.bool true)

namespace CodexRecipes

def capacityWait (event : Event) (revision cap : Nat) : Action :=
  waitAction "codex.capacity_backoff_wait" (.waitDuration (eventBackoff event revision cap))
    "transient Codex capacity block with durable blocked goal" event

def resumeId : String := "codex.goal_resume_once"

def resumeAction (event : Event) (command : String) : Option Action := do
  let goalState ← event.metadataStr "goal_state"
  guard (goalState = "blocked" ∨ goalState = "paused")
  return (Action.submitText resumeId command
    "durable Codex goal blocked after capacity backoff; composer revalidated"
    event.evidenceFingerprint).expecting
      [⟨"PROCESS_ALIVE",none⟩,⟨"NO_HUMAN_INTERVENTION",none⟩,
        ⟨"GOAL_STATE_IS",some (.string goalState)⟩]
      ⟨"GOAL_ACTIVE_OR_PURSUING",none⟩

def resumeCommand : String := "/goal resume"

def backoffCapSeconds : Nat := 300

/-- A resume is proposed once: not again after it was marked as sent. -/
def actionFor (watcher : WatcherState) : Option Action := do
  let event ← watcher.lastObservation
  if event.source.sourceId ≠ "codex" then BuiltinRecipes.actionFor watcher
  else if event.category = .capacityBlock ∧ event.policyHint = .waitAllowed
      ∧ event.metadata["codex_capacity_block"]? = some (.bool true) then
    some (capacityWait event watcher.revision backoffCapSeconds)
  else if event.category = .waitingForModel ∧ event.policyHint = .deterministicActionAllowed
      ∧ isCodexResume event then
    if event.metadataStr "codex_resume_sent_fingerprint" = some event.evidenceFingerprint then none
    else resumeAction event resumeCommand
  else if event.policyHint = .humanRequired then none
  else BuiltinRecipes.actionFor watcher

end CodexRecipes

def manifestLabel : List Char := "manifest.".toList

structure ManifestRecipes where
  actionFor : WatcherState → Option Action
  named : ∀ w a, actionFor w = some a → manifestLabel <+: a.actionId.toList

namespace CompositeRecipes

def isCodexEvent (event : Event) : Bool :=
  "codex".toList.isPrefixOf event.source.sourceId.toList
    || event.metadata.contains "codex_capacity_block" || event.metadata.contains "codex_resume"

def actionFor [OffsetTexts] (manifests : ManifestRecipes) (watcher : WatcherState) :
    Option Action := do
  let event ← watcher.lastObservation
  if isCodexEvent event then CodexRecipes.actionFor watcher
  else
    ((ClaudeRecipes.actionFor watcher).or (CodexRecipes.actionFor watcher)).or
      (manifests.actionFor watcher)

end CompositeRecipes

def carriesResume (watcher : WatcherState) : Bool := watcher.lastObservation.any isCodexResume

theorem BuiltinRecipes.actionId_eq (h : BuiltinRecipes.actionFor w = some a) :
    a.actionId = "builtin.wait" := by
  unfold BuiltinRecipes.actionFor at h
  obtain ⟨event,-,h⟩ := Option.bind_eq_some_iff.1 h
  obtain ⟨-,-,h⟩ := Option.bind_eq_some_iff.1 h
  cases h
  rfl

theorem CodexRecipes.resume_carries (h : CodexRecipes.actionFor w = some a)
    (hid : a.actionId = resumeId) : carriesResume w = true := by
  have hbuiltin : BuiltinRecipes.actionFor w ≠ some a := by
    intro h
    rw [BuiltinRecipes.actionId_eq h] at hid
    exact absurd hid (by decide)
  unfold CodexRecipes.actionFor at h
  obtain ⟨event,hevent,h⟩ := Option.bind_eq_some_iff.1 h
  split at h
  · exact (hbuiltin h).elim
  · split at h
    · cases h
      change "codex.capacity_backoff_wait" = resumeId at hid
      exact absurd hid (by decide)
    · split at h
      · next hresume => simp [carriesResume,hevent,hresume.2.2]
      · split at h
        · cases h
        · exact (hbuiltin h).elim

theorem ClaudeRecipes.actionId_mem [OffsetTexts] (h : ClaudeRecipes.actionFor w = some a) :
    a.actionId ∈ ["claude.select_wait_menu",
      "claude.wait_for_reset","claude.terminal_overload_wait","claude.resume_once",
      "builtin.wait"] := by
  unfold ClaudeRecipes.actionFor at h
  obtain ⟨event,-,h⟩ := Option.bind_eq_some_iff.1 h
  split at h
  · unfold menuAction at h
    obtain ⟨value,-,h⟩ := Option.bind_eq_some_iff.1 h
    obtain ⟨moves,-,h⟩ := Option.bind_eq_some_iff.1 h
    cases h
    simp [Action.expecting,Action.new]
  · split at h
    · unfold hookAction at h
      split at h
      · unfold waitForReset at h
        obtain ⟨stamp,-,h⟩ := Option.bind_eq_some_iff.1 h
        obtain ⟨reset,-,h⟩ := Option.bind_eq_some_iff.1 h
        obtain ⟨margin,-,h⟩ := Option.bind_eq_some_iff.1 h
        cases h
        simp [waitAction,Action.expecting,Action.new]
      · split at h
        · cases h
          simp [overloadWait,waitAction,Action.expecting,Action.new]
        · split at h
          · unfold resumeAction at h
            obtain ⟨session,-,h⟩ := Option.bind_eq_some_iff.1 h
            cases h
            simp [Action.sendText,Action.typing,Action.expecting,Action.new]
          · cases h
    · rw [BuiltinRecipes.actionId_eq h]
      simp

theorem CompositeRecipes.resume_carries [OffsetTexts] {manifests : ManifestRecipes}
    (h : CompositeRecipes.actionFor manifests w = some a) (hid : a.actionId = CodexRecipes.resumeId) :
    carriesResume w = true := by
  unfold CompositeRecipes.actionFor at h
  obtain ⟨event,-,h⟩ := Option.bind_eq_some_iff.1 h
  split at h
  · exact CodexRecipes.resume_carries h hid
  · rcases Option.or_eq_some_iff.1 h with h | ⟨-,h⟩
    · rcases Option.or_eq_some_iff.1 h with h | ⟨-,h⟩
      · have hmem := ClaudeRecipes.actionId_mem h
        rw [hid] at hmem
        exact absurd hmem (by decide)
      · exact CodexRecipes.resume_carries h hid
    · have hnamed := manifests.named w a h
      rw [hid] at hnamed
      exact absurd hnamed (by decide)

end WatchMe
