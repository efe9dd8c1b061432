import WatchMe.Audit.Decisions
import WatchMe.Daemon.WaitBudget

/-! # What the log says of the policy

The entry by which the policy allows an action stands in the log as soon as the coordinator has
begun the action. Whether the policy was asked at all, for this action, and what it answered, is
decided after that. So the entry is right exactly in the jobs that later come to an authorisation.
-/
namespace WatchMe
open Effects Program Transaction Service Decisions
variable {h : List DecisionEvent}

section Policy
variable [Chrono] (recipes : WatcherState → Option Action)

end Policy

def PolicyAllowed (h : List DecisionEvent) : Prop :=
  ∃ entry : AuditEvent, entry.IsPolicyAllow ∧ (⟨.inr (.append entry),.ok ()⟩ : DecisionEvent) ∈ h

def allowEntry (watcher : WatcherState) (action : Action) (time : String) : AuditEvent :=
  (decisionChainFromWatcher watcher .policyAllow ("ALLOW " ++ actionTypeLabel action.kind)
    (actionTypeLabel action.kind) "authorized").entry time

/-- The beginning of a job whose action is begun and taken into the log as allowed. -/
def allowing (watcher : WatcherState) (action : Action) (current : WatcherState)
    (created : Except String Unit) (time : String) : List DecisionEvent :=
  [⟨.inl (.daemon .cancellationRequested),false⟩,
    ⟨.inl (.daemon (.beginAction watcher.watcherId (actionFingerprint action))),some current⟩,
    ⟨.inr .createOwnerOnly,created⟩,⟨.inr .stateFile,.ok ()⟩,⟨.inr .openLog,.ok ()⟩,
    ⟨.inr .nowRfc3339,time⟩,⟨.inr (.append (allowEntry watcher action time)),.ok ()⟩]

def LoggedBegin (watcher : WatcherState) (action : Action) (h : List DecisionEvent) : Prop :=
  ∃ current created time, allowing watcher action current created time <+: h

def OnlyBegun (recipes : WatcherState → Option Action) (watcher : WatcherState)
    (h : List DecisionEvent) : Prop :=
  PolicyAllowed h → ∃ action, recipes watcher = some action ∧ LoggedBegin watcher action h

def Unallowing (e : DecisionEvent) : Prop :=
  ∀ entry : AuditEvent, entry.IsPolicyAllow → e ≠ ⟨.inr (.append entry),.ok ()⟩

section Entries
variable {recipes : WatcherState → Option Action} {watcher : WatcherState}
  {h : List DecisionEvent}

theorem OnlyBegun.nil : OnlyBegun recipes watcher [] := by
  rintro ⟨_,-,hmem⟩
  exact absurd hmem List.not_mem_nil

theorem OnlyBegun.snoc {e : DecisionEvent} (hh : OnlyBegun recipes watcher h)
    (he : Unallowing e) : OnlyBegun recipes watcher (h ++ [e]) := by
  rintro ⟨entry,hallow,hmem⟩
  rcases List.mem_append.1 hmem with hmem | hmem
  · obtain ⟨action,haction,current,created,time,hbegin⟩ := hh ⟨entry,hallow,hmem⟩
    exact ⟨action,haction,current,created,time,hbegin.trans (List.prefix_append h [e])⟩
  · exact absurd (List.mem_singleton.1 hmem).symm (he entry hallow)

end Entries

section Jobs
variable [Chrono] [Render] [Digest] {recipes : WatcherState → Option Action}
  {owner : OwnerIdentity} {watcher : WatcherState}

end Jobs

namespace Sample

end Sample

attribute [local instance] Sample.clocks Sample.render Sample.digest

end WatchMe
