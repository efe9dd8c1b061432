import Mathlib.Algebra.Order.Ring.Int
import WatchMe.Daemon.Executor
import WatchMe.Policy

/-! # The two readings of a deadline

The policy compares a deadline with the wall time in whole seconds, rounded towards zero; the
runtime services compare it with the same time in milliseconds, rounded down. A deadline that
lies less than a second in the past, or less than a second beyond the budget, is authorised.
-/
namespace WatchMe
open Executor

/-- `now_ms` at an instant: milliseconds since the epoch, and 0 before it. -/
def wallMs (nanos : Int) : Nat := (nanos.fdiv 1000000).toNat

theorem wallMs_eq (nanos : Int) : wallMs nanos = (nanos / 1000000).toNat := by
  rw [wallMs,Int.fdiv_eq_ediv_of_nonneg nanos (by decide)]

theorem tdiv_second_cases (nanos : Int) :
    (0 ≤ nanos ∧ nanos.tdiv 1000000000 = nanos / 1000000000) ∨
      (nanos < 0 ∧ nanos.tdiv 1000000000 = -(-nanos / 1000000000)) := by
  rcases le_or_gt 0 nanos with hsign | hsign
  · exact .inl ⟨hsign,Int.tdiv_eq_ediv_of_nonneg hsign⟩
  · refine .inr ⟨hsign,?_⟩
    rw [← Int.tdiv_eq_ediv_of_nonneg (by omega),Int.neg_tdiv,Int.neg_neg]

section
variable [Chrono] {at_ now : String} {deadline current : Int}

theorem waitUntilSeconds_eq_some_iff (hat : Chrono.parseFromRfc3339 at_ = some deadline)
    (hnow : Chrono.parseFromRfc3339 now = some current) {seconds : Nat} :
    waitUntilSeconds at_ (some now) = some seconds ↔
      current - 1000000000 < deadline ∧
        seconds = ((deadline - current).tdiv 1000000000).toNat := by
  have hsign : 0 ≤ (deadline - current).tdiv 1000000000 ↔ current - 1000000000 < deadline := by
    have hcases := tdiv_second_cases (deadline - current)
    omega
  simp only [waitUntilSeconds,hat,hnow,Option.bind_eq_bind,Option.bind_some]
  split
  · rename_i h
    simp [hsign.1 h,eq_comm]
  · rename_i h
    simp [mt hsign.2 h]

omit [Chrono] in
theorem monotonicSeconds_digit {c : Char} (hfirst : at_.toList.head? = some c)
    (hdigit : c.isDigit = true) : monotonicSeconds at_ = none := by
  unfold monotonicSeconds
  refine if_neg fun hlabel => ?_
  obtain ⟨rest,hrest⟩ := List.isPrefixOf_iff_prefix.1 hlabel
  rw [← hrest] at hfirst
  cases (Option.some.inj hfirst : 'm' = c)
  exact absurd hdigit (by decide)

theorem parseWaitDeadline_ok_iff (hmonotonic : monotonicSeconds at_ = none)
    (hat : Chrono.parseFromRfc3339 at_ = some deadline) :
    parseWaitDeadline at_ (wallMs current) = .ok (wallMs deadline) ↔
      0 ≤ deadline ∧ wallMs current ≤ wallMs deadline := by
  have hepoch : deadline.fdiv 1000000 < 0 ↔ ¬ 0 ≤ deadline := by
    rw [Int.fdiv_eq_ediv_of_nonneg deadline (by decide)]
    omega
  simp only [parseWaitDeadline,hmonotonic,hat,hepoch]
  rw [← wallMs.eq_1 deadline]
  by_cases hpast : 0 ≤ deadline
  · rw [if_neg (not_not.2 hpast)]
    split <;> rename_i hlate
    · simp [hlate]
    · simp [hpast,not_lt.1 hlate]
  · simp [hpast]

/-- What an authorised wait should be: it ends in the future, within the budget, and it is
scheduled for its deadline. -/
def WaitHonoured (at_ : String) (deadline current : Int) (remaining : Nat) : Prop :=
  current ≤ deadline ∧ deadline - current ≤ remaining * 1000000000 ∧
    parseWaitDeadline at_ (wallMs current) = .ok (wallMs deadline)

theorem waitRefusal_until {context : PolicyContext}
    (h : waitRefusal (.waitUntil at_) context = .ok ()) :
    ∃ seconds, waitUntilSeconds at_ context.wallTimeRfc3339 = some seconds ∧
      seconds ≤ context.cumulativeWaitRemainingSeconds := by
  unfold waitRefusal at h
  dsimp only at h
  split at h
  · cases h
  · rename_i seconds hseconds
    simp only [refuseIf_ok_iff,decide_eq_false_iff_not,not_lt] at h
    exact ⟨seconds,hseconds,h⟩

def waitFor (at_ : String) : Action where
  kind := .waitUntil at_
  actionId := "generic.wait"
  reason := "the agent waits for its limit"
  preconditions := []
  expectedOutcomes := [⟨"WAIT_STATE_RECORDED",none⟩]
  timeoutSeconds := 60

def waitContext (now : String) (remaining : Nat) : PolicyContext :=
  { PolicyContext.safe with
    cumulativeWaitRemainingSeconds := remaining
    wallTimeRfc3339 := some now }

theorem authorize_waitFor {seconds remaining : Nat}
    (hat : Chrono.parseFromRfc3339 at_ = some deadline)
    (hseconds : waitUntilSeconds at_ (some now) = some seconds) (hle : seconds ≤ remaining) :
    authorize (waitFor at_) (waitContext now remaining) = .ok () := by
  have hvalid : (waitFor at_).validate = .ok () := by
    have hdate : validDatetime at_ = true := by simp [validDatetime,hat]
    simp only [Action.validate,waitFor,check_ok_iff,refuseIf_ok_iff,Action.validVariant,hdate]
    exact ⟨rfl,rfl,rfl,rfl⟩
  simp only [authorize,check_ok_iff,refuseIf_ok_iff,hvalid]
  simp [waitRefusal,waitFor,waitContext,hseconds,PolicyContext.safe,plannerEscalation,
    secondOpinion,kindAllowed,refuseIf,Nat.not_lt.2 hle]

/-- Every wait that is authorised is honoured, unless the deadline lies in the second before the
present time, in the second behind the end of the budget or before the epoch. -/
theorem authorized_waits_honoured_iff {remaining : Nat}
    (hat : Chrono.parseFromRfc3339 at_ = some deadline)
    (hnow : Chrono.parseFromRfc3339 now = some current)
    (hyear : ∃ c, at_.toList.head? = some c ∧ c.isDigit = true) :
    (∀ action context, action.kind = .waitUntil at_ → context.wallTimeRfc3339 = some now →
        context.cumulativeWaitRemainingSeconds = remaining →
        authorize action context = .ok () → WaitHonoured at_ deadline current remaining) ↔
      deadline ≤ current - 1000000000 ∨ (remaining + 1) * 1000000000 ≤ deadline - current ∨
        (current ≤ deadline ∧ deadline - current ≤ remaining * 1000000000 ∧ 0 ≤ deadline) := by
  obtain ⟨c,hfirst,hdigit⟩ := hyear
  have hparse : parseWaitDeadline at_ (wallMs current) = .ok (wallMs deadline) ↔ _ :=
    parseWaitDeadline_ok_iff (monotonicSeconds_digit hfirst hdigit) hat
  have hround := tdiv_second_cases (deadline - current)
  constructor
  · intro h
    -- a wait that the policy would refuse needs nothing
    by_contra hnot
    push Not at hnot
    obtain ⟨hlate,hlong,hbroken⟩ := hnot
    have hseconds := (waitUntilSeconds_eq_some_iff hat hnow).2 ⟨hlate,rfl⟩
    have hle : ((deadline - current).tdiv 1000000000).toNat ≤ remaining := by omega
    have hhonoured := h _ _ rfl rfl rfl (authorize_waitFor hat hseconds hle)
    have hdeadline := (hparse.1 hhonoured.2.2).1
    exact absurd hdeadline (not_le.2 (hbroken hhonoured.1 hhonoured.2.1))
  · intro hcase action context hkind hwall hremaining h
    obtain ⟨seconds,hseconds,hle⟩ := waitRefusal_until (hkind ▸ authorize_wait h)
    rw [hwall] at hseconds
    rw [hremaining] at hle
    obtain ⟨hlate,rfl⟩ := (waitUntilSeconds_eq_some_iff hat hnow).1 hseconds
    obtain hpast | hlong | ⟨hfuture,hwithin,hepoch⟩ := hcase
    · omega
    · omega
    · exact ⟨hfuture,hwithin,hparse.2 ⟨hepoch,by rw [wallMs_eq,wallMs_eq]; omega⟩⟩

end

namespace Sample

@[reducible] def halfSeconds : Chrono where
  parseFromRfc3339
    | "2026-01-01T00:00:00Z" => some 1767225600000000000
    | "2026-01-01T00:00:00.500Z" => some 1767225600500000000
    | "2026-01-01T00:00:01Z" => some 1767225601000000000
    | _ => none

end Sample

theorem authorized_wait_honoured_second :
    let _ := Sample.halfSeconds
    authorize (waitFor "2026-01-01T00:00:01Z") (waitContext "2026-01-01T00:00:00Z" 1) = .ok () ∧
      WaitHonoured "2026-01-01T00:00:01Z" 1767225601000000000 1767225600000000000 1 := by
  intro _
  have hauthorized : authorize (waitFor "2026-01-01T00:00:01Z")
      (waitContext "2026-01-01T00:00:00Z" 1) = .ok () := by decide
  exact ⟨hauthorized,(authorized_waits_honoured_iff rfl rfl ⟨'2',rfl,rfl⟩).2
    (.inr (.inr (by decide))) _ _ rfl rfl rfl hauthorized⟩

/-- A deadline half a second ago is authorised and then not scheduled; one half a second ahead is
authorised without any budget. -/
theorem authorized_wait_past :
    let _ := Sample.halfSeconds
    (authorize (waitFor "2026-01-01T00:00:00Z") (waitContext "2026-01-01T00:00:00.500Z" 0) =
        .ok () ∧
      parseWaitDeadline "2026-01-01T00:00:00Z" (wallMs 1767225600500000000) =
        .error "wait deadline is in the past") ∧
    authorize (waitFor "2026-01-01T00:00:00.500Z") (waitContext "2026-01-01T00:00:00Z" 0) =
      .ok () := by
  intro _
  exact ⟨⟨by decide,by decide⟩,by decide⟩

end WatchMe
