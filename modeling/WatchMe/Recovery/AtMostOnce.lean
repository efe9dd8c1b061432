import Mathlib.Data.List.Nodup
import WatchMe.Recovery.Schedules

/-! # At most one execution for each key

A run executes only under the key of its claim, a key is granted once, and a run makes
one claim and one call.
-/
namespace WatchMe
open Effects Transaction
variable {h : List TxEvent}

theorem executedKeys_eq_nil {call : TxCall} (hn : executes h = 0) : executedKeys call h = [] := by
  have hnone : ∀ e ∈ h, isExecute e = false := by
    simpa [executes,List.countP_eq_zero] using hn
  unfold executedKeys
  split
  · rw [List.map_eq_nil_iff,List.filter_eq_nil_iff]
    intro e he
    rw [hnone e (List.mem_cons_of_mem _ he)]
    exact Bool.false_ne_true
  · rfl

theorem RunCourse.over {job : Job} {s : Stage} (hc : RunCourse job h s) : Over job h := by
  cases s with
  | entered =>
    obtain ⟨-,rfl⟩ := hc
    exact .inl ⟨rfl,rfl⟩
  | baselined | authorized | confirmed => exact Idle.over (Reading.idle hc) job
  | prepared => exact Idle.over (Ready.idle hc) job
  | claimed | rechecked | begun => exact Held.over hc (Nat.zero_le 1)
  | calling | returned => exact Held.over hc (Nat.le_refl 1)
  | closing | opening | verifying | polling | checked | sleeping =>
    obtain ⟨output,hh⟩ := hc
    exact hh.over (Nat.le_refl 1)
  | proven =>
    obtain ⟨⟨output,hh⟩,-⟩ := hc
    exact hh.over (Nat.le_refl 1)
  | failing c error =>
    rcases hc with hh | ⟨error,-,hh⟩
    · exact hh.over (Nat.zero_le 1)
    · exact hh.over (Nat.le_refl 1)
  | doubtful =>
    obtain ⟨answer,phase,-,-,hh⟩ := hc
    exact hh.over (Nat.le_refl 1)
  | ended => exact hc
  | restarting | reclaiming | expiring | probing | reaping => exact hc.elim

theorem Course.executed {call : TxCall} {s : Stage} (hc : Course h s call) :
    executedKeys call h = [] ∨ ∃ k ∈ claims h, executedKeys call h = [k] := by
  cases call with
  | run job =>
    rcases RunCourse.over hc with ⟨-,hn⟩ | ⟨b,hopen,hclaims,hn⟩
    · exact .inl (executedKeys_eq_nil hn)
    · rw [hopen.executedKeys job]
      rcases Nat.le_one_iff_eq_zero_or_eq_one.1 hn with hn | hn
      · exact .inl (by rw [hn]; rfl)
      · exact .inr ⟨job.key b,by simp [hclaims],by rw [hn]; rfl⟩
  | recoverStale => exact .inl rfl
  | recoverAfterRestart => exact .inl rfl

variable [Chrono] [Render] {D : Discipline txSig TxCall TxResult JsonActionStore}

theorem executed_nodup {P : Pool stageMachine JsonActionStore}
    (hr : Pool.Reachable stageMachine recoveryWorld D JsonActionStore.fresh P) :
    (P.threads.flatMap fun t => executedKeys t.call t.history).Nodup := by
  have hP := reachable_claimed hr
  have hcourse := fun t ht => (runs_course (hr.runs t ht)).executed
  rw [List.nodup_flatMap]
  constructor
  · intro t ht
    rcases hcourse t ht with hnil | ⟨k,-,hone⟩
    · rw [hnil]
      exact List.nodup_nil
    · rw [hone]
      exact List.pairwise_singleton _ _
  · rw [List.pairwise_iff_getElem]
    intro i j hi hj hij k hki hkj
    -- a key executed by two threads would have been granted to both
    have hmem : ∀ t ∈ P.threads, k ∈ executedKeys t.call t.history → k ∈ claims t.history := by
      intro t ht hk
      rcases hcourse t ht with hnil | ⟨k',hk',hone⟩
      · rw [hnil] at hk
        cases hk
      · rw [hone,List.mem_singleton] at hk
        exact hk ▸ hk'
    have heq := hP.unique i j P.threads[i] P.threads[j] k (List.getElem?_eq_getElem hi)
      (List.getElem?_eq_getElem hj) (hmem _ (List.getElem_mem hi) hki)
      (hmem _ (List.getElem_mem hj) hkj)
    omega

/-- Over all threads that ever ran, crashed and ended ones included, the executor has been
called at most once for each idempotency key. -/
theorem execute_at_most_once {P : Pool txMachine JsonActionStore}
    (hr : Pool.Reachable txMachine recoveryWorld (fun _ _ => True) JsonActionStore.fresh P)
    (key : String) :
    (P.threads.flatMap fun t => executedKeys t.call t.history).count key ≤ 1 := by
  obtain ⟨R,hsim⟩ := txMachine_simulates
  obtain ⟨Q,hQ,hPQ⟩ := hr.similar hsim
  have hview : P.threads.map Thread.view = Q.threads.map Thread.view :=
    congrArg PoolView.threads hPQ.view
  have hsame : (P.threads.flatMap fun t => executedKeys t.call t.history) =
      Q.threads.flatMap fun t => executedKeys t.call t.history := by
    have hmap := congrArg (List.flatMap fun v => executedKeys v.call v.history) hview
    rwa [List.flatMap_map,List.flatMap_map] at hmap
  rw [hsame]
  exact List.nodup_iff_count_le_one.1 (executed_nodup hQ) key

omit [Chrono] [Render] in
theorem execute_at_most_once_resume :
    let _ := Sample.chrono
    let _ := Sample.render
    let key := Sample.resume.key Sample.paused
    ∃ P : Pool txMachine JsonActionStore,
      Pool.Reachable txMachine recoveryWorld (fun _ _ => True) JsonActionStore.fresh P ∧
      (P.threads.flatMap fun t => executedKeys t.call t.history) = [key] ∧
      (P.threads.flatMap fun t => executedKeys t.call t.history).count key ≤ 1 := by
  have hkeys : (Sample.executing.threads.flatMap fun t => executedKeys t.call t.history) =
      [Sample.resume.key Sample.paused] := by
    decide
  intro _ _ key
  have hreach : Pool.Reachable txMachine recoveryWorld (fun _ _ => True) .fresh Sample.executing :=
    (Sample.started_reached trivial).play _ fun _ _ _ => trivial
  exact ⟨_,hreach,hkeys,execute_at_most_once hreach key⟩

end WatchMe
