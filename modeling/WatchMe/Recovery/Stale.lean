import WatchMe.Recovery.Holding
import WatchMe.Recovery.Schedules

/-! # Stale recovery beside a live run

`recover_stale` chooses its terminal record from the phase it has read, and appends it
later under a check that compares key and action but not the phase. As long as the record
is still `Prepared` when `Failed` is appended, that key never was and never will be
executed; a run that moves past its commit boundary in between breaks this.
-/
namespace WatchMe
open Effects Program Transaction

/-- A `recover_stale` call has recorded `Failed` under the key. -/
def StaleFailed (call : TxCall) (h : List TxEvent) (k : String) : Prop :=
  ∃ target target' record, call = .recoverStale target ∧
    (⟨.append target' record,.ok ()⟩ : TxEvent) ∈ h ∧ record.phase = .failed ∧
    record.idempotencyKey = k

/-- Whenever `recover_stale` appends `Failed`, the active record of that key is `Prepared`. -/
def preparedWhenFailed : Discipline txSig TxCall TxResult JsonActionStore
  | V, .act i ⟨.append target record,_⟩ =>
    ∀ v, V.threads[i]? = some v → (∃ target, v.call = .recoverStale target) →
      record.phase = .failed → ∀ current, V.shared.state.activeOf target = some current →
      current.idempotencyKey = record.idempotencyKey → current.phase = .prepared
  | _, _ => True

namespace Ledger

def Closed (L : Ledger) (k : String) : Prop :=
  ∃ t, ∃ r ∈ L.auditOf t, r.idempotencyKey = k ∧ r.phase.isTerminal = true

theorem Extends.closed {L L' : Ledger} {c : StoreCall} {k : String} (h : Extends L c L')
    (hk : L.Closed k) : L'.Closed k := by
  obtain ⟨t,r,hr,hrest⟩ := hk
  exact ⟨t,r,(h.audit_prefix t).subset hr,hrest⟩

theorem Closed.key_ne {L L' : Ledger} {c : StoreCall} {k : String} (hk : L.Closed k)
    (hv : L.Valid) (h : Extends L c L') : c.key ≠ k := by
  obtain ⟨t,r,hr,rfl,hterm⟩ := hk
  exact (hv.terminal_key h hr hterm).symm

end Ledger

section Pool
variable [Chrono] [Render] {P P' : Pool stageMachine JsonActionStore} {k : String}
variable {i : Nat} {t : Thread stageMachine} {l : Label txSig TxCall}

/-- The key is closed in both copies, and no call has passed its boundary with it. -/
structure Buried (P : Pool stageMachine JsonActionStore) (k : String) : Prop where
  closed : P.shared.Both (Ledger.Closed · k)
  uncommitted : Uncommitted P k

theorem Buried.step (hP : Buried P k) (hsound : P.shared.Sound) (hcourse : OnCourse P)
    (hs : Pool.Step recoveryWorld P l P') : Buried P' k := by
  refine ⟨JsonActionStore.Both.step hP.closed hcourse hs fun _ _ _ _ _ _ _ _ hL =>
    hL.extends.closed hP.closed.1,hP.uncommitted.step hcourse hs ?_⟩
  rintro i t c e - - - - hw ⟨reason,rfl⟩
  obtain ⟨host,hw⟩ := hw
  exact hP.closed.1.key_ne hsound.state (JsonActionStore.append_outcome hw).accepted.extends

theorem buried_of_failed {target target' : String} {record : ActionRecord}
    (hpast : Past P) (hcourse : OnCourse P) (ht : P.threads[i]? = some t)
    (hcall : t.call = .recoverStale target)
    (hs : Pool.Step recoveryWorld P (.act i ⟨.append target' record,.ok ()⟩) P')
    (hw : storeAnswers P.shared ⟨.append target' record,.ok ()⟩ P'.shared)
    (hphase : record.phase = .failed)
    (hd : preparedWhenFailed P.view (.act i ⟨.append target' record,.ok ()⟩)) :
    Buried P' record.idempotencyKey := by
  have hview : P.view.threads[i]? = some t.view := by
    rw [Pool.view,List.getElem?_map,ht]
    rfl
  obtain ⟨host,hw⟩ := hw
  have ho := JsonActionStore.append_outcome hw
  have hclosed : P'.shared.Both (Ledger.Closed · record.idempotencyKey) := by
    refine ho.both_of_accepted fun L hL => ?_
    have haudit : L.auditOf target' = _ ++ [record] := hL.extends.audit_self
    exact ⟨target',record,by simp [haudit],rfl,by rw [hphase]; rfl⟩
  have haccepted := ho.accepted
  generalize P'.shared.state = L at haccepted
  cases haccepted with
  | append hcur hkey =>
    have hprep := hd t.view hview ⟨target,hcall⟩ hphase _ hcur hkey
    have hnone : Uncommitted P record.idempotencyKey := fun j u hu hk =>
      (hpast j u _ hu hk).1 target' _ hcur hkey hprep
    refine ⟨hclosed,hnone.step hcourse hs ?_⟩
    -- a recovery does not begin a transaction
    rintro _ u c _ ⟨⟩ hu - hstate - -
    obtain rfl := Option.some.inj (hu.symm.trans ht)
    have hc := hcourse i u hu
    rw [hcall,hstate] at hc
    exact hc.1.elim

theorem reachable_buried
    (hr : Pool.Reachable stageMachine recoveryWorld preparedWhenFailed JsonActionStore.fresh P)
    (ht : P.threads[i]? = some t) (hk : StaleFailed t.call t.history k) : Buried P k := by
  refine hr.invariant (by simp) ?_ i t k ht hk
  intro P l P' hr hP hd hs j u k hu hk
  have hcourse := reachable_onCourse hr
  have hkeep : ∀ {k}, Buried P k → Buried P' k :=
    fun h => h.step (reachable_claimed hr).sound hcourse hs
  cases hs.change hu with
  | spawned =>
    obtain ⟨_,_,_,-,hmem,-⟩ := hk
    cases hmem
  | beside _ ht | waits ht | killed ht => exact hkeep (hP j _ k ht hk)
  | @acts t _ _ ht _ _ hw =>
    obtain ⟨target,target',record,hcall,hmem,hphase,rfl⟩ := hk
    rcases List.mem_append.1 hmem with hmem | hmem
    · exact hkeep (hP j t _ ht ⟨target,target',record,hcall,hmem,hphase,rfl⟩)
    · obtain rfl := List.mem_singleton.1 hmem
      exact buried_of_failed (reachable_past hr) hcourse ht hcall hs hw hphase hd

end Pool

/-- In every schedule in which the record is still `Prepared` whenever `recover_stale`
appends `Failed`, no key it has failed is executed, before or after. -/
theorem stale_failed_unexecuted [Chrono] [Render] {P : Pool txMachine JsonActionStore}
    (hr : Pool.Reachable txMachine recoveryWorld preparedWhenFailed JsonActionStore.fresh P)
    {i j : Nat} {t u : Thread txMachine} {k : String} (ht : P.threads[i]? = some t)
    (hu : P.threads[j]? = some u) (hk : StaleFailed t.call t.history k) :
    k ∉ executedKeys u.call u.history := by
  obtain ⟨R,hsim⟩ := txMachine_simulates
  obtain ⟨Q,hQ,hPQ⟩ := hr.similar hsim
  obtain ⟨t',ht',-,htc,hth⟩ := hPQ.thread ht
  obtain ⟨u',hu',-,huc,huh⟩ := hPQ.thread hu
  rw [← htc,← hth] at hk
  rw [← huc,← huh]
  exact fun hexec => (reachable_buried hQ ht' hk).uncommitted j u' hu' (.inr hexec)

namespace Sample

/-- The clock has passed the lease of the first record, and its owner is not found. -/
def lateOutside : Outside := { outside with mono := 31001, owned := false }

def staleRecord : ActionRecord := expired (prelude.record resume)

def readStale : List (Move recoveryWorld TxCall) :=
  outside.acts 0 6 ++ .spawn (.recoverStale "pane-1") :: lateOutside.acts 1 3

/-- A recovery has read the record of a run that is about to append `Begun`. -/
def staleRead : Pool system JsonActionStore := (started resume).play readStale

def staleFailed : Pool system JsonActionStore := staleRead.next (.act 1 lateOutside.host)

def staleExecuted : Pool system JsonActionStore :=
  (started resume).play (readStale ++ outside.acts 0 2 ++ lateOutside.acts 1 1)

def unfailed : Label txSig TxCall → Bool
  | .act _ ⟨.append _ record,_⟩ => record.phase != .failed
  | _ => true

def failedBeside (t u : Thread system) : Bool :=
  decide (t.call = .run resume ∧ u.call = .recoverStale "pane-1" ∧
    ⟨.append "pane-1" staleRecord,.ok ()⟩ ∈ u.history)

theorem failedBeside_spec {t u : Thread system} (h : failedBeside t u = true) :
    t.call = .run resume ∧ StaleFailed u.call u.history (resume.key paused) := by
  obtain ⟨hrun,hcall,hmem⟩ := of_decide_eq_true h
  exact ⟨hrun,_,_,_,hcall,hmem,rfl,rfl⟩

end Sample

attribute [local instance] Sample.chrono Sample.render

theorem stale_failed_unexecuted_resume :
    let _ := Sample.chrono
    let _ := Sample.render
    let key := Sample.resume.key Sample.prelude.baseline
    ∃ (P : Pool txMachine JsonActionStore) (t u : Thread txMachine),
      Pool.Reachable txMachine recoveryWorld preparedWhenFailed JsonActionStore.fresh P ∧
      P.threads = [t,u] ∧ t.call = .run Sample.resume ∧ StaleFailed u.call u.history key ∧
      key ∉ executedKeys t.call t.history := by
  have hread : Pool.Reachable Sample.system recoveryWorld preparedWhenFailed .fresh
      Sample.staleRead := by
    refine (Sample.started_reached trivial).play_of Sample.unfailed _ (fun V l hl => ?_) (by decide)
    unfold preparedWhenFailed
    split
    · exact fun _ _ _ hphase => by simp [Sample.unfailed,hphase] at hl
    · trivial
  have hstep : Pool.Step recoveryWorld Sample.staleRead
      (.act 1 ⟨.append "pane-1" Sample.staleRecord,.ok ()⟩) Sample.staleFailed :=
    Pool.step_next Sample.lateOutside.host (by decide) (by decide +kernel)
  have hactive : ∀ current ∈ Sample.staleRead.shared.state.activeOf "pane-1",
      current.phase = .prepared := by
    decide
  have hprepared : preparedWhenFailed Sample.staleRead.view
      (.act 1 ⟨.append "pane-1" Sample.staleRecord,.ok ()⟩) :=
    fun _ _ _ _ current hcurrent _ => hactive current hcurrent
  have hfail := hread.step hprepared hstep
  obtain ⟨t,u,hthreads,htest⟩ := Pool.exists_threads (l := Sample.staleFailed.threads)
    Sample.failedBeside (by decide)
  obtain ⟨hrun,hfailed⟩ := Sample.failedBeside_spec htest
  refine ⟨Sample.staleFailed,t,u,hfail,hthreads,hrun,hfailed,?_⟩
  exact stale_failed_unexecuted hfail (i := 1) (j := 0) (by rw [hthreads]; rfl)
    (by rw [hthreads]; rfl) hfailed

/-- The recovery reads `Prepared`, the run appends `Begun` and calls the executor, and the
recovery then appends `Failed`. -/
theorem stale_fails_executed :
    let _ := Sample.chrono
    let _ := Sample.render
    let key := Sample.resume.key Sample.prelude.baseline
    ∃ (P : Pool txMachine JsonActionStore) (t u : Thread txMachine),
      Pool.Reachable txMachine recoveryWorld (fun _ _ => True) JsonActionStore.fresh P ∧
      P.threads = [t,u] ∧ t.call = .run Sample.resume ∧ StaleFailed u.call u.history key ∧
      key ∈ executedKeys t.call t.history := by
  obtain ⟨t,u,hthreads,htest⟩ := Pool.exists_threads (l := Sample.staleExecuted.threads)
    (fun t u => Sample.failedBeside t u && decide (Sample.resume.key Sample.paused ∈
      executedKeys t.call t.history)) (by decide)
  rw [Bool.and_eq_true,decide_eq_true_iff] at htest
  obtain ⟨hrun,hfailed⟩ := Sample.failedBeside_spec htest.1
  exact ⟨_,t,u,(Sample.started_reached trivial).play _ fun _ _ _ => trivial,hthreads,hrun,hfailed,
    htest.2⟩

end WatchMe
