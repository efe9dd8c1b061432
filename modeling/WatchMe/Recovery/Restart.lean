import WatchMe.Recovery.Holding

/-! # Side effects survive a restart

Whatever fails between the executor's call and the last record, and wherever the daemon
crashes, the ledger does not call a transaction harmless that may have sent input.
-/
namespace WatchMe
open Effects Transaction

namespace Ledger
variable {L L' : Ledger} {c : StoreCall}

def trail (L : Ledger) (target key : String) : List ActionRecord :=
  (L.auditOf target).filter fun r => r.idempotencyKey == key

/-- The ledger has no `Failed` record of the key, and its last one is final or active. -/
structure Accounted (L : Ledger) (target key : String) : Prop where
  unfailed : ∀ t, ∀ r ∈ L.auditOf t, r.idempotencyKey = key → r.phase ≠ .failed
  last : (∃ r, (L.trail target key).getLast? = some r ∧
      (r.phase = .succeeded ∨ r.phase = .humanRequired)) ∨
    ∃ r, L.activeOf target = some r ∧ r.idempotencyKey = key ∧ r.phase.committed = true

/-- The call records no `Failed`, and leaves a final or an active record. -/
structure Candid (c : StoreCall) : Prop where
  unfailed : ∀ r ∈ c.records, r.phase ≠ .failed
  last : (∃ r, c.records.getLast? = some r ∧ (r.phase = .succeeded ∨ r.phase = .humanRequired)) ∨
    ∃ r, c.slot = some r ∧ r.phase.committed = true

theorem Extends.trail_self (h : Extends L c L') :
    L'.trail c.target c.key = L.trail c.target c.key ++ c.records := by
  have hall : c.records.filter (fun r => r.idempotencyKey == c.key) = c.records := by
    rw [List.filter_eq_self]
    intro r hr
    simp [StoreCall.key_of_mem_records hr]
  rw [trail,h.audit_self,List.filter_append,hall,trail]

theorem Extends.trail_other (h : Extends L c L') {key : String} (hkey : c.key ≠ key)
    (target : String) : L'.trail target key = L.trail target key := by
  have hnone : c.records.filter (fun r => r.idempotencyKey == key) = [] := by
    rw [List.filter_eq_nil_iff]
    intro r hr
    simp [StoreCall.key_of_mem_records hr,hkey]
  by_cases hu : target = c.target
  · subst hu
    rw [trail,h.audit_self,List.filter_append,hnone,List.append_nil,trail]
  · rw [trail,h.audit_other target hu,trail]

theorem mem_trail {target key : String} {r : ActionRecord}
    (hr : (L.trail target key).getLast? = some r) :
    r ∈ L.auditOf target ∧ r.idempotencyKey = key := by
  have hmem := List.mem_of_getLast? hr
  simpa [trail] using hmem

theorem Accounted.extends_other {target key : String} (hL : L.Accounted target key)
    (h : Extends L c L') (hkey : c.key ≠ key) : L'.Accounted target key := by
  constructor
  · intro t r hr hk
    rcases h.mem_audit hr with hr | ⟨-,hnew⟩
    · exact hL.unfailed t r hr hk
    · exact absurd ((StoreCall.key_of_mem_records hnew).symm.trans hk) hkey
  · rcases hL.last with ⟨r,hr,hphase⟩ | ⟨r,hr,hk,hphase⟩
    · exact .inl ⟨r,(h.trail_other hkey target).symm ▸ hr,hphase⟩
    · exact .inr ⟨r,h.active_keep hr (hk ▸ hkey.symm),hk,hphase⟩

theorem Accounted.target_eq {target : String} (hL : L.Accounted target c.key) (hv : L.Valid)
    (h : Extends L c L') (hknown : c.key ∈ L.idempotency) : c.target = target := by
  rcases hL.last with ⟨r,hr,hphase⟩ | ⟨r,hr,hk,-⟩
  · obtain ⟨hmem,hkey⟩ := mem_trail hr
    have hterm : r.phase.isTerminal = true := by
      rcases hphase with hphase | hphase <;> rw [hphase] <;> rfl
    exact absurd hkey (hv.terminal_key h hmem hterm)
  · rcases h.owner with ⟨-,hfresh⟩ | ⟨current,hcur,hck⟩
    · exact absurd hknown hfresh
    · exact hv.active_unique _ _ _ _ hcur hr (hck.trans hk.symm)

theorem Accounted.extends_self {target : String} (hL : L.Accounted target c.key) (hv : L.Valid)
    (h : Extends L c L') (hknown : c.key ∈ L.idempotency) (hc : Candid c) (hadm : c.Admissible) :
    L'.Accounted target c.key := by
  obtain rfl := hL.target_eq hv h hknown
  constructor
  · intro t r hr hk
    rcases h.mem_audit hr with hr | ⟨-,hnew⟩
    · exact hL.unfailed t r hr hk
    · exact hc.unfailed r hnew
  · rcases hc.last with ⟨r,hr,hphase⟩ | ⟨r,hslot,hphase⟩
    · refine .inl ⟨r,?_,hphase⟩
      rw [h.trail_self,List.getLast?_append,hr]
      rfl
    · exact .inr ⟨r,h.active_self.trans hslot,slot_key hadm hslot,hphase⟩

theorem Valid.accounted (hv : L.Valid) {c : Claim} (hc : L.Holds c)
    (hphase : c.record.phase.committed = true) :
    L.Accounted c.job.target c.record.idempotencyKey := by
  obtain ⟨r,hr,hnames⟩ := hc
  constructor
  · intro t r' hr' hkey hfailed
    have hterm : r'.phase.isTerminal = true := by rw [hfailed]; rfl
    exact hv.final t r' hr' hterm _ r hr (hnames.key.trans hkey.symm)
  · exact .inr ⟨r,hr,hnames.key,hnames.committed hphase⟩

theorem Accounted.trail_last {target key : String} (hL : L.Accounted target key) (hv : L.Valid) :
    ∃ r, (L.trail target key).getLast? = some r ∧
      (r.phase = .succeeded ∨ r.phase = .humanRequired ∨
        (r.phase.committed = true ∧ L.activeOf target = some r)) := by
  rcases hL.last with ⟨r,hr,hphase⟩ | ⟨r,hr,hk,hphase⟩
  · exact ⟨r,hr,hphase.imp_right .inl⟩
  · refine ⟨r,?_,.inr (.inr ⟨hphase,hr⟩)⟩
    obtain ⟨pre,hpre⟩ := List.getLast?_eq_some_iff.1 (hv.active_last target r hr).2
    rw [trail,hpre,List.filter_append,List.getLast?_append]
    simp [hk]

end Ledger

/-- Every call but a claim is candid, except for the `Failed` of a run that knows that
nothing was sent and of a recovery that found its record `Prepared`. -/
theorem Course.candid {call : TxCall} {h : List TxEvent} {s : Stage} {c : StoreCall}
    (hc : Course h s call) (hi : s.Issues c) :
    Ledger.Candid c ∨ (∃ t r, c = .claimPrepared t r) ∨
      (∃ d error, s = .failing d error ∧ c.key = d.record.idempotencyKey) ∨
      ∃ t r terminal, s = .reaping t r terminal ∧ r.phase = .prepared ∧
        c.key = r.idempotencyKey := by
  cases hi with
  | claim => exact .inr (.inl ⟨_,_,rfl⟩)
  | @append s d r hd hkey hphase =>
    rcases hphase with hphase | hphase | ⟨-,error,hs⟩
    · refine .inl ⟨?_,.inr ⟨r,?_,hphase⟩⟩
      · simp only [StoreCall.records,List.mem_singleton,forall_eq]
        intro hfailed
        rw [hfailed] at hphase
        cases hphase
      · cases hr : r.phase <;> simp_all [StoreCall.slot,ActionPhase.isTerminal,
          ActionPhase.committed]
    · refine .inl ⟨?_,.inl ⟨r,rfl,.inl hphase⟩⟩
      simp [StoreCall.records,hphase]
    · exact .inr (.inr (.inl ⟨d,error,hs,hkey⟩))
  | escalate =>
    refine .inl ⟨?_,.inl ⟨_,rfl,.inr rfl⟩⟩
    simp [StoreCall.records,Ledger.uncertainRecord,Ledger.humanRecord,ActionRecord.next]
  | @reap t r terminal =>
    obtain ⟨hkey,hphase⟩ := hc.reaping_spec
    by_cases hprep : r.phase = .prepared
    · exact .inr (.inr (.inr ⟨t,r,terminal,rfl,hprep,hkey⟩))
    · rw [ActionPhase.reaped,if_neg hprep] at hphase
      exact .inl ⟨by simp [StoreCall.records,hphase],.inl ⟨terminal,rfl,.inr hphase⟩⟩

/-- Recovery after a restart runs alone: not beside runs, and not beside `recover_stale`. -/
def restartAlone : Discipline txSig TxCall TxResult JsonActionStore
  | V, .spawn (.run _) => ∀ v ∈ V.threads, v.Running → ∀ target, v.call ≠ .recoverAfterRestart target
  | V, .spawn (.recoverAfterRestart _) => ∀ v ∈ V.threads, v.Running → ∀ job, v.call ≠ .run job
  | _, .spawn (.recoverStale _) => False
  | _, _ => True

/-- The call has executed under the key and no answer excludes that input was sent: the
executor returned `Ok` or `PossibleSideEffect`, or has not returned. -/
def SideEffect (call : TxCall) (h : List TxEvent) (key : String) : Prop :=
  key ∈ executedKeys call h ∧ ∀ answer ∈ returns h, MaySend answer

section Pool
variable [Chrono] [Render] {P P' : Pool stageMachine JsonActionStore} {l : Label txSig TxCall}
variable {k : String} {i : Nat} {t : Thread stageMachine} {e : TxEvent} {σ' : Stage}

/-- The key is known, no live run has it, and no call has passed its boundary with it. -/
structure Dead (P : Pool stageMachine JsonActionStore) (k : String) : Prop where
  owned : Owned P k (fun _ => False)
  uncommitted : Uncommitted P k

theorem Dead.step (hP : Dead P k) (hsound : P.shared.Sound) (hcourse : OnCourse P)
    (hs : Pool.Step recoveryWorld P l P') : Dead P' k := by
  refine ⟨hP.owned.step hsound hcourse hs,hP.uncommitted.step hcourse hs ?_⟩
  rintro i t c e - ht hrun hstate - - rfl
  have hclaim : t.state.claim? = some c := by rw [hstate]; rfl
  obtain ⟨job,n,answers,phase,hcall,-⟩ := (hcourse i t ht).held hclaim
  exact hP.owned.2 i t job ht hrun hcall ((hcourse i t ht).claim_mem hclaim)

structure Separate (P : Pool stageMachine JsonActionStore) : Prop where
  fresh : ∀ (i : Nat) (t : Thread stageMachine) (target : String), P.threads[i]? = some t →
    t.call ≠ .recoverStale target
  alone : ∀ (i j : Nat) (t u : Thread stageMachine) (job : Job) (target : String),
    P.threads[i]? = some t → P.threads[j]? = some u → t.view.Running → u.view.Running →
    t.call = .run job → u.call ≠ .recoverAfterRestart target

theorem Separate.step (hP : Separate P) (hd : restartAlone P.view l)
    (hs : Pool.Step recoveryWorld P l P') : Separate P' := by
  have hview : ∀ {i : Nat} {t : Thread stageMachine}, P.threads[i]? = some t →
      t.view ∈ P.view.threads := fun ht => List.mem_map_of_mem (List.mem_of_getElem? ht)
  constructor
  · intro i t target ht
    rcases step_thread hs ht with ⟨call,rfl,rfl⟩ | ⟨u,hu,hcall,-⟩
    · rintro rfl
      exact hd
    · exact hcall ▸ hP.fresh i u target hu
  · intro i j t u job target ht hu hrt hru hcall
    rcases step_thread hs ht with ⟨call,rfl,rfl⟩ | ⟨v,hv,hcv,hrv⟩ <;>
      rcases step_thread hs hu with ⟨call',hcall',rfl⟩ | ⟨w,hw,hcw,hrw⟩
    · cases hcall'
      rw [hcall]
      exact TxCall.noConfusion
    · cases hcall
      exact hcw ▸ hd _ (hview hw) (hrw hru) target
    · subst hcall'
      rintro rfl
      exact hd _ (hview hv) (hrv hrt) job (hcv.symm.trans hcall)
    · exact hcw ▸ hP.alone i j v w job target hv hw (hrv hrt) (hrw hru) (hcv.symm.trans hcall)

theorem Separate.restarting (hP : Separate P) (hcourse : OnCourse P) (ht : P.threads[i]? = some t)
    (hstage : ∀ job, ¬ RunCourse job t.history t.state) :
    ∃ target, t.call = .recoverAfterRestart target ∧ RestartCourse target t.state := by
  have hc := hcourse i t ht
  cases hcall : t.call with
  | run job =>
    rw [hcall] at hc
    exact absurd hc (hstage job)
  | recoverStale target => exact absurd hcall (hP.fresh i t target ht)
  | recoverAfterRestart target =>
    rw [hcall] at hc
    exact ⟨target,rfl,hc.1⟩

theorem Separate.exclusive (hP : Separate P) (hcourse : OnCourse P) : Exclusive P := by
  intro i j t u target r terminal c ht hta hstate hu hua hc
  obtain ⟨job,n,answers,phase,hrun,-⟩ := (hcourse j u hu).held hc
  obtain ⟨target',hcall,-⟩ := hP.restarting hcourse ht (by rw [hstate]; exact fun _ => id)
  have hres : stageMachine.result t.state = none := by rw [hstate]; rfl
  exact absurd hcall (hP.alone j i u t job target' hu ht ⟨hua,Stage.result_of_claim? hc⟩
    ⟨hta,hres⟩ hrun)

structure Recovering (P : Pool stageMachine JsonActionStore) : Prop where
  reaping : ∀ (i : Nat) (t : Thread stageMachine) (target : String) (r terminal : ActionRecord),
    P.threads[i]? = some t → t.alive = true → t.state = .reaping target r terminal →
    r.phase = .prepared → Dead P r.idempotencyKey
  failed : ∀ (i : Nat) (t : Thread stageMachine) (target : String), P.threads[i]? = some t →
    t.call = .recoverAfterRestart target → ∀ target' record answer,
    (⟨.append target' record,answer⟩ : TxEvent) ∈ t.history → record.phase = .failed →
    Dead P record.idempotencyKey

theorem Recovering.step {D : Discipline txSig TxCall TxResult JsonActionStore}
    (hr : Pool.Reachable stageMachine recoveryWorld D JsonActionStore.fresh P)
    (hP : Recovering P) (hsep : Separate P) (hs : Pool.Step recoveryWorld P l P') :
    Recovering P' := by
  have hclaimed := reachable_claimed hr
  have hcourse := reachable_onCourse hr
  have hdead : ∀ {k}, Dead P k → Dead P' k := fun hk => hk.step hclaimed.sound hcourse hs
  constructor
  · intro j u target r terminal hu hua hstate hphase
    cases hs.change hu with
    | spawned call =>
      rcases spawned_state call with ⟨_,hs⟩ | ⟨_,hs⟩ | ⟨_,hs⟩ | ⟨_,hs⟩ <;>
        exact absurd (hs.symm.trans hstate) nofun
    | beside _ hu | waits hu => exact hdead (hP.reaping j u target r terminal hu hua hstate hphase)
    | @acts t _ _ ht hta hm hw =>
      have hrun : t.view.Running := ⟨hta,hm.result_none⟩
      generalize hold : t.state = s at hm
      cases hm with
      | ownerGone =>
        obtain ⟨_,-,hnone⟩ := hsep.restarting hcourse ht (by rw [hold]; exact fun _ => id)
        rw [hold] at hnone
        exact hnone.elim
      | restart =>
        cases hstate
        obtain ⟨⟨host,hactive⟩,-⟩ := hw
        obtain ⟨_,hcall,-⟩ := hsep.restarting hcourse ht (by rw [hold]; exact fun _ => id)
        have hslot := active_eq hactive
        refine hdead ⟨⟨hclaimed.sound.state.active_key hslot,?_⟩,?_⟩
        · intro j u job hu hru hcu _
          exact hsep.alone j _ u t job _ hu ht hru hrun hcu hcall
        · intro j u hu hk
          exact (reachable_past hr j u _ hu hk).1 _ r hslot rfl hphase
      | _ => cases hstate
    | killed => cases hua
  · intro j u target hu hcall target' record answer hmem hphase
    cases hs.change hu with
    | spawned => cases hmem
    | beside _ ht | waits ht | killed ht =>
      exact hdead (hP.failed j _ target ht hcall target' record answer hmem hphase)
    | @acts t _ _ ht hta hm _ =>
      rcases List.mem_append.1 hmem with hmem | hmem
      · exact hdead (hP.failed j t target ht hcall target' record answer hmem hphase)
      · obtain rfl := List.mem_singleton.1 hmem
        have hcall' : t.call = .recoverAfterRestart target := hcall
        have hc := hcourse j t ht
        obtain ⟨r,hstate⟩ := hc.recovery_append (fun job => by rw [hcall']; exact nofun) hm
        rw [hstate] at hc
        obtain ⟨hkey,hreaped⟩ := hc.reaping_spec
        rw [hkey]
        exact hdead (hP.reaping j t target' r record ht hta hstate
          (ActionPhase.reaped_eq_failed.1 (hreaped.symm.trans hphase)))

theorem reachable_recovering
    (hr : Pool.Reachable stageMachine recoveryWorld restartAlone JsonActionStore.fresh P) :
    Holding P ∧ Separate P ∧ Recovering P := by
  refine reachable_holding (J := fun P => Separate P ∧ Recovering P) ?_ ?_ ?_ hr
  · exact ⟨⟨by simp,by simp⟩,by simp,by simp⟩
  · intro P l P' hr _ hJ hd hs
    exact ⟨hJ.1.step hd hs,hJ.2.step hr hJ.1 hs⟩
  · intro P hr hJ
    exact hJ.1.exclusive (reachable_onCourse hr)

end Pool

end WatchMe
