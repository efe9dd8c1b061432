import WatchMe.Recovery.Holding

/-! # One transaction for each target

`recover_stale` acts on a copy of the active record that may be old by the time it appends.
It is harmless to live runs all the same: the probe was asked about the owner of that copy,
so no live run has its key, and the key is never granted again.
-/
namespace WatchMe
open Effects Transaction
variable {s : Stage}

/-- The probe answers `true` for every owner that is still running a transaction, and
recovery is done by `recover_stale` alone. -/
def probeFaithful : Discipline txSig TxCall TxResult JsonActionStore
  | V, .act _ ⟨.ownerMatches owner,false⟩ =>
    ∀ v ∈ V.threads, v.Running → ∀ job, v.call = .run job → job.owner ≠ owner
  | _, .spawn (.recoverAfterRestart _) => False
  | _, _ => True

def InTransaction (target : String) (v : ThreadView txSig TxCall TxResult) : Prop :=
  v.Running ∧ (∃ job, v.call = .run job ∧ job.target = target) ∧ claims v.history ≠ []

def InExecute (target : String) (v : ThreadView txSig TxCall TxResult) : Prop :=
  v.Running ∧ (∃ job, v.call = .run job ∧ job.target = target) ∧
    (returns v.history).length < executes v.history

theorem RunCourse.executes_claims {job : Job} {h : List TxEvent} (hc : RunCourse job h s)
    (hn : 0 < executes h) : claims h ≠ [] := by
  rcases hc.over with ⟨-,hzero⟩ | ⟨b,-,hclaims,-⟩
  · omega
  · rw [hclaims]
    exact List.cons_ne_nil _ _

theorem RunCourse.holds_claim {job : Job} {h : List TxEvent} (hc : RunCourse job h s)
    (hres : s.result = none) (hclaims : claims h ≠ []) : ∃ c, s.claim? = some c := by
  cases s with
  | entered =>
    obtain ⟨-,rfl⟩ := hc
    exact absurd rfl hclaims
  | baselined | authorized | confirmed => exact absurd (Reading.idle hc).claims_nil hclaims
  | prepared => exact absurd (Ready.idle hc).claims_nil hclaims
  | ended => cases hres
  | restarting | reclaiming | expiring | probing | reaping => exact hc.elim
  | claimed | rechecked | begun | calling | returned | closing | opening | verifying | polling
  | checked | sleeping | proven | failing | doubtful => exact ⟨_,rfl⟩

section Pool
variable [Chrono] [Render] {P P' : Pool stageMachine JsonActionStore} {l : Label txSig TxCall}

/-- What a recovery has learnt about the live runs. -/
def Learnt (P : Pool stageMachine JsonActionStore) : Stage → Prop
  | .expiring _ r | .probing _ r => Owned P r.idempotencyKey (fun job => job.owner = r.owner)
  | .reaping _ r _ => Owned P r.idempotencyKey (fun _ => False)
  | .restarting _ => False
  | _ => True

def AllLearnt (P : Pool stageMachine JsonActionStore) : Prop :=
  ∀ (i : Nat) (t : Thread stageMachine), P.threads[i]? = some t → t.alive = true →
    Learnt P t.state

theorem Learnt.mono (hs : Learnt P s)
    (hown : ∀ k φ, Owned P k φ → Owned P' k φ) : Learnt P' s := by
  cases s with
  | expiring | probing | reaping => exact hown _ _ hs
  | restarting => exact hs
  | _ => trivial

theorem Holding.slot (hP : Holding P) {j : Nat} {u : Thread stageMachine} {job : Job}
    (hc : Course u.history u.state u.call) (hu : P.threads[j]? = some u) (hrun : u.view.Running)
    (hcall : u.call = .run job) (hclaims : claims u.history ≠ []) :
    ∃ r, P.shared.state.activeOf job.target = some r ∧ claims u.history = [r.idempotencyKey] ∧
      r.owner = job.owner := by
  have hrunCourse : RunCourse job u.history u.state := by
    rw [hcall] at hc
    exact hc
  obtain ⟨c,hclaim⟩ := hrunCourse.holds_claim hrun.2 hclaims
  obtain ⟨job',n,answers,phase,hcall',hh⟩ := hc.held hclaim
  rw [hcall] at hcall'
  cases hcall'
  obtain ⟨r,hr,hnames⟩ := (hP j u c hu hrun.1 hclaim).1
  refine ⟨r,hh.job_eq ▸ hr,?_,hnames.owner.trans hh.owner⟩
  rw [hh.claims_eq,hnames.key,hh.key]

theorem Holding.owned (hP : Holding P) (hclaimed : Claimed P)
    (hcourse : OnCourse P)
    {target : String} {r : ActionRecord} (hr : P.shared.state.activeOf target = some r) :
    Owned P r.idempotencyKey (fun job => job.owner = r.owner) := by
  refine ⟨hclaimed.sound.state.active_key hr,fun j u job hu hrun hcall hk => ?_⟩
  obtain ⟨r',hr',hclaims,howner⟩ := hP.slot (hcourse j u hu) hu hrun hcall (List.ne_nil_of_mem hk)
  rw [hclaims,List.mem_singleton] at hk
  have htarget := hclaimed.sound.state.active_unique _ _ _ _ hr hr' hk
  rw [htarget,hr'] at hr
  cases hr
  exact howner.symm

theorem Learnt.act {i : Nat} {e : TxEvent} {s' : Stage} {shared : JsonActionStore}
    (hl : Learnt P s) (hP : Holding P) (hclaimed : Claimed P) (hcourse : OnCourse P)
    (hs : s.Step e s') (hd : probeFaithful P.view (.act i e)) (hw : storeAnswers P.shared e shared)
    (hown : ∀ k φ, Owned P k φ → Owned P' k φ) : Learnt P' s' := by
  cases hs with
  | reclaim =>
    obtain ⟨⟨host,hactive⟩,-⟩ := hw
    exact hown _ _ (hP.owned hclaimed hcourse (active_eq hactive))
  | expire => exact hown _ _ hl
  | ownerGone =>
    -- the probe denied the owner of the copy, so no live run can have its key
    refine hown _ _ ⟨hl.1,fun j u job hu hrun hcall hk => ?_⟩
    have hmem : u.view ∈ P.view.threads := List.mem_map_of_mem (List.mem_of_getElem? hu)
    exact hd u.view hmem hrun job hcall (hl.2 j u job hu hrun hcall hk)
  | restart => exact hl.elim
  | _ => trivial

theorem AllLearnt.step
    (hr : Pool.Reachable stageMachine recoveryWorld probeFaithful JsonActionStore.fresh P)
    (hP : Holding P) (hl : AllLearnt P) (hd : probeFaithful P.view l)
    (hs : Pool.Step recoveryWorld P l P') : AllLearnt P' := by
  have hclaimed := reachable_claimed hr
  have hcourse := reachable_onCourse hr
  have hown : ∀ k φ, Owned P k φ → Owned P' k φ := fun k φ ho =>
    ho.step hclaimed.sound hcourse hs
  intro j u hu hua
  cases hs.change hu with
  | spawned call =>
    cases call with
    | run job =>
      change Learnt _ (Stage.startRun job)
      rcases Stage.startRun_cases job with ⟨heq,-⟩ | ⟨r,heq⟩ <;> rw [heq] <;> trivial
    | recoverStale => trivial
    | recoverAfterRestart => exact hd.elim
  | beside _ hu | waits hu => exact (hl j u hu hua).mono hown
  | acts ht hta hm hw => exact (hl j _ ht hta).act hP hclaimed hcourse hm hd hw hown
  | killed => cases hua

theorem AllLearnt.exclusive {D : Discipline txSig TxCall TxResult JsonActionStore}
    (hr : Pool.Reachable stageMachine recoveryWorld D JsonActionStore.fresh P)
    (hl : AllLearnt P) : Exclusive P := by
  intro i j t u target r terminal c ht hta hstate hu hua hc hkey
  have hreap := runs_course (hr.runs_at ht)
  have hown := hl i t ht hta
  rw [hstate] at hreap hown
  have hcourse := runs_course (hr.runs_at hu)
  obtain ⟨job,n,answers,phase,hcall,-⟩ := hcourse.held hc
  refine hown.2 j u job hu ⟨hua,Stage.result_of_claim? hc⟩ hcall ?_
  rw [← hreap.reaping_spec.1,hkey]
  exact hcourse.claim_mem hc

theorem inTransaction_unique
    (hr : Pool.Reachable stageMachine recoveryWorld probeFaithful JsonActionStore.fresh P)
    {target : String} {i j : Nat} {t u : Thread stageMachine} (ht : P.threads[i]? = some t)
    (hu : P.threads[j]? = some u) (hti : InTransaction target t.view)
    (huj : InTransaction target u.view) : i = j := by
  obtain ⟨hP,-⟩ := reachable_holding (J := AllLearnt) (fun i t ht => by simp at ht)
    (fun P l P' hr hP hl hd hs => hl.step hr hP hd hs) (fun P hr hl => hl.exclusive hr) hr
  have hclaimed := reachable_claimed hr
  obtain ⟨hrun,⟨job,hcall,htarget⟩,hclaims⟩ := hti
  obtain ⟨hrun',⟨job',hcall',htarget'⟩,hclaims'⟩ := huj
  obtain ⟨r,hr₁,hkeys,-⟩ := hP.slot (runs_course (hr.runs_at ht)) ht hrun hcall hclaims
  obtain ⟨r',hr₂,hkeys',-⟩ := hP.slot (runs_course (hr.runs_at hu)) hu hrun' hcall' hclaims'
  -- one slot, one record, one key, one grant
  rw [htarget] at hr₁
  rw [htarget',hr₁] at hr₂
  cases hr₂
  exact hclaimed.unique i j t u r.idempotencyKey ht hu (by simp [hkeys]) (by simp [hkeys'])

/-- With a faithful probe, the intervals from a granted claim to the end of its run never
overlap for two runs of one target, and two executor calls for one target are never in
progress together. -/
theorem one_transaction_per_target {P : Pool txMachine JsonActionStore}
    (hr : Pool.Reachable txMachine recoveryWorld probeFaithful JsonActionStore.fresh P)
    (target : String) (i j : Nat) (v w : ThreadView txSig TxCall TxResult)
    (hv : P.view.threads[i]? = some v) (hw : P.view.threads[j]? = some w) :
    (InTransaction target v → InTransaction target w → i = j) ∧
      (InExecute target v → InExecute target w → i = j) := by
  obtain ⟨R,hsim⟩ := txMachine_simulates
  obtain ⟨Q,hQ,hPQ⟩ := hr.similar hsim
  rw [hPQ.view,Pool.view,List.getElem?_map,Option.map_eq_some_iff] at hv hw
  obtain ⟨t,ht,rfl⟩ := hv
  obtain ⟨u,hu,rfl⟩ := hw
  have hexec : ∀ (j : Nat) (u : Thread stageMachine), Q.threads[j]? = some u →
      InExecute target u.view → InTransaction target u.view := by
    rintro j u hu ⟨hrun,⟨job,hcall,htarget⟩,hn⟩
    have hcourse := runs_course (hQ.runs_at hu)
    rw [show u.call = .run job from hcall] at hcourse
    exact ⟨hrun,⟨job,hcall,htarget⟩,RunCourse.executes_claims hcourse (Nat.zero_lt_of_lt hn)⟩
  exact ⟨inTransaction_unique hQ ht hu,fun hi hj =>
    inTransaction_unique hQ ht hu (hexec i t ht hi) (hexec j u hu hj)⟩

end Pool

theorem one_transaction_per_target_resume :
    let _ := Sample.chrono
    let _ := Sample.render
    ∃ P : Pool txMachine JsonActionStore,
      Pool.Reachable txMachine recoveryWorld probeFaithful JsonActionStore.fresh P ∧
      ∃ v, P.view.threads[0]? = some v ∧ InExecute "pane-1" v ∧
        ∀ j w, P.view.threads[j]? = some w → InExecute "pane-1" w → 0 = j := by
  have hreach : Pool.Reachable Sample.system recoveryWorld probeFaithful .fresh Sample.executing := by
    refine (Sample.started_reached trivial).play_of (fun l : Label txSig TxCall => match l with
      | .act _ ⟨.ownerMatches _,_⟩ | .spawn _ => false
      | _ => true) _ (fun V l hl => ?_) (by decide)
    unfold probeFaithful
    split <;> trivial
  obtain ⟨t,ht,htest⟩ := Pool.exists_thread (l := Sample.executing.threads)
    (fun t => decide (t.call = .run Sample.resume ∧ t.alive = true ∧
      (Sample.system.result t.state).isNone = true ∧
      (returns t.history).length < executes t.history)) (by decide)
  obtain ⟨hcall,halive,hresult,hcalled⟩ := of_decide_eq_true htest
  have hv : Sample.executing.view.threads[0]? = some t.view := by simp [Pool.view,ht]
  have hexec : InExecute "pane-1" t.view :=
    ⟨⟨halive,Option.isNone_iff_eq_none.1 hresult⟩,⟨_,hcall,rfl⟩,hcalled⟩
  intro _ _
  exact ⟨_,hreach,_,hv,hexec,fun j w hw hexec' =>
    (one_transaction_per_target hreach "pane-1" 0 j _ w hv hw).2 hexec hexec'⟩

end WatchMe
