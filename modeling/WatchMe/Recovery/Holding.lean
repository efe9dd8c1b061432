import WatchMe.Recovery.AtMostOnce

/-! # Claims and the two copies of the ledger

A failed write can leave the disk one accepted call ahead of memory, and a restart then
continues from the disk. What later results need is therefore stated about both copies:
no active record of a transaction past its commit boundary is `Prepared`, and, where no
recovery works against a live run, the claim of a live run is the active record of its
target.
-/
namespace WatchMe
open Effects Transaction

namespace JsonActionStore
variable {s s' : JsonActionStore} {c : StoreCall} {φ : Ledger → Prop}

def saved (s : JsonActionStore) : Ledger := s.disk.getD Ledger.empty

def Both (s : JsonActionStore) (φ : Ledger → Prop) : Prop := φ s.state ∧ φ s.saved

theorem Outcome.both {ok : Bool} {φ ψ : Ledger → Prop}
    (ho : Outcome s c ok s') (hs : s.Both φ) (hkeep : ∀ L, φ L → ψ L)
    (hstep : ∀ L, s.state.Accepts c L → ψ L) : s'.Both ψ := by
  cases ho with
  | stored hL => exact ⟨hstep _ hL,hstep _ hL⟩
  | refused => exact ⟨hkeep _ hs.1,hkeep _ hs.2⟩
  | landed hL => exact ⟨hkeep _ hs.1,hstep _ hL⟩

theorem Outcome.both_of_accepted
    (ho : Outcome s c true s') (h : ∀ L, s.state.Accepts c L → φ L) : s'.Both φ := by
  cases ho with
  | stored hL => exact ⟨h _ hL,h _ hL⟩

theorem load_saved (h : load s.disk = .ok s') :
    s'.state = s.saved ∧ s'.saved = s.saved := by
  unfold load at h
  split at h
  · rename_i hdisk
    cases h
    simp [saved,hdisk]
  · rename_i L hdisk
    split at h
    · cases h
      simp [saved,hdisk]
    · cases h

theorem Both.load (hs : s.Both φ) (h : JsonActionStore.load s.disk = .ok s') : s'.Both φ := by
  obtain ⟨hstate,hsaved⟩ := load_saved h
  exact ⟨hstate ▸ hs.2,hsaved ▸ hs.2⟩

theorem Sound.saved_valid (hs : s.Sound) : s.saved.Valid := by
  unfold saved
  cases hdisk : s.disk with
  | none => exact Ledger.empty_valid
  | some d => exact hs.disk d hdisk

end JsonActionStore

namespace Ledger

def Holds (L : Ledger) (c : Claim) : Prop :=
  ∃ r, L.activeOf c.job.target = some r ∧ c.Names r

/-- No active record of the key is still `Prepared`. -/
def PastPrepared (L : Ledger) (k : String) : Prop :=
  ∀ t r, L.activeOf t = some r → r.idempotencyKey = k → r.phase ≠ .prepared

theorem Extends.active_keep {L L' : Ledger} {c : StoreCall} (h : Extends L c L') {u : String}
    {r : ActionRecord} (hr : L.activeOf u = some r) (hkey : r.idempotencyKey ≠ c.key) :
    L'.activeOf u = some r := by
  by_cases hu : u = c.target
  · subst hu
    rcases h.owner with ⟨hfree,-⟩ | ⟨current,hcur,hck⟩
    · rw [hr] at hfree
      cases hfree
    · rw [hr] at hcur
      cases hcur
      exact absurd hck hkey
  · rw [h.active_other u hu]
    exact hr

theorem Extends.holds_keep {L L' : Ledger} {c : StoreCall} (h : Extends L c L') {d : Claim}
    (hd : L.Holds d) (hkey : c.key ≠ d.record.idempotencyKey) : L'.Holds d := by
  obtain ⟨r,hr,hn⟩ := hd
  exact ⟨r,h.active_keep hr (hn.key ▸ hkey.symm),hn⟩

theorem Holds.mono {L : Ledger} {c c' : Claim} (h : L.Holds c) (hjob : c'.job = c.job)
    (hnames : ∀ r, c.Names r → c'.Names r) : L.Holds c' := by
  obtain ⟨r,hr,hn⟩ := h
  exact ⟨r,hjob ▸ hr,hnames r hn⟩

end Ledger
variable {call : TxCall} {h : List TxEvent} {t k : String}

theorem Course.reaping {r terminal : ActionRecord} (hc : Course h (.reaping t r terminal) call) :
    terminal = expired r ∨ terminal = restarted r := by
  cases call with
  | run => exact hc.elim
  | recoverStale => exact .inl hc.1.2
  | recoverAfterRestart => exact .inr hc.1.2

/-- The phase in which a recovery terminates a record. -/
def ActionPhase.reaped (phase : ActionPhase) : ActionPhase :=
  if phase = .prepared then .failed else .humanRequired

theorem ActionPhase.reaped_isTerminal (phase : ActionPhase) : phase.reaped.isTerminal = true := by
  unfold reaped
  split <;> rfl

theorem ActionPhase.reaped_eq_failed {phase : ActionPhase} :
    phase.reaped = .failed ↔ phase = .prepared := by
  unfold reaped
  split <;> simp_all

theorem expired_spec (r : ActionRecord) :
    (expired r).idempotencyKey = r.idempotencyKey ∧ (expired r).phase = r.phase.reaped := by
  cases hphase : r.phase <;>
    simp [expired,staleReason,hphase,ActionRecord.next,ActionPhase.reaped]

theorem restarted_spec (r : ActionRecord) :
    (restarted r).idempotencyKey = r.idempotencyKey ∧ (restarted r).phase = r.phase.reaped := by
  cases hphase : r.phase <;>
    simp [restarted,restartReason,hphase,ActionRecord.next,ActionPhase.reaped]

theorem Course.reaping_spec
    {r terminal : ActionRecord} (hc : Course h (.reaping t r terminal) call) :
    terminal.idempotencyKey = r.idempotencyKey ∧ terminal.phase = r.phase.reaped := by
  rcases hc.reaping with rfl | rfl
  · exact expired_spec r
  · exact restarted_spec r

theorem Course.recovery_append [Chrono] [Render]
    {s s' : Stage} {record : ActionRecord} {answer : Except String Unit}
    (hc : Course h s call) (hcall : ∀ job, call ≠ .run job)
    (hs : s.Step ⟨.append t record,answer⟩ s') : ∃ r, s = .reaping t r record := by
  rcases s.step_cases hs with ⟨hnone,-⟩ | ⟨c,ok,hstore,hissues,-⟩
  · cases hnone
  · cases hstore
    cases hissues with
    | append hclaim =>
      obtain ⟨job,n,answers,phase,hrun,-⟩ := hc.held hclaim
      exact absurd hrun (hcall job)
    | reap => exact ⟨_,rfl⟩

theorem Course.slot_phase {s : Stage} {c : StoreCall}
    {r : ActionRecord} (hc : Course h s call) (hi : s.Issues c) (hslot : c.slot = some r) :
    r.phase.committed = true ∨ ∃ t, c = .claimPrepared t r := by
  cases hi with
  | claim =>
    cases hslot
    exact .inr ⟨_,rfl⟩
  | @append s c r' hclaim hkey hphase =>
    simp only [StoreCall.slot] at hslot
    rcases hphase with hphase | hphase | ⟨hphase,-⟩
    · split at hslot
      · cases hslot
      · cases hslot
        exact .inl hphase
    · simp [hphase,ActionPhase.isTerminal] at hslot
    · simp [hphase,ActionPhase.isTerminal] at hslot
  | escalate => cases hslot
  | reap => simp [StoreCall.slot,hc.reaping_spec.2,ActionPhase.reaped_isTerminal] at hslot

theorem mem_executedKeys_snoc {e : TxEvent}
    (hk : k ∈ executedKeys call (h ++ [e])) : k ∈ executedKeys call h ∨ isExecute e = true := by
  by_cases he : isExecute e = true
  · exact .inr he
  · left
    cases h with
    | nil =>
      unfold executedKeys at hk
      split at hk
      · rename_i hlist
        cases hlist
        cases hk
      · cases hk
    | cons x h =>
      rw [List.cons_append] at hk
      unfold executedKeys at hk ⊢
      split at hk
      · rename_i hlist
        cases hlist
        simpa [List.filter_append,he] using hk
      · cases hk

theorem Ledger.Accepts.pastPrepared {L L' : Ledger} {s : Stage}
    {c : StoreCall} (hL : L.Accepts c L') (hc : Course h s call)
    (hi : s.Issues c) (hknown : k ∈ L.idempotency) (hpast : L.PastPrepared k) :
    L'.PastPrepared k := by
  intro t r hr hkey
  rcases hL.extends.active_cases hr with ⟨-,hslot⟩ | ⟨-,hr⟩
  · rcases hc.slot_phase hi hslot with hphase | ⟨t,rfl⟩
    · intro hprep
      rw [hprep] at hphase
      cases hphase
    · cases hL with
      | claim _ hfresh => exact absurd (hkey ▸ hknown) hfresh
  · exact hpast t r hr hkey

section Committed
variable [Chrono] [Render]

def Committed (t : Thread stageMachine) (k : String) : Prop :=
  (∃ c, t.state = .begun c ∧ c.record.idempotencyKey = k) ∨ k ∈ executedKeys t.call t.history

theorem Committed.claim_mem {t : Thread stageMachine} (h : Committed t k)
    (hc : Course t.history t.state t.call) : k ∈ claims t.history := by
  rcases h with ⟨c,hs,rfl⟩ | hk
  · exact hc.claim_mem (c := c) (by rw [hs]; rfl)
  · rcases hc.executed with hnil | ⟨k',hk',hone⟩
    · rw [hnil] at hk
      cases hk
    · rw [hone,List.mem_singleton] at hk
      exact hk ▸ hk'

theorem Committed.of_advance {t : Thread stageMachine} {e : TxEvent} {σ' : Stage}
    (hc : Course t.history t.state t.call) (hs : t.state.Step e σ')
    (h : Committed (t.advance e σ') k) :
    Committed t k ∨ ∃ c reason, t.state = .rechecked c ∧ c.record.idempotencyKey = k ∧
      e = ⟨.append c.job.target (c.record.next .begun reason),.ok ()⟩ := by
  rcases h with ⟨c,rfl,rfl⟩ | hk
  · generalize hstate : t.state = s at hs
    cases hs with
    | begin => exact .inr ⟨_,_,rfl,rfl,rfl⟩
  · rcases mem_executedKeys_snoc hk with hk | hexec
    · exact .inl (.inr hk)
    · generalize hstate : t.state = s at hs
      cases hs with
      | @call c =>
        obtain ⟨job,n,answers,phase,hrun,hh⟩ := hc.held (c := c) (by rw [hstate]; rfl)
        have hkeys : executedKeys (.run job) (t.history ++ [⟨.execute c.job.action,()⟩]) =
            List.replicate _ (job.key c.baseline) := (hh.opened.snoc _).executedKeys job
        simp only [Thread.advance,hrun,hkeys] at hk
        exact .inl (.inl ⟨c,hstate,hh.key.trans (List.eq_of_mem_replicate hk).symm⟩)
      | _ => cases hexec

/-- Once a call is past its commit boundary, no copy of the ledger shows it `Prepared`. -/
def Past (P : Pool stageMachine JsonActionStore) : Prop :=
  ∀ (i : Nat) (t : Thread stageMachine) (k : String), P.threads[i]? = some t → Committed t k →
    P.shared.Both (Ledger.PastPrepared · k)

variable {P P' : Pool stageMachine JsonActionStore} {l : Label txSig TxCall}

theorem JsonActionStore.Both.step {φ : Ledger → Prop} (hφ : P.shared.Both φ) (hcourse : OnCourse P)
    (hs : Pool.Step recoveryWorld P l P')
    (hstep : ∀ (i : Nat) (t : Thread stageMachine) (c : StoreCall) (L : Ledger),
      P.threads[i]? = some t → t.alive = true → t.state.Issues c → c.Admissible →
      P.shared.state.Accepts c L → φ L) : P'.shared.Both φ := by
  cases hs with
  | spawn => exact hφ
  | act i t e σ' shared ht hta hs hw =>
    rcases act_cases (hcourse i t ht) hs hw with ⟨rfl,-,-⟩ | ⟨c,ok,-,ho,hadm,hissues,-⟩
    · exact hφ
    · exact ho.both hφ (fun _ h => h) fun L hL => hstep i t c L ht hta hissues hadm hL
  | crash shared hload => exact hφ.load hload

theorem reachable_past {D : Discipline txSig TxCall TxResult JsonActionStore}
    (hr : Pool.Reachable stageMachine recoveryWorld D JsonActionStore.fresh P) : Past P := by
  refine hr.invariant (fun i t k ht => by simp at ht) ?_
  intro P l P' hr hP _ hs j u k hu hk
  have hclaimed := reachable_claimed hr
  have hcourse := reachable_onCourse hr
  have hold : ∀ t, P.threads[j]? = some t → Committed t k →
      P'.shared.Both (Ledger.PastPrepared · k) := by
    intro t ht hk
    have hknown := hclaimed.known j t ht k (hk.claim_mem (hcourse j t ht))
    have hpast := hP j t k ht hk
    exact JsonActionStore.Both.step hpast hcourse hs fun i t c L ht _ hissues _ hL =>
      hL.pastPrepared (hcourse i t ht) hissues hknown hpast.1
  cases hs.change hu with
  | spawned =>
    have hclaim := hk.claim_mem (runs_course .start)
    cases hclaim
  | beside _ ht | waits ht | killed ht => exact hold _ ht hk
  | acts ht _ hm hw =>
    rcases hk.of_advance (hcourse j _ ht) hm with hk | ⟨c,reason,-,rfl,rfl⟩
    · exact hold _ ht hk
    · -- the accepted append leaves the `Begun` record as the only active one of its key
      obtain ⟨host,hw⟩ := hw
      refine (JsonActionStore.append_outcome hw).both_of_accepted fun L hL t' r hr hkey => ?_
      rcases hL.extends.active_cases hr with ⟨-,hslot⟩ | ⟨hne,hr⟩
      · cases hslot
        exact ActionPhase.noConfusion
      · exact absurd hkey (hclaimed.sound.state.other_key hL.extends hne hr)

def Uncommitted (P : Pool stageMachine JsonActionStore) (k : String) : Prop :=
  ∀ (i : Nat) (t : Thread stageMachine), P.threads[i]? = some t → ¬ Committed t k

theorem Uncommitted.step (hP : Uncommitted P k) (hcourse : OnCourse P)
    (hs : Pool.Step recoveryWorld P l P')
    (hbegin : ∀ i t c e, l = .act i e → P.threads[i]? = some t → t.view.Running →
      t.state = .rechecked c → storeAnswers P.shared e P'.shared →
      (∃ reason, e = ⟨.append c.job.target (c.record.next .begun reason),.ok ()⟩) →
      c.record.idempotencyKey ≠ k) : Uncommitted P' k := by
  intro j u hu hk
  cases hs.change hu with
  | spawned =>
    have hclaim := hk.claim_mem (runs_course .start)
    cases hclaim
  | beside _ ht | waits ht | killed ht => exact hP j _ ht hk
  | acts ht hta hm hw =>
    rcases hk.of_advance (hcourse j _ ht) hm with hk | ⟨c,reason,hstate,hkey,he⟩
    · exact hP j _ ht hk
    · exact hbegin j _ c _ rfl ht ⟨hta,hm.result_none⟩ hstate hw ⟨reason,he⟩ hkey

end Committed

theorem Stage.Follows.holds {s s' : JsonActionStore} {σ σ' : Stage} {call : StoreCall}
    {ok : Bool} {c : Claim} (hf : σ.Follows call ok σ') (ho : s.Outcome call ok s')
    (hc : σ'.claim? = some c)
    (hold : ∀ d, σ.claim? = some d → s.Both (Ledger.Holds · d)) :
    s'.Both (Ledger.Holds · c) := by
  obtain ⟨htarget,⟨r,hslot,hnames⟩,hback⟩ := hf c hc
  have hnew : ∀ L, s.state.Accepts call L → L.Holds c := by
    intro L hL
    exact ⟨r,htarget ▸ hL.extends.active_self.trans hslot,hnames⟩
  rcases hback with rfl | ⟨d,hd,hjob,hmono⟩
  · exact ho.both_of_accepted hnew
  · exact ho.both (hold d hd) (fun L h => h.mono hjob hmono) hnew

section Holding
variable [Chrono] [Render] {P P' : Pool stageMachine JsonActionStore} {l : Label txSig TxCall}

/-- The claim of every live run is the active record of its target, in both copies. -/
def Holding (P : Pool stageMachine JsonActionStore) : Prop :=
  ∀ (i : Nat) (t : Thread stageMachine) (c : Claim), P.threads[i]? = some t →
    t.alive = true → t.state.claim? = some c → P.shared.Both (Ledger.Holds · c)

/-- No recovery is about to terminate the record of a live run. -/
def Exclusive (P : Pool stageMachine JsonActionStore) : Prop :=
  ∀ (i j : Nat) (t u : Thread stageMachine) (target : String) (r terminal : ActionRecord)
    (c : Claim), P.threads[i]? = some t → t.alive = true →
    t.state = .reaping target r terminal → P.threads[j]? = some u → u.alive = true →
    u.state.claim? = some c → terminal.idempotencyKey ≠ c.record.idempotencyKey

/-- A call that is accepted has another key than the claim of another run, unless it terminates
that run's record. -/
theorem foreign_key {i j : Nat} {t u : Thread stageMachine} {call : StoreCall} {L : Ledger}
    {c : Claim} (hclaimed : Claimed P) (hcourse : OnCourse P) (ht : P.threads[i]? = some t)
    (hi : t.state.Issues call) (hL : P.shared.state.Accepts call L)
    (hu : P.threads[j]? = some u) (hc : u.state.claim? = some c) (hij : j ≠ i)
    (hreap : ∀ target r terminal, t.state = .reaping target r terminal →
      terminal.idempotencyKey ≠ c.record.idempotencyKey) :
    call.key ≠ c.record.idempotencyKey := by
  have hmem := (hcourse j u hu).claim_mem hc
  have hown : ∀ d, t.state.claim? = some d → d.record.idempotencyKey ≠ c.record.idempotencyKey := by
    intro d hd heq
    have hmem' := (hcourse i t ht).claim_mem hd
    rw [heq] at hmem'
    exact hij (hclaimed.unique j i u t _ hu ht hmem hmem')
  generalize hstate : t.state = s at hi
  cases hi with
  | @claim d again =>
    cases hL with
    | claim _ hfresh =>
      intro heq
      have hkey : d.record.idempotencyKey = c.record.idempotencyKey := heq
      rw [hkey] at hfresh
      exact hfresh (hclaimed.known j u hu _ hmem)
  | append hd hkey =>
    intro heq
    exact hown _ (hstate ▸ hd) (hkey.symm.trans heq)
  | escalate => exact hown _ (by rw [hstate]; rfl)
  | reap => exact hreap _ _ _ hstate

theorem spawned_state (call : TxCall) :
    (∃ job, (Thread.spawned stageMachine call).state = .entered job) ∨
      (∃ r, (Thread.spawned stageMachine call).state = .ended r) ∨
      (∃ target, (Thread.spawned stageMachine call).state = .reclaiming target) ∨
      ∃ target, (Thread.spawned stageMachine call).state = .restarting target := by
  cases call with
  | run job =>
    rcases Stage.startRun_cases job with ⟨heq,-⟩ | ⟨r,heq⟩
    · exact .inl ⟨job,heq⟩
    · exact .inr (.inl ⟨r,heq⟩)
  | recoverStale target => exact .inr (.inr (.inl ⟨target,rfl⟩))
  | recoverAfterRestart target => exact .inr (.inr (.inr ⟨target,rfl⟩))

theorem spawned_claim? (call : TxCall) :
    (Thread.spawned stageMachine call).state.claim? = none := by
  rcases spawned_state call with ⟨_,hs⟩ | ⟨_,hs⟩ | ⟨_,hs⟩ | ⟨_,hs⟩ <;> rw [hs] <;> rfl

theorem Holding.step {u : Thread stageMachine} {j : Nat} {c : Claim} (hP : Holding P)
    (hexcl : Exclusive P) (hclaimed : Claimed P) (hcourse : OnCourse P)
    (hs : Pool.Step recoveryWorld P l P') (hu : P'.threads[j]? = some u) (hua : u.alive = true)
    (hc : u.state.claim? = some c) : P'.shared.Both (Ledger.Holds · c) := by
  cases hs.change hu with
  | spawned =>
    rw [spawned_claim?] at hc
    cases hc
  | beside _ hu hshared => exact hshared ▸ hP j u c hu hua hc
  | @acts t _ _ ht _ hm hw =>
    rcases act_cases (hcourse j t ht) hm hw with ⟨hshared,-,hsame⟩ | ⟨call,ok,-,ho,-,-,hfollows⟩
    · exact hshared ▸ hP j t c ht hua (hsame.symm.trans hc)
    · exact hfollows.holds ho hc fun d hd => hP j t d ht hua hd
  | @waits _ t i _ _ hu hji ht hta hm hw =>
    have hheld := hP j u c hu hua hc
    rcases act_cases (hcourse i t ht) hm hw with ⟨hshared,-,-⟩ | ⟨call,ok,-,ho,-,hissues,-⟩
    · exact hshared ▸ hheld
    · refine ho.both hheld (fun _ h => h) fun L hL => ?_
      exact hL.extends.holds_keep hheld.1
        (foreign_key hclaimed hcourse ht hissues hL hu hc hji
          fun _ _ _ hstate => hexcl i j t u _ _ _ c ht hta hstate hu hua hc)
  | killed => cases hua

/-- Where recoveries stay clear of live runs, live runs keep their slots. The reason `J`
why they stay clear may itself rest on what live runs hold. -/
theorem reachable_holding {D : Discipline txSig TxCall TxResult JsonActionStore}
    {J : Pool stageMachine JsonActionStore → Prop} {P : Pool stageMachine JsonActionStore}
    (hinit : J ⟨JsonActionStore.fresh,[]⟩)
    (hstep : ∀ P l P', Pool.Reachable stageMachine recoveryWorld D JsonActionStore.fresh P →
      Holding P → J P → D P.view l → Pool.Step recoveryWorld P l P' → J P')
    (hexcl : ∀ P, Pool.Reachable stageMachine recoveryWorld D JsonActionStore.fresh P → J P →
      Exclusive P)
    (hr : Pool.Reachable stageMachine recoveryWorld D JsonActionStore.fresh P) :
    Holding P ∧ J P := by
  refine hr.invariant ⟨fun i t c ht => by simp at ht,hinit⟩ ?_
  intro P l P' hr hP hd hs
  refine ⟨fun j u c hu hua hc => ?_,hstep P l P' hr hP.1 hP.2 hd hs⟩
  exact hP.1.step (hexcl P hr hP.2) (reachable_claimed hr) (reachable_onCourse hr) hs hu hua hc

/-- The key is known, and the live runs that were granted it are as stated. -/
def Owned (P : Pool stageMachine JsonActionStore) (k : String) (φ : Job → Prop) : Prop :=
  k ∈ P.shared.state.idempotency ∧
    ∀ (j : Nat) (u : Thread stageMachine) (job : Job), P.threads[j]? = some u →
      u.view.Running → u.call = .run job → k ∈ claims u.history → φ job

theorem Owned.step {φ : Job → Prop} (hP : Owned P k φ) (hsound : P.shared.Sound)
    (hcourse : OnCourse P) (hs : Pool.Step recoveryWorld P l P') : Owned P' k φ := by
  refine ⟨(step_store hsound hcourse hs).2 k hP.1,fun j u job hu hrun hcall hk => ?_⟩
  rcases step_claims hsound hcourse hs hu hk with ⟨t,ht,htc,hrun',hk⟩ | ⟨-,hnew,-⟩
  · exact hP.2 j t job ht (hrun' hrun) (htc.symm.trans hcall) hk
  · exact absurd hP.1 hnew

end Holding

end WatchMe
