import WatchMe.Effects.Pool
import WatchMe.Recovery.Course
import WatchMe.Recovery.LedgerInvariant

/-! # The recovery system

Transactions and recoveries, any number of each, over one action store. The store answers
its own requests, with any write failing at any time; evidence, clocks, the executor and
the process probe may answer anything. A crash stops every thread and loads the ledger.

`Stage.step_cases` says once which store call a step makes and what becomes of the
thread's claim; every invariant of the system is derived from it and from `Outcome`.
-/
namespace WatchMe
open Effects Transaction
variable {s s' : JsonActionStore} {e : TxEvent} {h : List TxEvent}

def storeAnswers (s : JsonActionStore) : TxEvent → JsonActionStore → Prop
  | ⟨.claimPrepared t r,answer⟩, s' => ∃ host, s.claimPrepared t r host = (answer,s')
  | ⟨.append t r,answer⟩, s' => ∃ host, s.append t r host = (answer,s')
  | ⟨.escalateUncertain t r reason,answer⟩, s' =>
    ∃ host, s.escalateUncertain t r reason host = (answer,s')
  | ⟨.active t,answer⟩, s' => (∃ host, s.active t host = answer) ∧ s' = s
  | _, s' => s' = s

def recoveryWorld : World txSig JsonActionStore where
  Answers := storeAnswers
  Restarts s s' := JsonActionStore.load s.disk = .ok s'

/-- The store call an answered request made, and whether it was accepted. -/
def storeCall : TxEvent → Option (StoreCall × Bool)
  | ⟨.claimPrepared t r,answer⟩ => some (.claimPrepared t r,claimGranted answer)
  | ⟨.append t r,answer⟩ => some (.append t r,answer.isOk)
  | ⟨.escalateUncertain t r reason,answer⟩ => some (.escalateUncertain t r reason,answer.isOk)
  | _ => none

theorem storeAnswers_cases (h : storeAnswers s e s') :
    (storeCall e = none ∧ s' = s) ∨
      ∃ call ok, storeCall e = some (call,ok) ∧ s.Outcome call ok s' := by
  obtain ⟨op,answer⟩ := e
  cases op with
  | claimPrepared =>
    obtain ⟨host,h⟩ := h
    exact .inr ⟨_,_,rfl,JsonActionStore.claimPrepared_outcome h⟩
  | append =>
    obtain ⟨host,h⟩ := h
    exact .inr ⟨_,_,rfl,JsonActionStore.append_outcome h⟩
  | escalateUncertain =>
    obtain ⟨host,h⟩ := h
    exact .inr ⟨_,_,rfl,JsonActionStore.escalateUncertain_outcome h⟩
  | active => exact .inl ⟨rfl,h.2⟩
  | read | readVerification | wallTime | monotonicMs | sleepMs | execute | executeReturns
  | ownerMatches => exact .inl ⟨rfl,h⟩

theorem active_eq {target : String} {host : HostOutcome} {answer : Option ActionRecord}
    (h : s.active target host = .ok answer) : s.state.activeOf target = answer := by
  unfold JsonActionStore.active at h
  split at h
  · cases h
  · exact Except.ok.inj h

theorem grantedKey_eq_some {k : String} (h : grantedKey e = some k) :
    ∃ t r, storeCall e = some (.claimPrepared t r,true) ∧ r.idempotencyKey = k := by
  unfold grantedKey at h
  split at h
  · rename_i t r
    exact ⟨t,r,rfl,Option.some.inj h⟩
  · cases h

theorem mem_claims_snoc {k : String} (hk : k ∈ claims (h ++ [e])) :
    k ∈ claims h ∨ grantedKey e = some k := by
  rw [claims_snoc,List.mem_append,Option.mem_toList] at hk
  exact hk

/-- The phases between the commit boundary and a terminal record. -/
def ActionPhase.committed : ActionPhase → Bool
  | begun | sent | verifying => true
  | _ => false

/-- The record is one of the claim's own, and past the commit boundary if the claim is. -/
structure Transaction.Claim.Names (c : Claim) (r : ActionRecord) : Prop where
  key : r.idempotencyKey = c.record.idempotencyKey
  owner : r.owner = c.record.owner
  committed : c.record.phase.committed = true → r.phase.committed = true

theorem Transaction.Claim.names_self (c : Claim) : c.Names c.record := ⟨rfl,rfl,id⟩

namespace Stage
variable {s s' : Stage} {c : Claim}

/-- The claim a run holds: from its grant to the last store call of the run. -/
def claim? : Stage → Option Claim
  | claimed c _ | rechecked c | begun c | calling c | returned c _ | closing c | opening c
  | verifying c | failing c _ | doubtful c _ => some c
  | polling p | checked p | sleeping p | proven p _ => some p.claim
  | _ => none

theorem result_of_claim? (hs : s.claim? = some c) : s.result = none := by
  cases s <;> first | rfl | cases hs

inductive Issues : Stage → StoreCall → Prop
  | claim {c : Claim} {again : LiveEvidence} :
      Issues (prepared c again) (.claimPrepared c.job.target c.record)
  | append {s : Stage} {c : Claim} {r : ActionRecord} : s.claim? = some c →
      r.idempotencyKey = c.record.idempotencyKey →
      r.phase.committed = true ∨ r.phase = .succeeded ∨
        (r.phase = .failed ∧ ∃ error, s = failing c error) →
      Issues s (.append c.job.target r)
  | escalate {c : Claim} {reason : String} :
      Issues (doubtful c reason) (.escalateUncertain c.job.target c.record reason)
  | reap {t : String} {r terminal : ActionRecord} :
      Issues (reaping t r terminal) (.append t terminal)

/-- A claim held after a store call: the call put its record into the target's slot, and a
refused call leaves a claim only where there was one before. -/
def Follows (s : Stage) (call : StoreCall) (ok : Bool) (s' : Stage) : Prop :=
  ∀ c', s'.claim? = some c' →
    call.target = c'.job.target ∧ (∃ r, call.slot = some r ∧ c'.Names r) ∧
      (ok = true ∨ ∃ c, s.claim? = some c ∧ c'.job = c.job ∧ ∀ r, c.Names r → c'.Names r)

theorem follows_ended {call : StoreCall} {ok : Bool} {r : TxResult} :
    Follows s call ok (ended r) := by
  intro c' h
  cases h

theorem follows_ok {call : StoreCall} (hs : s'.claim? = some c)
    (htarget : call.target = c.job.target) (hslot : call.slot = some c.record) :
    Follows s call true s' := by
  intro c' h
  rw [hs] at h
  cases h
  exact ⟨htarget,⟨_,hslot,c.names_self⟩,.inl rfl⟩

theorem follows_refused {c' : Claim} {call : StoreCall} {r : ActionRecord} (hs : s.claim? = some c)
    (hs' : s'.claim? = some c') (htarget : call.target = c'.job.target) (hslot : call.slot = some r)
    (hnames : c'.Names r) (hjob : c'.job = c.job) (hsame : ∀ r, c.Names r → c'.Names r) :
    Follows s call false s' := by
  intro d h
  rw [hs'] at h
  cases h
  exact ⟨htarget,⟨r,hslot,hnames⟩,.inr ⟨c,hs,hjob,hsame⟩⟩

variable [Chrono] [Render]

theorem step_cases (hs : s.Step e s') :
    (storeCall e = none ∧ s'.claim? = s.claim?) ∨
      ∃ call ok, storeCall e = some (call,ok) ∧ s.Issues call ∧ s.Follows call ok s' := by
  cases hs with
  | readFailed | refused | baseline | denied | authorize | rereadFailed | rerefused | confirm
  | unrendered | prepare | recheckFailed | recheck | call | callOk | callDoubtful | callFailed
  | setDeadline | pollDoubtful | prove | unproven | timedOut | retry | wake | restartFailed
  | restartIdle | restart | reclaimFailed | reclaimIdle | reclaim | leased | expire | ownerAlive
  | ownerGone =>
    exact .inl ⟨rfl,rfl⟩
  | claimFailed | duplicate => exact .inr ⟨_,_,rfl,.claim,follows_ended⟩
  | claim => exact .inr ⟨_,_,rfl,.claim,follows_ok rfl rfl rfl⟩
  | beginFailed => exact .inr ⟨_,_,rfl,.append rfl rfl (.inl rfl),follows_ended⟩
  | begin | verify =>
    exact .inr ⟨_,_,rfl,.append rfl rfl (.inl rfl),follows_ok rfl rfl rfl⟩
  | unreceipted | sendUnverified | send =>
    exact .inr ⟨_,_,rfl,.append rfl rfl (.inl rfl),follows_ok rfl rfl rfl⟩
  | @sendFailed c output =>
    refine .inr ⟨_,_,rfl,.append rfl rfl (.inl rfl),?_⟩
    exact follows_refused rfl rfl rfl rfl ⟨rfl,rfl,fun _ => rfl⟩ rfl
      fun r h => ⟨h.key,h.owner,h.committed⟩
  | openFailed =>
    refine .inr ⟨_,_,rfl,.append rfl rfl (.inl rfl),?_⟩
    exact follows_refused rfl rfl rfl rfl ⟨rfl,rfl,fun _ => rfl⟩ rfl fun r h => h
  | closeFailed | close | succeedFailed | succeed =>
    exact .inr ⟨_,_,rfl,.append rfl rfl (.inr (.inl rfl)),follows_ended⟩
  | fail =>
    exact .inr ⟨_,_,rfl,.append rfl rfl (.inr (.inr ⟨rfl,_,rfl⟩)),follows_ended⟩
  | escalate => exact .inr ⟨_,_,rfl,.escalate,follows_ended⟩
  | reapFailed | reap => exact .inr ⟨_,_,rfl,.reap,follows_ended⟩

end Stage

section Course
variable {call : TxCall} {h : List TxEvent} {s : Stage}

theorem Course.held {c : Claim} (hc : Course h s call) (hs : s.claim? = some c) :
    ∃ job n answers phase, call = .run job ∧ Held job h c n answers phase := by
  cases call with
  | run job =>
    have hrun : RunCourse job h s := hc
    cases s with
    | claimed | rechecked | begun | calling | returned =>
      cases hs
      exact ⟨job,_,_,_,rfl,hrun⟩
    | closing | opening | verifying | polling | checked | sleeping =>
      cases hs
      obtain ⟨output,hh⟩ := hrun
      exact ⟨job,_,_,_,rfl,hh⟩
    | proven =>
      cases hs
      obtain ⟨⟨output,hh⟩,-⟩ := hrun
      exact ⟨job,_,_,_,rfl,hh⟩
    | failing c error =>
      cases hs
      rcases hrun with hh | ⟨error,-,hh⟩ <;> exact ⟨job,_,_,_,rfl,hh⟩
    | doubtful =>
      cases hs
      obtain ⟨answer,phase,-,-,hh⟩ := hrun
      exact ⟨job,_,_,_,rfl,hh⟩
    | _ => cases hs
  | recoverStale target =>
    have hstale : StaleCourse target s := hc.1
    cases s with
    | reclaiming | expiring | probing | reaping | ended => cases hs
    | _ => exact hstale.elim
  | recoverAfterRestart target =>
    have hrestart : RestartCourse target s := hc.1
    cases s with
    | restarting | reaping | ended => cases hs
    | _ => exact hrestart.elim

theorem Course.claim_mem {c : Claim} (hc : Course h s call) (hs : s.claim? = some c) :
    c.record.idempotencyKey ∈ claims h := by
  obtain ⟨job,n,answers,phase,-,hh⟩ := hc.held hs
  rw [hh.claims_eq,hh.key]
  exact List.mem_singleton.2 rfl

theorem Course.admissible {c : StoreCall} (hc : Course h s call) (hi : s.Issues c) :
    c.Admissible := by
  cases hi with
  | @claim c again =>
    cases call with
    | run job =>
      have hready : Ready job h c := hc
      exact congrArg ActionPhase.isTerminal hready.phase_eq
    | recoverStale => exact hc.1.elim
    | recoverAfterRestart => exact hc.1.elim
  | append | escalate | reap => trivial

end Course

section Claims
variable [Chrono] [Render]
variable {σ' : Stage} {e : TxEvent} {P P' : Pool stageMachine JsonActionStore}
  {l : Label txSig TxCall}

/-- What an answered request did: nothing to the store and to the claim, or one store call. -/
theorem act_cases {call : TxCall} {σ : Stage} (hc : Course h σ call) (hs : σ.Step e σ')
    (hw : storeAnswers s e s') :
    (s' = s ∧ storeCall e = none ∧ σ'.claim? = σ.claim?) ∨
      ∃ c ok, storeCall e = some (c,ok) ∧ s.Outcome c ok s' ∧ c.Admissible ∧ σ.Issues c ∧
        σ.Follows c ok σ' := by
  rcases σ.step_cases hs with ⟨hnone,hclaim⟩ | ⟨c,ok,hcall,hissues,hfollows⟩
  · rcases storeAnswers_cases hw with ⟨-,rfl⟩ | ⟨c,ok,hcall,-⟩
    · exact .inl ⟨rfl,hnone,hclaim⟩
    · rw [hnone] at hcall
      cases hcall
  · rcases storeAnswers_cases hw with ⟨hnone,-⟩ | ⟨c',ok',hcall',ho⟩
    · rw [hnone] at hcall
      cases hcall
    · rw [hcall] at hcall'
      cases hcall'
      exact .inr ⟨c,ok,hcall,ho,hc.admissible hissues,hissues,hfollows⟩

/-- The store is sound, remembers every key ever granted, and grants each to one thread. -/
structure Claimed (P : Pool stageMachine JsonActionStore) : Prop where
  sound : P.shared.Sound
  known : ∀ (i : Nat) (t : Thread stageMachine), P.threads[i]? = some t →
    ∀ k ∈ claims t.history, k ∈ P.shared.state.idempotency
  unique : ∀ (i j : Nat) (t u : Thread stageMachine) (k : String), P.threads[i]? = some t →
    P.threads[j]? = some u → k ∈ claims t.history → k ∈ claims u.history → i = j

theorem answered_store {call : TxCall} {σ : Stage} (hsound : s.Sound) (hc : Course h σ call)
    (hs : σ.Step e σ') (hw : storeAnswers s e s') :
    s'.Sound ∧ (∀ k ∈ s.state.idempotency, k ∈ s'.state.idempotency) ∧
      ∀ k, grantedKey e = some k → k ∉ s.state.idempotency ∧ k ∈ s'.state.idempotency := by
  rcases act_cases hc hs hw with ⟨rfl,hnone,-⟩ | ⟨c,ok,hcall,ho,hadm,-,-⟩
  · refine ⟨hsound,fun _ hk => hk,fun k hk => ?_⟩
    obtain ⟨t,r,hcall,-⟩ := grantedKey_eq_some hk
    rw [hnone] at hcall
    cases hcall
  · refine ⟨ho.sound hsound hadm,fun _ => ho.key_mem,fun k hk => ?_⟩
    obtain ⟨t,r,hcall',rfl⟩ := grantedKey_eq_some hk
    rw [hcall] at hcall'
    cases hcall'
    exact ho.claimed_key

def OnCourse (P : Pool stageMachine JsonActionStore) : Prop :=
  ∀ (i : Nat) (t : Thread stageMachine), P.threads[i]? = some t →
    Course t.history t.state t.call

theorem reachable_onCourse {D : Discipline txSig TxCall TxResult JsonActionStore}
    {init : JsonActionStore} (hr : Pool.Reachable stageMachine recoveryWorld D init P) :
    OnCourse P :=
  fun _ _ ht => runs_course (hr.runs_at ht)

theorem step_store (hsound : P.shared.Sound) (hcourse : OnCourse P)
    (hs : Pool.Step recoveryWorld P l P') :
    P'.shared.Sound ∧ ∀ k ∈ P.shared.state.idempotency, k ∈ P'.shared.state.idempotency := by
  cases hs with
  | spawn => exact ⟨hsound,fun _ hk => hk⟩
  | act i t e σ' shared ht _ hs hw =>
    obtain ⟨hsound',hkeys,-⟩ := answered_store hsound (hcourse i t ht) hs hw
    exact ⟨hsound',hkeys⟩
  | crash shared hload => exact JsonActionStore.load_sound hsound hload

theorem Stage.Step.result_none {s s' : Stage} (hs : s.Step e s') : s.result = none := by
  cases hs <;> rfl

theorem step_thread {j : Nat} {u : Thread stageMachine} (hs : Pool.Step recoveryWorld P l P')
    (hu : P'.threads[j]? = some u) :
    (∃ call, l = .spawn call ∧ u = Thread.spawned stageMachine call) ∨
      ∃ t, P.threads[j]? = some t ∧ u.call = t.call ∧ (u.view.Running → t.view.Running) := by
  cases hs.change hu with
  | spawned call => exact .inl ⟨call,rfl,rfl⟩
  | beside _ ht | waits ht => exact .inr ⟨u,ht,rfl,id⟩
  | acts ht hta hm => exact .inr ⟨_,ht,rfl,fun _ => ⟨hta,hm.result_none⟩⟩
  | killed ht => exact .inr ⟨_,ht,rfl,fun hrun => (by cases hrun.1)⟩

theorem step_claims {j : Nat} {u : Thread stageMachine} {k : String} (hsound : P.shared.Sound)
    (hcourse : OnCourse P) (hs : Pool.Step recoveryWorld P l P') (hu : P'.threads[j]? = some u)
    (hk : k ∈ claims u.history) :
    (∃ t, P.threads[j]? = some t ∧ u.call = t.call ∧ (u.view.Running → t.view.Running) ∧
      k ∈ claims t.history) ∨
    (∃ e, l = .act j e) ∧ k ∉ P.shared.state.idempotency ∧ k ∈ P'.shared.state.idempotency := by
  cases hs.change hu with
  | spawned => cases hk
  | beside _ ht | waits ht => exact .inl ⟨u,ht,rfl,id,hk⟩
  | acts ht hta hm hw =>
    refine (mem_claims_snoc hk).imp (fun hk => ⟨_,ht,rfl,fun _ => ⟨hta,hm.result_none⟩,hk⟩) ?_
    exact fun hk => ⟨⟨_,rfl⟩,(answered_store hsound (hcourse j _ ht) hm hw).2.2 k hk⟩
  | killed ht => exact .inl ⟨_,ht,rfl,fun hrun => (by cases hrun.1),hk⟩

theorem Claimed.step (hP : Claimed P) (hcourse : OnCourse P)
    (hs : Pool.Step recoveryWorld P l P') : Claimed P' := by
  obtain ⟨hsound,hkeys⟩ := step_store hP.sound hcourse hs
  refine ⟨hsound,fun j u hu k hk => ?_,fun i j u v k hu hv hk hk' => ?_⟩
  · rcases step_claims hP.sound hcourse hs hu hk with ⟨t,ht,-,-,hk⟩ | ⟨-,-,hk⟩
    · exact hkeys k (hP.known j t ht k hk)
    · exact hk
  · rcases step_claims hP.sound hcourse hs hu hk with ⟨t,ht,-,-,hk⟩ | ⟨⟨e,rfl⟩,hnew,-⟩ <;>
      rcases step_claims hP.sound hcourse hs hv hk' with ⟨w,hw,-,-,hk'⟩ | ⟨⟨e',heq⟩,hnew',-⟩
    · exact hP.unique i j t w k ht hw hk hk'
    · exact absurd (hP.known i t ht k hk) hnew'
    · exact absurd (hP.known j w hw k hk') hnew
    · cases heq
      rfl

theorem reachable_claimed {D : Discipline txSig TxCall TxResult JsonActionStore}
    (hr : Pool.Reachable stageMachine recoveryWorld D JsonActionStore.fresh P) : Claimed P := by
  refine hr.invariant ⟨JsonActionStore.fresh_sound,by simp,by simp⟩ ?_
  exact fun _ _ _ hr hP _ hs => hP.step (reachable_onCourse hr) hs

end Claims

end WatchMe
