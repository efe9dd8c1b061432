import WatchMe.Recovery.Restart

/-! # No side effect is recorded as harmless

Every transaction that may have sent input is accounted for in both copies of the ledger,
and what is still open `recover_after_restart` hands to a human.
-/
namespace WatchMe
open Effects Program Transaction
variable {k : String}

theorem SideEffect.of_snoc {call : TxCall} {h : List TxEvent} {e : TxEvent}
    (hk : SideEffect call (h ++ [e]) k) : SideEffect call h k ∨ isExecute e = true := by
  obtain ⟨hexec,hmay⟩ := hk
  rw [returns_snoc] at hmay
  refine (mem_executedKeys_snoc hexec).imp_left fun hexec => ⟨hexec,fun answer ha => ?_⟩
  exact hmay answer (List.mem_append_left _ ha)

theorem RunCourse.failing_harmless {job : Job} {h : List TxEvent} {c : Claim}
    (error : TransactionError) (hc : RunCourse job h (.failing c error)) (k : String) :
    ¬ SideEffect (.run job) h k := by
  rintro ⟨hexec,hmay⟩
  rcases hc with hh | ⟨error,hclean,hh⟩
  · rw [executedKeys_eq_nil hh.executes_eq] at hexec
    cases hexec
  · rw [hh.returns_eq] at hmay
    exact hmay _ (List.mem_singleton.2 rfl) hclean

section Pool
variable [Chrono] [Render] {P : Pool stageMachine JsonActionStore}
variable {i : Nat} {t : Thread stageMachine} {e : TxEvent} {σ' : Stage}

def AllAccounted (P : Pool stageMachine JsonActionStore) : Prop :=
  ∀ (i : Nat) (t : Thread stageMachine) (job : Job) (k : String), P.threads[i]? = some t →
    t.call = .run job → SideEffect t.call t.history k →
    P.shared.Both (Ledger.Accounted · job.target k)

theorem Recovering.candid (hP : Recovering P) (hclaimed : Claimed P) (hcourse : OnCourse P)
    {j : Nat} {u : Thread stageMachine} {c : StoreCall} {L : Ledger} (ht : P.threads[i]? = some t)
    (hta : t.alive = true) (hi : t.state.Issues c) (hL : P.shared.state.Accepts c L)
    (hu : P.threads[j]? = some u) (hk : SideEffect u.call u.history c.key) : Ledger.Candid c := by
  have hcommitted : Committed u c.key := .inr hk.1
  have hmem := hcommitted.claim_mem (hcourse j u hu)
  have hc := hcourse i t ht
  rcases hc.candid hi with hcandid | ⟨target,r,rfl⟩ | ⟨d,error,hstate,hkey⟩ |
      ⟨target,r,terminal,hstate,hphase,hkey⟩
  · exact hcandid
  · cases hL with
    | claim _ hfresh => exact absurd (hclaimed.known j u hu _ hmem) hfresh
  · -- only the run that has the key could fail it, and it knows that nothing was sent
    have hclaim : t.state.claim? = some d := by rw [hstate]; rfl
    have hmem' := hc.claim_mem hclaim
    rw [← hkey] at hmem'
    obtain rfl := hclaimed.unique i j t u c.key ht hu hmem' hmem
    obtain rfl := Option.some.inj (ht.symm.trans hu)
    obtain ⟨job,n,answers,phase,hcall,-⟩ := hc.held hclaim
    rw [hcall,hstate] at hc
    rw [hcall] at hk
    exact absurd hk (RunCourse.failing_harmless error hc c.key)
  · have hdead := hP.reaping i t target r terminal ht hta hstate hphase
    rw [← hkey] at hdead
    exact absurd hcommitted (hdead.uncommitted j u hu)

theorem Holding.accounted (hP : Holding P) (hclaimed : Claimed P) {job : Job}
    (hc : Course t.history t.state t.call) (ht : P.threads[i]? = some t) (hta : t.alive = true)
    (hs : t.state.Step e σ') (hcall : t.call = .run job) (he : isExecute e = true)
    (hk : k ∈ executedKeys t.call (t.history ++ [e])) :
    P.shared.Both (Ledger.Accounted · job.target k) := by
  generalize hstate : t.state = s at hs
  cases hs with
  | @call c =>
    have hrun : Held job t.history c 0 [] .begun := by
      rw [hcall,hstate] at hc
      exact hc
    have hheld := hP i t c ht hta (by rw [hstate]; rfl)
    have hphase : c.record.phase.committed = true := by rw [hrun.phase_eq]; rfl
    rw [hcall,(hrun.opened.snoc _).executedKeys job] at hk
    obtain rfl := List.eq_of_mem_replicate hk
    rw [← hrun.key,← hrun.job_eq]
    exact ⟨hclaimed.sound.state.accounted hheld.1 hphase,
      hclaimed.sound.saved_valid.accounted hheld.2 hphase⟩
  | _ => cases he

theorem reachable_accounted
    (hr : Pool.Reachable stageMachine recoveryWorld restartAlone JsonActionStore.fresh P) :
    AllAccounted P := by
  refine hr.invariant (fun i t job k ht => by simp at ht) ?_
  intro P l P' hr hP _ hs j u job k hu hcall hk
  have hclaimed := reachable_claimed hr
  have hcourse := reachable_onCourse hr
  obtain ⟨hhold,-,hrec⟩ := reachable_recovering hr
  have hkeep : ∀ t, P.threads[j]? = some t → t.call = .run job → SideEffect t.call t.history k →
      P'.shared.Both (Ledger.Accounted · job.target k) := by
    intro u hu hcall hk
    have hold := hP j u job k hu hcall hk
    refine JsonActionStore.Both.step hold hcourse hs fun i t c L ht hta hissues hadm hL => ?_
    by_cases hkey : c.key = k
    · subst hkey
      have hcommitted : Committed u c.key := .inr hk.1
      have hknown := hclaimed.known j u hu _ (hcommitted.claim_mem (hcourse j u hu))
      exact hold.1.extends_self hclaimed.sound.state hL.extends hknown
        (hrec.candid hclaimed hcourse ht hta hissues hL hu hk) hadm
    · exact hold.1.extends_other hL.extends hkey
  cases hs.change hu with
  | spawned call =>
    have hexec : k ∈ executedKeys call [] := hk.1
    rw [executedKeys_eq_nil rfl] at hexec
    cases hexec
  | beside _ ht | waits ht | killed ht => exact hkeep _ ht hcall hk
  | @acts t e _ ht hta hm hw =>
    rcases hk.of_snoc with hold | hexec
    · exact hkeep t ht hcall hold
    · have hnew := hhold.accounted hclaimed (hcourse j t ht) ht hta hm hcall hexec hk.1
      obtain ⟨op,answer⟩ := e
      cases op with
      | execute =>
        have hsame : P'.shared = P.shared := hw
        exact hsame ▸ hnew
      | _ => cases hexec

end Pool

section Recovers
variable [Chrono] [Render]
variable {s : JsonActionStore}

/-- `recover_after_restart` alone over a store: what it may return and what it leaves. -/
def Recovers (s : JsonActionStore) (target : String) (result : TxResult)
    (s' : JsonActionStore) : Prop :=
  ∃ h, Traces (TxCall.main (.recoverAfterRestart target)) h (.inr result) ∧
    recoveryWorld.Answered s h s'

theorem recovers_ok {s' : JsonActionStore} {target : String} {r : ActionRecord}
    {x : Option ActionRecord} (hcur : s.state.activeOf target = some r)
    (h : Recovers s target (.ok x) s') :
    x = some (restarted r) ∧ s.Outcome (.append target (restarted r)) true s' := by
  obtain ⟨h,htrace,hans⟩ := h
  obtain ⟨found,k,rfl,hk⟩ := Traces.ask_inv (S := txSig) (.active target) htrace
  cases hans with
  | cons hactive hrest =>
    obtain ⟨⟨host,hactive⟩,rfl⟩ := hactive
    cases found with
    | error =>
      obtain ⟨-,hx⟩ := hk.done_inv
      cases hx
    | ok =>
      obtain rfl := (active_eq hactive).symm.trans hcur
      obtain ⟨answer,k',rfl,hk'⟩ :=
        Traces.ask_inv (S := txSig) (.append target (restarted r)) hk
      cases hrest with
      | cons happend hrest =>
        obtain ⟨host',happend⟩ := happend
        cases answer with
        | error =>
          obtain ⟨-,hx⟩ := Traces.done_inv hk'
          cases hx
        | ok =>
          obtain ⟨rfl,hx⟩ := Traces.done_inv hk'
          cases hx
          cases hrest
          exact ⟨rfl,JsonActionStore.append_outcome happend⟩

omit [Chrono] [Render] in
theorem traces_recoverAfterRestart (target : String) (r : ActionRecord) :
    Traces (recoverAfterRestart target).run
      [⟨.active target,.ok (some r)⟩,⟨.append target (restarted r),.ok ()⟩]
      (.ok (some (restarted r))) := by
  refine traces_askThen ?_
  refine (traces_orThrow rfl).run_bind (h := []) ?_
  refine traces_askThen ?_
  exact (traces_orThrow rfl).run_bind (k := []) (.done _)

theorem recovers_exists {target : String} {r : ActionRecord}
    (hcur : s.state.activeOf target = some r) :
    ∃ s', Recovers s target (.ok (some (restarted r))) s' := by
  refine ⟨.holding (s.state.appended target (restarted r)),
    [⟨.active target,.ok (some r)⟩,⟨.append target (restarted r),.ok ()⟩],?_,?_⟩
  · exact (traces_recoverAfterRestart target r).bind_pure (Sum.inr (α := Poll))
  · refine .cons ⟨⟨.stored,?_⟩,rfl⟩ (.cons ⟨.stored,?_⟩ (.nil _))
    · simp [JsonActionStore.active,hcur]
    · exact JsonActionStore.append_stored hcur rfl rfl

/-- The last record of the transaction is final, or a recovery makes it `HumanRequired`. -/
def Handled (s : JsonActionStore) (target k : String) : Prop :=
  ∃ last, (s.state.trail target k).getLast? = some last ∧
    (last.phase = .succeeded ∨ last.phase = .humanRequired ∨
      (last.phase ∈ [.begun,.sent,.verifying] ∧ (∃ x s', Recovers s target (.ok x) s') ∧
        ∀ x s', Recovers s target (.ok x) s' → ∃ final, x = some final ∧
          final.phase = .humanRequired ∧ s'.disk = some s'.state ∧
          (s'.state.trail target k).getLast? = some final))

theorem Ledger.Accounted.handled {target : String} (hs : s.state.Accounted target k)
    (hv : s.state.Valid) : Handled s target k := by
  obtain ⟨r,hlast,hphase⟩ := hs.trail_last hv
  refine ⟨r,hlast,hphase.imp_right (Or.imp_right ?_)⟩
  rintro ⟨hcommitted,hactive⟩
  have hopen : r.phase ∈ [.begun,.sent,.verifying] := by
    revert hcommitted
    cases r.phase <;> simp [ActionPhase.committed]
  obtain ⟨s',hs'⟩ := recovers_exists hactive
  refine ⟨hopen,⟨_,s',hs'⟩,fun x s' hrec => ?_⟩
  obtain ⟨rfl,ho⟩ := recovers_ok hactive hrec
  obtain ⟨hkey,hreaped⟩ := restarted_spec r
  have hprep : r.phase ≠ .prepared := fun hp => by rw [hp] at hcommitted; cases hcommitted
  refine ⟨_,rfl,by rw [hreaped,ActionPhase.reaped,if_neg hprep],?_⟩
  cases ho with
  | stored hL =>
    have hk : StoreCall.key (.append target (restarted r)) = k :=
      hkey.trans (Ledger.mem_trail hlast).2
    have htrail := hL.extends.trail_self
    rw [hk] at htrail
    refine ⟨rfl,?_⟩
    exact (congrArg List.getLast? htrail).trans List.getLast?_concat

end Recovers

section Theorem
variable [Chrono] [Render]

/-- Whatever the store loses and wherever the daemon crashes: a transaction that may have
sent input has no `Failed` record, in memory or after a reload, and its last record is
`Succeeded` or `HumanRequired` or becomes `HumanRequired` by `recover_after_restart`;
and that recovery records `Failed` only for keys that never were executed. -/
theorem side_effects_accounted {P : Pool txMachine JsonActionStore}
    (hr : Pool.Reachable txMachine recoveryWorld restartAlone JsonActionStore.fresh P) :
    (∀ (i : Nat) (t : Thread txMachine) (job : Job) (k : String), P.threads[i]? = some t →
      t.call = .run job → SideEffect t.call t.history k →
      ∀ s, s = P.shared ∨ JsonActionStore.load P.shared.disk = .ok s →
        (∀ target, ∀ r ∈ s.state.auditOf target, r.idempotencyKey = k → r.phase ≠ .failed) ∧
        Handled s job.target k) ∧
    ∀ (i : Nat) (t : Thread txMachine) (target : String), P.threads[i]? = some t →
      t.call = .recoverAfterRestart target → ∀ target' record answer,
      (⟨.append target' record,answer⟩ : TxEvent) ∈ t.history → record.phase = .failed →
      ∀ (j : Nat) (u : Thread txMachine), P.threads[j]? = some u →
        record.idempotencyKey ∉ executedKeys u.call u.history := by
  obtain ⟨R,hsim⟩ := txMachine_simulates
  obtain ⟨Q,hQ,hPQ⟩ := hr.similar hsim
  obtain ⟨-,-,hrec⟩ := reachable_recovering hQ
  have hclaimed := reachable_claimed hQ
  -- only calls and histories are used, and both pools agree on those
  have hthread : ∀ (i : Nat) (t : Thread txMachine), P.threads[i]? = some t →
      ∃ u : Thread stageMachine, Q.threads[i]? = some u ∧ u.call = t.call ∧
        u.history = t.history := by
    intro i t ht
    obtain ⟨u,hu,-,hview⟩ := hPQ.thread ht
    exact ⟨u,hu,hview⟩
  constructor
  · intro i t job k ht hcall hk s hs
    obtain ⟨u,hu,huc,huh⟩ := hthread i t ht
    have hboth := reachable_accounted hQ i u job k hu (huc.trans hcall) (by rwa [huc,huh])
    rw [hPQ.shared] at hs
    rcases hs with rfl | hload
    · exact ⟨hboth.1.unfailed,hboth.1.handled hclaimed.sound.state⟩
    · have hloaded := (hboth.load hload).1
      have hsound := (JsonActionStore.load_sound hclaimed.sound hload).1
      exact ⟨hloaded.unfailed,hloaded.handled hsound.state⟩
  · intro i t target ht hcall target' record answer hmem hphase j u hu hexec
    obtain ⟨t',ht',htc,hth⟩ := hthread i t ht
    obtain ⟨u',hu',huc,huh⟩ := hthread j u hu
    have hdead := hrec.failed i t' target ht' (htc.trans hcall) target' record answer
      (by rwa [hth]) hphase
    exact hdead.uncommitted j u' hu' (.inr (by rwa [huc,huh]))

end Theorem

theorem side_effects_accounted_crash :
    let _ := Sample.chrono
    let _ := Sample.render
    let key := Sample.resume.key Sample.prelude.baseline
    ∃ P : Pool txMachine JsonActionStore,
      Pool.Reachable txMachine recoveryWorld restartAlone JsonActionStore.fresh P ∧
      (∃ t ∈ P.threads, t.call = .run Sample.resume ∧ t.alive = false ∧
        SideEffect t.call t.history key) ∧
      ∃ s, JsonActionStore.load P.shared.disk = .ok s ∧ Handled s "pane-1" key := by
  have hreach : Pool.Reachable Sample.system recoveryWorld restartAlone .fresh Sample.executing := by
    refine (Sample.started_reached (by rintro v ⟨⟩)).play _ fun V l hl => ?_
    obtain ⟨e,rfl⟩ := Pool.mem_labels_replicate hl
    trivial
  have hload : JsonActionStore.load Sample.executing.shared.disk = .ok Sample.executing.shared := by
    decide
  obtain ⟨t,ht,htest⟩ := Pool.exists_thread (l := Sample.executing.threads)
    (fun t => decide (t.call = .run Sample.resume ∧ returns t.history = [] ∧
      Sample.resume.key Sample.paused ∈ executedKeys t.call t.history)) (by decide)
  obtain ⟨hcall,hreturns,hexecuted⟩ := of_decide_eq_true htest
  have hside : SideEffect t.call t.history (Sample.resume.key Sample.paused) := by
    refine ⟨hexecuted,?_⟩
    rw [hreturns]
    exact nofun
  have hcrash := hreach.step (l := .crash) trivial (.crash _ _ hload)
  rw [ht] at hcrash
  intro _ _ key
  refine ⟨_,hcrash,⟨_,List.mem_singleton.2 rfl,hcall,rfl,hside⟩,_,hload,?_⟩
  exact ((side_effects_accounted hcrash).1 0 _ Sample.resume key rfl hcall hside _ (.inr hload)).2

end WatchMe
