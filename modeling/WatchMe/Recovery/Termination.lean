import WatchMe.Effects.Ensures
import WatchMe.Recovery.RunTraces

/-! # Transactions end

The verification loop has no counter. It ends because the clock moves on: every round that is not
the last one sleeps, and the deadline is a fixed time after the start of the loop. Store, evidence
reader and executor may answer whatever they want.
-/
namespace WatchMe
open Effects World Transaction

/-- The time below which the clock will not go again, and the verification reads made so far. -/
structure ClockState where
  now : Nat
  reads : Nat

/-- A clock that never goes back and that a sleep moves on by its length. Any other answer is
possible, and takes any time. -/
def ClockState.Answers (s : ClockState) : TxEvent → ClockState → Prop
  | ⟨.monotonicMs,time⟩, s' => s.now ≤ time ∧ s' = ⟨time,s.reads⟩
  | ⟨.sleepMs duration,_⟩, s' => s.now + duration ≤ s'.now ∧ s'.reads = s.reads
  | ⟨.readVerification _,_⟩, s' => s.now ≤ s'.now ∧ s'.reads = s.reads + 1
  | _, s' => s.now ≤ s'.now ∧ s'.reads = s.reads

def clockWorld : World txSig ClockState := ⟨ClockState.Answers,fun s s' => s' = s⟩

/-- Every request but a verification read leaves the count of reads. -/
def TxOp.quiet : TxOp → Bool
  | .readVerification _ => false
  | _ => true

theorem quiet_answered {op : TxOp} (s : ClockState) (hop : op.quiet = true) :
    (∃ r s', clockWorld.Answers s ⟨op,r⟩ s') ∧
      ∀ r s', clockWorld.Answers s ⟨op,r⟩ s' → s'.reads = s.reads := by
  obtain ⟨r⟩ := answer_nonempty op
  cases op with
  | readVerification => cases hop
  | monotonicMs =>
    refine ⟨⟨s.now,_,Nat.le_refl _,rfl⟩,?_⟩
    rintro _ _ ⟨-,rfl⟩
    rfl
  | sleepMs duration => exact ⟨⟨(),⟨s.now + duration,s.reads⟩,Nat.le_refl _,rfl⟩,fun _ _ h => h.2⟩
  | _ => exact ⟨⟨r,s,Nat.le_refl _,rfl⟩,fun _ _ h => h.2⟩

section Calm
variable {α β : Type} {s : ClockState}
variable {reason : String} {phase : ActionPhase}

/-- No verification read was made, and a value that is returned meets `R`. -/
def Calm (s : ClockState) (R : ClockState → α → Prop) (s' : ClockState)
    (r : Except TransactionError α) : Prop :=
  s'.reads = s.reads ∧ ∀ a, r = .ok a → R s' a

variable {R : ClockState → α → Prop} {R' : ClockState → β → Prop}

theorem calm_bind {x : Tx α} {f : α → Tx β} (hx : clockWorld.Achieves (Calm s R) x.run s)
    (hf : ∀ a s', R s' a → clockWorld.Achieves (Calm s' R') (f a).run s') :
    clockWorld.Achieves (Calm s R') (x >>= f).run s := by
  refine achieves_run_bind.2 (hx.mono fun s' r hr => ?_)
  cases r with
  | error => exact ⟨hr.1,nofun⟩
  | ok a =>
    refine (hf a s' (hr.2 a rfl)).mono fun s'' r' hr' => ?_
    exact ⟨hr'.1.trans hr.1,hr'.2⟩

theorem calm_pure {a : α} (h : R s a) : clockWorld.Achieves (Calm s R) (pure a : Tx α).run s := by
  refine ⟨rfl,fun b hb => ?_⟩
  cases hb
  exact h

theorem calm_throw {error : TransactionError} :
    clockWorld.Achieves (Calm s R) (throw error : Tx α).run s := ⟨rfl,nofun⟩

theorem calm_ask {op : TxOp} (hop : op.quiet = true) :
    clockWorld.Achieves (Calm s fun _ _ => True) (Transaction.ask op).run s := by
  refine ⟨(quiet_answered s hop).1,fun r s' hw => ?_⟩
  exact ⟨(quiet_answered s hop).2 r s' hw,fun _ _ => trivial⟩

theorem calm_orThrow {ε : Type} {wrap : ε → TransactionError} {x : Except ε α} :
    clockWorld.Achieves (Calm s fun _ _ => True) (orThrow wrap x).run s := by
  cases x with
  | ok => exact calm_pure trivial
  | error => exact calm_throw

theorem calm_lift {x : Tx α} (hx : clockWorld.Achieves (Calm s fun _ _ => True) x.run s) :
    clockWorld.Achieves (Calm s fun _ _ => True)
      (ExceptT.lift x.run : Tx (Except TransactionError α)).run s := by
  refine achieves_bind.2 (hx.mono fun s' r hr => ?_)
  exact ⟨hr.1,fun _ _ => trivial⟩

theorem calm_revalidate {action : Action} {baseline : Option LiveEvidence} :
    clockWorld.Achieves (Calm s fun _ _ => True) (revalidate action baseline).run s := by
  refine calm_bind (calm_ask rfl) fun _ _ _ => calm_bind calm_orThrow fun live _ _ => ?_
  split
  · exact calm_throw
  · exact calm_pure trivial

theorem calm_persist {target : String} {record : ActionRecord} :
    clockWorld.Achieves (Calm s fun _ _ => True) (persist target record phase reason).run s :=
  calm_bind (calm_ask rfl) fun _ _ _ => calm_bind calm_orThrow fun _ _ _ => calm_pure trivial

theorem calm_terminate {target : String} {record : ActionRecord} {error : TransactionError} :
    clockWorld.Achieves (Calm s R) (terminate target record phase error : Tx α).run s :=
  calm_bind (calm_ask rfl) fun _ _ _ => calm_bind calm_orThrow fun _ _ _ => calm_throw

theorem calm_uncertain {target : String} {record : ActionRecord} :
    clockWorld.Achieves (Calm s R) (uncertain target record reason : Tx α).run s :=
  calm_bind (calm_ask rfl) fun _ _ _ => calm_bind calm_orThrow fun _ _ _ => calm_throw

theorem calm_persistOrEscalate {target note : String} {record : ActionRecord} :
    clockWorld.Achieves (Calm s fun _ _ => True)
      (persistOrEscalate target record phase reason note).run s := by
  refine calm_bind (calm_lift calm_persist) fun r _ _ => ?_
  cases r with
  | ok => exact calm_pure trivial
  | error => exact calm_uncertain

end Calm

section
variable [Chrono] [Render] {s : ClockState}

theorem calm_prepare {job : Job} :
    clockWorld.Achieves (Calm s fun _ c => c.1.job = job) (prepare job).run s := by
  refine calm_bind calm_orThrow fun _ _ _ => calm_bind calm_revalidate fun baseline _ _ => ?_
  refine calm_bind (calm_ask rfl) fun wall _ _ => calm_bind calm_orThrow fun _ _ _ => ?_
  refine calm_bind calm_revalidate fun confirmed _ _ => calm_bind (calm_ask rfl) fun now _ _ => ?_
  refine calm_bind calm_orThrow fun snapshot _ _ => calm_bind (calm_ask rfl) fun _ _ _ => ?_
  refine calm_bind calm_orThrow fun granted _ _ => ?_
  split
  · exact calm_pure rfl
  · exact calm_throw

omit [Chrono] [Render] in
theorem calm_commit {c : Claim} {confirmed : LiveEvidence} :
    clockWorld.Achieves (Calm s fun _ d => d.1.job = c.job) (commit c confirmed).run s := by
  refine calm_bind (calm_lift calm_revalidate) fun r _ _ => ?_
  cases r with
  | error => exact calm_terminate
  | ok =>
    refine calm_bind calm_persist fun record _ _ => calm_bind (calm_ask rfl) fun _ _ _ => ?_
    refine calm_bind (calm_ask rfl) fun returned _ _ => ?_
    rcases returned with (reason | reason | reason) | output
    · exact calm_terminate
    · exact calm_terminate
    · exact calm_uncertain
    · exact calm_pure rfl

/-- The deadline of a loop lies at most the timeout behind its start. -/
def StartsLoop (timeoutSeconds : Nat) (s : ClockState) : Poll ⊕ ActionRecord → Prop
  | .inl p => p.deadline ≤ s.now + timeoutSeconds * 1000
  | .inr _ => True

omit [Chrono] in
theorem calm_settle {c : Claim} {output : ExecutionOutput} :
    clockWorld.Achieves (Calm s (StartsLoop c.job.action.timeoutSeconds))
      (settle c output).run s := by
  refine calm_bind calm_persistOrEscalate fun record _ _ => ?_
  split
  · exact calm_uncertain
  · split
    · exact calm_bind calm_persist fun _ _ _ => calm_pure trivial
    · refine calm_bind calm_persistOrEscalate fun record s _ => ?_
      -- the deadline counts from the time that the clock shows now
      refine calm_bind (R := fun s now => now = s.now) ?_ fun now s' hnow => calm_pure ?_
      · refine ⟨(quiet_answered s rfl).1,fun time s' hw => ?_⟩
        obtain ⟨-,rfl⟩ := hw
        refine ⟨rfl,fun now hnow => ?_⟩
        cases hnow
        rfl
      · subst hnow
        simp only [StartsLoop,saturatingAdd,saturatingMul]
        omega

theorem calm_run {job : Job} :
    clockWorld.Achieves (Calm s (StartsLoop job.action.timeoutSeconds))
      (Transaction.run job).run s := by
  refine calm_bind calm_prepare fun c _ hc => calm_bind calm_commit fun d _ hd => ?_
  rw [← hc,← hd]
  exact calm_settle

/-- One round of the loop: it reads once, and it goes on only before the deadline and after a
sleep. -/
def RoundMade (p : Poll) (s s' : ClockState) :
    Except TransactionError (Poll ⊕ ActionRecord) → Prop
  | .ok (.inl q) => q = p ∧ s'.reads = s.reads + 1 ∧ s.now < p.deadline ∧ s.now + pollMs ≤ s'.now
  | _ => s'.reads = s.reads + 1

omit [Chrono] [Render] in
theorem poll_achieves (p : Poll) : clockWorld.Achieves (RoundMade p s) (poll p).run s := by
  -- whatever ends the round makes no further read
  have hends : ∀ {t : ClockState} {x : Tx (Poll ⊕ ActionRecord)},
      t.reads = s.reads + 1 → clockWorld.Achieves (Calm t fun _ r => r.isRight = true) x.run t →
      clockWorld.Achieves (RoundMade p s) x.run t := by
    intro t x ht hx
    refine hx.mono fun s' r hr => ?_
    rcases r with e | q | record
    · exact hr.1.trans ht
    · cases hr.2 _ rfl
    · exact hr.1.trans ht
  refine ⟨⟨.error "",⟨s.now,s.reads + 1⟩,Nat.le_refl _,rfl⟩,?_⟩
  rintro answer t ⟨htime,hreads⟩
  rcases answer with error | after
  · exact hends hreads calm_uncertain
  change clockWorld.Achieves _ (ExceptT.run (if _ then _ else _)) t
  split
  · exact hends hreads calm_uncertain
  · split
    · exact hends hreads (calm_bind calm_persist fun _ _ _ => calm_pure rfl)
    · refine ⟨⟨t.now,_,Nat.le_refl _,rfl⟩,?_⟩
      rintro time _ ⟨hnow,rfl⟩
      change clockWorld.Achieves _ (ExceptT.run (if _ then _ else _)) _
      split
      · exact hends hreads calm_uncertain
      · rename_i hbefore
        refine ⟨(quiet_answered _ rfl).1,?_⟩
        rintro _ s' ⟨hslept,hsame⟩
        have htime : s.now ≤ time := Nat.le_trans htime hnow
        exact ⟨rfl,hsame.trans hreads,by omega,
          Nat.le_trans (Nat.add_le_add_right htime pollMs) hslept⟩

def pollIntervals (timeoutSeconds : Nat) : Nat := (timeoutSeconds * 1000 + pollMs - 1) / pollMs

omit [Chrono] [Render] in
theorem pollIntervals_eq (timeoutSeconds : Nat) :
    pollIntervals timeoutSeconds = 10 * timeoutSeconds := by
  simp only [pollIntervals,pollMs]
  omega

/-- Before each read the clock is past one sleep for every read made. -/
structure Polling (start timeoutSeconds : Nat) (p q : Poll) (s : ClockState) : Prop where
  same : q = p
  time : start + pollMs * s.reads ≤ s.now
  made : s.reads ≤ pollIntervals timeoutSeconds

omit [Chrono] [Render] in
theorem polling_round {start timeoutSeconds : Nat} {p q : Poll}
    (hdeadline : p.deadline ≤ start + timeoutSeconds * 1000)
    (hs : Polling start timeoutSeconds p q s) :
    clockWorld.Achieves
      (Round (fun q' s' => Polling start timeoutSeconds p q' s' ∧
          pollIntervals timeoutSeconds - s'.reads < pollIntervals timeoutSeconds - s.reads)
        fun s' _ => s'.reads ≤ pollIntervals timeoutSeconds + 1) (TxCall.body q) s := by
  obtain ⟨rfl,htime,hmade⟩ := hs
  refine achieves_bind.2 ((poll_achieves _).mono fun s' r hr => ?_)
  rcases r with error | q | record
  · exact Nat.le_trans (Nat.le_of_eq hr) (Nat.succ_le_succ hmade)
  · obtain ⟨rfl,hreads,hbefore,hslept⟩ := hr
    have hpoll : pollMs = 100 := rfl
    rw [pollIntervals_eq] at hmade
    rw [hpoll] at htime hslept
    refine ⟨⟨rfl,?_,?_⟩,?_⟩
    · rw [hpoll]
      omega
    · rw [pollIntervals_eq]
      omega
    · rw [pollIntervals_eq]
      omega
  · exact Nat.le_trans (Nat.le_of_eq hr) (Nat.succ_le_succ hmade)

/-- Every transaction returns, whatever its collaborators answer, and it reads verification
evidence at most once for each poll interval that its timeout starts and once more. -/
theorem transaction_returns (job : Job) (now : Nat) :
    clockWorld.Returns TxCall.body
      (fun s _ => s.reads ≤ pollIntervals job.action.timeoutSeconds + 1)
      (TxCall.main (.run job)) ⟨now,0⟩ := by
  refine Achieves.returns (achieves_bind.2 (calm_run.mono fun s r hr => ?_))
  obtain ⟨hreads,hr⟩ := hr
  have hreads : s.reads = 0 := hreads
  rcases r with error | p | record
  · exact Nat.le_trans (Nat.le_of_eq hreads) (Nat.zero_le _)
  · have hstart : Polling s.now job.action.timeoutSeconds p p s :=
      ⟨rfl,by rw [hreads]; omega,by rw [hreads]; exact Nat.zero_le _⟩
    exact returns_loop (fun _ s => pollIntervals job.action.timeoutSeconds - s.reads)
      (fun _ _ => polling_round (hr _ rfl)) hstart
  · exact Nat.le_trans (Nat.le_of_eq hreads) (Nat.zero_le _)

end

end WatchMe
