import WatchMe.Recovery.Stage

/-! # The course of one call

What the history of a call contains in each stage: which key it claimed, whether it
called the executor, what the executor answered, and the phase of the record persisted
last. Results about interleavings use these facts and never the program.
-/
namespace WatchMe
open Effects Transaction
variable {h : List TxEvent} {b : LiveEvidence}

def grantedKey : TxEvent → Option String
  | ⟨.claimPrepared _ record,.ok true⟩ => some record.idempotencyKey
  | _ => none

def isExecute : TxEvent → Bool
  | ⟨.execute _,_⟩ => true
  | _ => false

def executeReturn : TxEvent → Option (Except ExecutionError ExecutionOutput)
  | ⟨.executeReturns _,answer⟩ => some answer
  | _ => none

def claims (h : List TxEvent) : List String := h.filterMap grantedKey
def executes (h : List TxEvent) : Nat := h.countP isExecute
def returns (h : List TxEvent) : List (Except ExecutionError ExecutionOutput) :=
  h.filterMap executeReturn

/-- The keys under which a call has called the executor: its target, its action and the
fingerprint of the first evidence it read. -/
def executedKeys : TxCall → List TxEvent → List String
  | .run job, ⟨.read,.ok baseline⟩ :: h => (h.filter isExecute).map fun _ => job.key baseline
  | _, _ => []

def MaySend : Except ExecutionError ExecutionOutput → Prop
  | .ok _ => True
  | .error error => ¬ error.Clean

@[simp] theorem claims_snoc (h : List TxEvent) (e : TxEvent) :
    claims (h ++ [e]) = claims h ++ (grantedKey e).toList := by
  cases he : grantedKey e <;> simp [claims,he]

@[simp] theorem executes_snoc (h : List TxEvent) (e : TxEvent) :
    executes (h ++ [e]) = executes h + if isExecute e then 1 else 0 := by
  simp [executes,List.countP_cons]

@[simp] theorem returns_snoc (h : List TxEvent) (e : TxEvent) :
    returns (h ++ [e]) = returns h ++ (executeReturn e).toList := by
  cases he : executeReturn e <;> simp [returns,he]

/-- The history starts with an accepted read of the baseline. -/
def Opened (h : List TxEvent) (baseline : LiveEvidence) : Prop :=
  h.head? = some ⟨.read,.ok baseline⟩

theorem Opened.snoc (ho : Opened h b) (e : TxEvent) : Opened (h ++ [e]) b := by
  cases h with
  | nil => cases ho
  | cons => exact ho

theorem Opened.executedKeys (ho : Opened h b) (job : Job) :
    executedKeys (.run job) h = List.replicate (executes h) (job.key b) := by
  cases h with
  | nil => cases ho
  | cons =>
    simp only [Opened,List.head?_cons,Option.some.injEq] at ho
    subst ho
    simp only [WatchMe.executedKeys,executes,List.countP_eq_length_filter]
    exact List.map_const' ..

structure Idle (h : List TxEvent) : Prop where
  claims_nil : claims h = []
  executes_zero : executes h = 0
  returns_nil : returns h = []

theorem Idle.snoc (hi : Idle h) {e : TxEvent} (hclaim : grantedKey e = none)
    (hexec : isExecute e = false) (hret : executeReturn e = none) : Idle (h ++ [e]) where
  claims_nil := by simp [hi.claims_nil,hclaim]
  executes_zero := by simp [hi.executes_zero,hexec]
  returns_nil := by simp [hi.returns_nil,hret]

/-- A call that holds a claim: its record, the one key it claimed, its executor calls and
their answers. -/
structure Held (job : Job) (h : List TxEvent) (c : Claim) (executed : Nat)
    (answers : List (Except ExecutionError ExecutionOutput)) (phase : ActionPhase) : Prop where
  job_eq : c.job = job
  key : c.record.idempotencyKey = job.key c.baseline
  owner : c.record.owner = job.owner
  opened : Opened h c.baseline
  claims_eq : claims h = [job.key c.baseline]
  executes_eq : executes h = executed
  returns_eq : returns h = answers
  phase_eq : c.record.phase = phase

section Held
variable {job : Job} {h : List TxEvent} {c : Claim} {n : Nat}
  {answers : List (Except ExecutionError ExecutionOutput)} {phase : ActionPhase}

theorem Held.quiet (hh : Held job h c n answers phase) {e : TxEvent}
    (hclaim : grantedKey e = none) (hexec : isExecute e = false)
    (hret : executeReturn e = none) : Held job (h ++ [e]) c n answers phase where
  job_eq := hh.job_eq
  key := hh.key
  owner := hh.owner
  opened := hh.opened.snoc e
  claims_eq := by simp [hclaim,hh.claims_eq]
  executes_eq := by simp [hexec,hh.executes_eq]
  returns_eq := by simp [hret,hh.returns_eq]
  phase_eq := hh.phase_eq

theorem Held.next (hh : Held job h c n answers phase) (phase' : ActionPhase)
    (reason : String) : Held job h (c.next phase' reason) n answers phase' :=
  ⟨hh.job_eq,hh.key,hh.owner,hh.opened,hh.claims_eq,hh.executes_eq,hh.returns_eq,rfl⟩

theorem Held.withOutput [Render] (hh : Held job h c n answers phase)
    (output : ExecutionOutput) : Held job h (c.withOutput output) n answers phase :=
  ⟨hh.job_eq,hh.key,hh.owner,hh.opened,hh.claims_eq,hh.executes_eq,hh.returns_eq,hh.phase_eq⟩

end Held

def Over (job : Job) (h : List TxEvent) : Prop :=
  (claims h = [] ∧ executes h = 0) ∨
    ∃ b, Opened h b ∧ claims h = [job.key b] ∧ executes h ≤ 1

theorem Idle.over (hi : Idle h) (job : Job) : Over job h :=
  .inl ⟨hi.claims_nil,hi.executes_zero⟩

theorem Held.over {job : Job} {c : Claim} {n : Nat}
    {answers : List (Except ExecutionError ExecutionOutput)} {phase : ActionPhase}
    (hh : Held job h c n answers phase) (hn : n ≤ 1) : Over job h :=
  .inr ⟨c.baseline,hh.opened,hh.claims_eq,hh.executes_eq ▸ hn⟩

structure Reading (job : Job) (h : List TxEvent) (j : Job) (b : LiveEvidence) : Prop where
  job_eq : j = job
  opened : Opened h b
  idle : Idle h

structure Ready (job : Job) (h : List TxEvent) (c : Claim) : Prop where
  job_eq : c.job = job
  key : c.record.idempotencyKey = job.key c.baseline
  owner : c.record.owner = job.owner
  phase_eq : c.record.phase = .prepared
  opened : Opened h c.baseline
  idle : Idle h

/-- A call whose executor may have sent input and whose outcome is not yet recorded. -/
def Doubtful (job : Job) (h : List TxEvent) (c : Claim) : Prop :=
  ∃ answer phase, MaySend answer ∧ phase ∈ [.begun,.sent,.verifying] ∧
    Held job h c 1 [answer] phase

theorem Held.doubtful {job : Job} {c : Claim} {answer : Except ExecutionError ExecutionOutput}
    {phase : ActionPhase} (hh : Held job h c 1 [answer] phase) (hm : MaySend answer)
    (hp : phase ∈ [.begun,.sent,.verifying]) : Doubtful job h c :=
  ⟨answer,phase,hm,hp,hh⟩

/-- The course of `run`, stage by stage. -/
def RunCourse (job : Job) (h : List TxEvent) : Stage → Prop
  | .entered j => j = job ∧ h = []
  | .baselined j b | .authorized j b | .confirmed j b _ => Reading job h j b
  | .prepared c _ => Ready job h c
  | .claimed c _ | .rechecked c => Held job h c 0 [] .prepared
  | .begun c => Held job h c 0 [] .begun
  | .calling c => Held job h c 1 [] .begun
  | .returned c output => Held job h c 1 [.ok output] .begun
  | .closing c | .opening c => ∃ output, Held job h c 1 [.ok output] .sent
  | .verifying c => ∃ output, Held job h c 1 [.ok output] .verifying
  | .polling p | .checked p | .sleeping p =>
    ∃ output, Held job h p.claim 1 [.ok output] .verifying
  | .proven p after => (∃ output, Held job h p.claim 1 [.ok output] .verifying) ∧
    h.getLast? = some ⟨.readVerification p.claim.baseline,.ok after⟩ ∧
    after.humanIntervened = false ∧ after.identity = p.claim.baseline.identity ∧
    verified p.claim.baseline after p.claim.job.action.expectedOutcomes = true
  | .failing c _ => Held job h c 0 [] .prepared ∨
    ∃ error, error.Clean ∧ Held job h c 1 [.error error] .begun
  | .doubtful c _ => Doubtful job h c
  | .ended _ => Over job h
  | .restarting _ | .reclaiming _ | .expiring _ _ | .probing _ _ | .reaping _ _ _ => False

def StaleCourse (target : String) : Stage → Prop
  | .reclaiming t => t = target
  | .expiring t _ | .probing t _ => t = target
  | .reaping t record terminal => t = target ∧ terminal = expired record
  | .ended _ => True
  | _ => False

def RestartCourse (target : String) : Stage → Prop
  | .restarting t => t = target
  | .reaping t record terminal => t = target ∧ terminal = restarted record
  | .ended _ => True
  | _ => False

def Course (h : List TxEvent) (s : Stage) : TxCall → Prop
  | .run job => RunCourse job h s
  | .recoverStale target => StaleCourse target s ∧ Idle h
  | .recoverAfterRestart target => RestartCourse target s ∧ Idle h

section Step
variable {job : Job} {h : List TxEvent} {s s' : Stage} {e : TxEvent}
variable {c : Claim}

theorem Reading.quiet {j : Job} (hr : Reading job h j b) (hclaim : grantedKey e = none)
    (hexec : isExecute e = false) (hret : executeReturn e = none) : Reading job (h ++ [e]) j b :=
  ⟨hr.job_eq,hr.opened.snoc e,hr.idle.snoc hclaim hexec hret⟩

theorem Ready.claim (hr : Ready job h c) :
    Held job (h ++ [⟨.claimPrepared c.job.target c.record,.ok true⟩]) c 0 [] .prepared where
  job_eq := hr.job_eq
  key := hr.key
  owner := hr.owner
  opened := hr.opened.snoc _
  claims_eq := by simp [hr.idle.claims_nil,grantedKey,hr.key]
  executes_eq := by simp [hr.idle.executes_zero,isExecute]
  returns_eq := by simp [hr.idle.returns_nil,executeReturn]
  phase_eq := hr.phase_eq

theorem Held.call (hh : Held job h c 0 [] .begun) :
    Held job (h ++ [⟨.execute c.job.action,()⟩]) c 1 [] .begun where
  job_eq := hh.job_eq
  key := hh.key
  owner := hh.owner
  opened := hh.opened.snoc _
  claims_eq := by simp [hh.claims_eq,grantedKey]
  executes_eq := by simp [hh.executes_eq,isExecute]
  returns_eq := by simp [hh.returns_eq,executeReturn]
  phase_eq := hh.phase_eq

theorem Held.returnCall (hh : Held job h c 1 [] .begun) (action : Action)
    (answer : Except ExecutionError ExecutionOutput) :
    Held job (h ++ [⟨.executeReturns action,answer⟩]) c 1 [answer] .begun where
  job_eq := hh.job_eq
  key := hh.key
  owner := hh.owner
  opened := hh.opened.snoc _
  claims_eq := by simp [hh.claims_eq,grantedKey]
  executes_eq := by simp [hh.executes_eq,isExecute]
  returns_eq := by simp [hh.returns_eq,executeReturn]
  phase_eq := hh.phase_eq

variable [Chrono] [Render]

theorem RunCourse.step (hc : RunCourse job h s) (hs : s.Step e s') :
    RunCourse job (h ++ [e]) s' := by
  cases hs with
  | readFailed | refused => obtain ⟨rfl,rfl⟩ := hc; exact .inl ⟨rfl,rfl⟩
  | baseline => obtain ⟨rfl,rfl⟩ := hc; exact ⟨rfl,rfl,rfl,rfl,rfl⟩
  | denied | rereadFailed | rerefused | unrendered =>
    exact (hc.quiet rfl rfl rfl).idle.over job
  | authorize | confirm => exact hc.quiet rfl rfl rfl
  | prepare =>
    obtain ⟨rfl,ho,hi⟩ := hc
    exact ⟨rfl,rfl,rfl,rfl,ho.snoc _,hi.snoc rfl rfl rfl⟩
  | claimFailed | duplicate => exact Idle.over (hc.idle.snoc rfl rfl rfl) job
  | claim => exact hc.claim
  | recheckFailed => exact .inl (hc.quiet rfl rfl rfl)
  | recheck => exact hc.quiet rfl rfl rfl
  | beginFailed => exact (hc.quiet rfl rfl rfl).over (Nat.zero_le _)
  | begin => exact (hc.quiet rfl rfl rfl).next _ _
  | call => exact hc.call
  | callOk => exact hc.returnCall _ _
  | callDoubtful => exact (hc.returnCall _ _).doubtful (fun h => h) (by simp)
  | callFailed hclean => exact .inr ⟨_,hclean,hc.returnCall _ _⟩
  | sendFailed => exact ((hc.quiet rfl rfl rfl).withOutput _).doubtful trivial (by simp)
  | unreceipted =>
    exact (((hc.quiet rfl rfl rfl).withOutput _).next _ _).doubtful trivial (by simp)
  | sendUnverified | send => exact ⟨_,((hc.quiet rfl rfl rfl).withOutput _).next _ _⟩
  | closeFailed | close =>
    obtain ⟨output,hh⟩ := hc
    exact (hh.quiet rfl rfl rfl).over (Nat.le_refl 1)
  | succeedFailed | succeed =>
    obtain ⟨⟨output,hh⟩,-⟩ := hc
    exact (hh.quiet rfl rfl rfl).over (Nat.le_refl 1)
  | openFailed =>
    obtain ⟨output,hh⟩ := hc
    exact (hh.quiet rfl rfl rfl).doubtful trivial (by simp)
  | verify =>
    obtain ⟨output,hh⟩ := hc
    exact ⟨output,(hh.quiet rfl rfl rfl).next _ _⟩
  | setDeadline | unproven | retry | wake =>
    obtain ⟨output,hh⟩ := hc
    exact ⟨output,hh.quiet rfl rfl rfl⟩
  | pollDoubtful | timedOut =>
    obtain ⟨output,hh⟩ := hc
    exact (hh.quiet rfl rfl rfl).doubtful trivial (by simp)
  | prove hhuman hid hver =>
    obtain ⟨output,hh⟩ := hc
    exact ⟨⟨output,hh.quiet rfl rfl rfl⟩,by simp,hhuman,hid,hver⟩
  | fail =>
    rcases hc with hh | ⟨error,-,hh⟩
    · exact (hh.quiet rfl rfl rfl).over (Nat.zero_le _)
    · exact (hh.quiet rfl rfl rfl).over (Nat.le_refl 1)
  | escalate =>
    obtain ⟨answer,phase,-,-,hh⟩ := hc
    exact (hh.quiet rfl rfl rfl).over (Nat.le_refl 1)
  | restartFailed | restartIdle | restart | reclaimFailed | reclaimIdle | reclaim | leased
  | expire | ownerAlive | ownerGone | reapFailed | reap => exact hc.elim

theorem StaleCourse.step {target : String} (hc : StaleCourse target s) (hs : s.Step e s') :
    StaleCourse target s' ∧ grantedKey e = none ∧ isExecute e = false ∧
      executeReturn e = none := by
  cases hs with
  | reclaimFailed | reclaimIdle | leased | ownerAlive | reapFailed | reap =>
    exact ⟨trivial,rfl,rfl,rfl⟩
  | reclaim | expire => exact ⟨hc,rfl,rfl,rfl⟩
  | ownerGone => exact ⟨⟨hc,rfl⟩,rfl,rfl,rfl⟩
  | _ => exact hc.elim

theorem RestartCourse.step {target : String} (hc : RestartCourse target s) (hs : s.Step e s') :
    RestartCourse target s' ∧ grantedKey e = none ∧ isExecute e = false ∧
      executeReturn e = none := by
  cases hs with
  | restartFailed | restartIdle | reapFailed | reap => exact ⟨trivial,rfl,rfl,rfl⟩
  | restart => exact ⟨⟨hc,rfl⟩,rfl,rfl,rfl⟩
  | _ => exact hc.elim

theorem runs_course {call : TxCall} (hr : stageMachine.Runs call h s) : Course h s call := by
  refine hr.invariant ?_ ?_
  · cases call with
    | run job =>
      change RunCourse job [] (Stage.startRun job)
      rcases Stage.startRun_cases job with ⟨heq,-⟩ | ⟨r,heq⟩
      · rw [heq]
        exact ⟨rfl,rfl⟩
      · rw [heq]
        exact .inl ⟨rfl,rfl⟩
    | recoverStale => exact ⟨rfl,rfl,rfl,rfl⟩
    | recoverAfterRestart => exact ⟨rfl,rfl,rfl,rfl⟩
  · intro h s e s' hc hs
    cases call with
    | run => exact RunCourse.step hc hs
    | recoverStale =>
      obtain ⟨hc',h₁,h₂,h₃⟩ := StaleCourse.step hc.1 hs
      exact ⟨hc',hc.2.snoc h₁ h₂ h₃⟩
    | recoverAfterRestart =>
      obtain ⟨hc',h₁,h₂,h₃⟩ := RestartCourse.step hc.1 hs
      exact ⟨hc',hc.2.snoc h₁ h₂ h₃⟩

end Step

end WatchMe
