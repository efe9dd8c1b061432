import WatchMe.Daemon.ServiceCalls
import WatchMe.Recovery.Conformance

/-! # The protocol of a recovery job

A job proposes an action for the watcher it was given, begins it, and then works on the
snapshot taken then: the action that is carried out, and the context in which it is authorised,
are those of the snapshot. Nothing succeeds that was not authorised.
-/
namespace WatchMe
open Effects Program Transaction Service

inductive Grant where
  | pending
  | granted (wall : String)
  | denied

namespace Grant
variable [Chrono]

inductive Step (job : Job) : Grant → TxEvent → Grant → Prop
  | read {answer : Except String LiveEvidence} : Step job pending ⟨.read,answer⟩ pending
  | grant {baseline : LiveEvidence} {wall : String} :
      authorize job.action (policyContext baseline job.recovery wall) = .ok () →
      Step job pending ⟨.wallTime,wall⟩ (granted wall)
  | deny {wall : String} : Step job pending ⟨.wallTime,wall⟩ denied
  | proceed {wall : String} {e : TxEvent} : e.op ≠ .wallTime →
      Step job (granted wall) e (granted wall)

def Returns {α : Type} (g : Grant) : Except TransactionError α → Prop
  | .ok _ => ∃ wall, g = granted wall
  | .error _ => True

end Grant

abbrev grantMachine [Chrono] (job : Job) : Machine txSig Unit Unit where
  State := Grant
  start _ := .pending
  Step := Grant.Step job
  result _ := none

section Transactions
variable [Chrono] [Render] {job : Job}

def Stage.Stands (job : Job) (g : Grant) : Stage → Prop
  | .entered j | .baselined j _ => j = job ∧ g = .pending
  | .ended (.error _) => True
  | _ => ∃ wall, g = .granted wall

variable {g : Grant} {e : ServiceEvent}

theorem Stage.Stands.step {s s' : Stage} {e : TxEvent} (h : s.Stands job g) (hs : s.Step e s') :
    ∃ g', Grant.Step job g e g' ∧ s'.Stands job g' := by
  cases hs with
  | readFailed | refused =>
    obtain ⟨rfl,rfl⟩ := h
    exact ⟨_,.read,trivial⟩
  | baseline =>
    obtain ⟨rfl,rfl⟩ := h
    exact ⟨_,.read,rfl,rfl⟩
  | denied =>
    obtain ⟨rfl,rfl⟩ := h
    exact ⟨_,.deny,trivial⟩
  | authorize hauth =>
    obtain ⟨rfl,rfl⟩ := h
    exact ⟨_,.grant hauth,_,rfl⟩
  | _ =>
    obtain ⟨wall,rfl⟩ := h
    exact ⟨_,.proceed (by simp),by first | exact ⟨wall,rfl⟩ | trivial⟩

theorem Leaves.returns {r : Except TransactionError (Poll ⊕ ActionRecord)}
    (h : ∃ s : Stage, s.Stands job g ∧ Leaves loopStage s r) : g.Returns r := by
  obtain ⟨s,hstands,hleaves⟩ := h
  cases r with
  | error => trivial
  | ok x =>
    cases hleaves
    cases x with
    | inl => exact hstands
    | inr => exact hstands

theorem run_grants (job : Job) :
    Conforms (grantMachine job) Grant.Returns (Transaction.run job).run Grant.pending := by
  have hstart : (Stage.startRun job).Stands job .pending := by
    unfold Stage.startRun
    split
    · trivial
    · exact ⟨rfl,rfl⟩
  exact ((run_conforms job).transfer (N := grantMachine job)
    (R := fun s g => Stage.Stands job g s) Stage.Stands.step (fun _ _ => rfl) hstart).mono
      fun g r h => Leaves.returns h

omit [Chrono] [Render] in
theorem asks_tx {φ : TxOp → Prop} {op : TxOp} (h : φ op) :
    (Transaction.ask op).run.Asks (S := txSig) φ :=
  Asks.run_lift ⟨h,fun _ => trivial⟩

omit [Chrono] [Render] in
theorem asks_orThrow {φ : TxOp → Prop} {ε α : Type} (wrap : ε → TransactionError)
    (answer : Except ε α) : (orThrow wrap answer).run.Asks (S := txSig) φ := by
  cases answer with
  | ok => trivial
  | error => trivial

omit [Chrono] [Render] in
theorem asks_poll (p : Poll) : (poll p).run.Asks (S := txSig) (· ≠ .wallTime) := by
  have huncertain : ∀ reason, (uncertain p.claim.job.target p.claim.record reason :
      Tx (Poll ⊕ ActionRecord)).run.Asks (S := txSig) (· ≠ .wallTime) := fun reason =>
    (asks_tx (by simp)).run_bind fun answer => (asks_orThrow _ answer).run_bind fun _ => trivial
  refine (asks_tx (by simp)).run_bind fun answer => ?_
  cases answer with
  | error => exact huncertain _
  | ok =>
    dsimp only
    split
    · exact huncertain _
    · split
      · refine Asks.run_bind ?_ fun record => trivial
        exact (asks_tx (by simp)).run_bind fun answer =>
          (asks_orThrow _ answer).run_bind fun _ => trivial
      · refine (asks_tx (by simp)).run_bind fun now => ?_
        split
        · exact huncertain _
        · exact (asks_tx (by simp)).run_bind fun _ => trivial

end Transactions

/-- Requests after which a job stands as before: no new snapshot and no authorisation. -/
def Later : ServiceOp → Prop
  | .daemon (.beginAction _ _) | .ledger .wallTime => False
  | _ => True

def Quiet : ServiceOp → Prop
  | .ledger (.append _ _) => False
  | op => Later op

theorem Concludes.quiet {op : ServiceOp} (h : Concludes op) : Quiet op := by
  cases op with
  | daemon op => cases op <;> first | exact h | trivial
  | _ => exact h.elim

theorem Quiet.later {op : ServiceOp} (h : Quiet op) : Later op := by
  cases op with
  | ledger op => cases op <;> first | exact h | trivial
  | _ => exact h

theorem Executes.later {snapshot : WatcherState} {action : Action} {op : DaemonOp}
    (h : Executes snapshot action op) : Later (.daemon op) := by
  cases op <;> first | exact h | trivial

section Stages
variable [Chrono] (recipes : WatcherState → Option Action)

def Granted (current : WatcherState) (wall : String) : Prop :=
  ∃ (action : Action) (now : Nat) (context : RecoveryContext) (baseline : LiveEvidence),
    recipes current = some action ∧ RecoveryContext.fromWatcher current now = .ok context ∧
    authorize action (policyContext baseline context wall) = .ok ()

inductive JobStage where
  | called (watcher : WatcherState)
  | proposed (watcher : WatcherState) (action : Action)
  | begun (current : WatcherState)
  | granted (current : WatcherState) (wall : String)
  | gone

inductive JobStage.Step : JobStage → ServiceEvent → JobStage → Prop
  | propose {w : WatcherState} {action : Action} : recipes w = some action →
      JobStage.Step (called w) ⟨.daemon .cancellationRequested,false⟩ (proposed w action)
  | decline {w : WatcherState} {cancelled : Bool} :
      JobStage.Step (called w) ⟨.daemon .cancellationRequested,cancelled⟩ gone
  | begin {w current : WatcherState} {action : Action} :
      JobStage.Step (proposed w action)
        ⟨.daemon (.beginAction w.watcherId (actionFingerprint action)),some current⟩ (begun current)
  | refuse {w : WatcherState} {action : Action} :
      JobStage.Step (proposed w action)
        ⟨.daemon (.beginAction w.watcherId (actionFingerprint action)),none⟩ gone
  | prepare {current : WatcherState} {e : ServiceEvent} : Quiet e.op →
      JobStage.Step (begun current) e (begun current)
  | grant {current : WatcherState} {wall : String} : Granted recipes current wall →
      JobStage.Step (begun current) ⟨.ledger .wallTime,wall⟩ (granted current wall)
  | deny {current : WatcherState} {wall : String} :
      JobStage.Step (begun current) ⟨.ledger .wallTime,wall⟩ gone
  | proceed {current : WatcherState} {wall : String} {e : ServiceEvent} : Later e.op →
      JobStage.Step (granted current wall) e (granted current wall)
  | conclude {e : ServiceEvent} : Quiet e.op → JobStage.Step gone e gone

/-- What becomes of a job is not followed beyond its last request. -/
abbrev jobMachine : Machine serviceSig WatcherState Unit where
  State := JobStage
  start := .called
  Step := JobStage.Step recipes
  result _ := none

def JobStage.Stays (s : JobStage) : Prop := ∀ e, Quiet e.op → JobStage.Step recipes s e s

def JobStage.Returns (s : JobStage) : Resumption ⊕ Unit → Prop
  | .inl (.polling _ _) => ∃ current wall, s = .granted current wall
  | .inl _ => False
  | .inr () => True

end Stages

section Conformance
variable [Chrono] [Render] [Digest] {recipes : WatcherState → Option Action}

def Grant.inJob (current : WatcherState) : Grant → JobStage
  | .pending => .begun current
  | .granted wall => .granted current wall
  | .denied => .gone

omit [Render] in
theorem asks_handleTx_later (snapshot : WatcherState) {op : TxOp} (hop : op ≠ .wallTime) :
    (handleTx snapshot op).Asks (S := serviceSig) Later := by
  cases op with
  | executeReturns action =>
    refine ((asks_executor snapshot action).mono ?_).bind fun result => ?_
    · rintro _ ⟨op,rfl,hexecutes⟩
      exact hexecutes.later
    · exact (asks_ask (.executed action result) trivial).bind fun _ => trivial
  | wallTime => exact (hop rfl).elim
  | _ => exact asks_ask (.ledger _) trivial

omit [Render] in
theorem handleTx_conforms {job : Job} {current : WatcherState} {now : Nat}
    (hrecipe : recipes current = some job.action)
    (hcontext : RecoveryContext.fromWatcher current now = .ok job.recovery) (op : TxOp) (g : Grant)
    (Q : JobStage → op.Answer → Prop)
    (h : ∀ r, ∃ g', Grant.Step job g ⟨op,r⟩ g' ∧ Q (g'.inJob current) r) :
    Conforms (jobMachine recipes) Q (handleTx current op) (g.inJob current) := by
  have hstep : ∀ r g', Grant.Step job g ⟨op,r⟩ g' →
      JobStage.Step recipes (g.inJob current) ⟨.ledger op,r⟩ (g'.inJob current) := by
    intro r g' hg
    cases hg with
    | read => exact .prepare trivial
    | grant hauth => exact .grant ⟨_,_,_,_,hrecipe,hcontext,hauth⟩
    | deny => exact .deny
    | proceed =>
      refine .proceed ?_
      cases op <;> trivial
  cases op with
  | executeReturns =>
    -- only an authorised transaction comes to its executor
    obtain ⟨_,hg,-⟩ := h (.error Executor.targetChanged)
    cases hg with
    | @proceed wall _ hop =>
      refine ((asks_handleTx_later current hop).conforms (M := jobMachine recipes) rfl
        fun e he => JobStage.Step.proceed he).mono ?_
      rintro _ result rfl
      obtain ⟨_,hg,hQ⟩ := h result
      cases hg
      exact hQ
  | _ =>
    refine ⟨rfl,fun r => ?_⟩
    obtain ⟨g',hg,hQ⟩ := h r
    exact ⟨_,hstep r g' hg,hQ⟩

omit [Render] in
omit [Render] [Digest] in
theorem conclude_conforms {s : JobStage} (hs : s.Stays recipes)
    (d : Dispatched) {result : Except TransactionError (Option (Poll ⊕ ActionRecord))}
    (hpoll : ∀ p, result = .ok (some (.inl p)) → ∃ current wall, s = .granted current wall) :
    Conforms (jobMachine recipes) JobStage.Returns (Service.conclude d result) s := by
  have hquiet : ∀ {α : Type} {p : Program serviceSig α}, p.Asks (S := serviceSig) Concludes →
      Conforms (jobMachine recipes) (fun _ _ => True) p s := fun hp =>
    (hp.conforms (M := jobMachine recipes) rfl fun e he => hs e he.quiet).mono
      fun _ _ _ => trivial
  rcases result with error | (_ | (p | record))
  · exact conforms_bind.2 (hquiet (asks_handOff _ _))
  · trivial
  · exact hpoll p rfl
  · change Conforms _ _ (if record.phase = .succeeded then _ else _) _
    split
    · refine ⟨rfl,fun cancelled => ⟨s,hs _ trivial,?_⟩⟩
      change Conforms _ _ (if cancelled = true then _ else _) _
      split
      · exact conforms_bind.2 (hquiet (asks_handOff _ _))
      · exact ⟨rfl,fun now => ⟨s,hs _ trivial,rfl,fun _ => ⟨s,hs _ trivial,trivial⟩⟩⟩
    · trivial

theorem engine_conforms (owner : OwnerIdentity) (current : WatcherState) :
    Conforms (jobMachine recipes) (fun s r => JobStage.Stays recipes s ∧
        ∀ p, r = .ok (some (.inl p)) → ∃ current wall, s = .granted current wall)
      (engineExecute recipes owner current) (JobStage.begun current) := by
  have hbegun : (JobStage.begun current).Stays recipes := fun e he => .prepare he
  unfold engineExecute
  cases hrecipe : recipes current with
  | none => exact ⟨hbegun,fun _ h => by cases h⟩
  | some action =>
    refine ⟨rfl,fun mono => ⟨_,JobStage.Step.prepare trivial,?_⟩⟩
    dsimp only [Program.bind]
    cases hcontext : RecoveryContext.fromWatcher current (mono / 1000) with
    | error => exact ⟨hbegun,fun _ h => by cases h⟩
    | ok context =>
      refine conforms_bind.2 ((Conforms.interpret (N := jobMachine recipes) (Grant.inJob current)
        (fun op g Q _ h => handleTx_conforms hrecipe hcontext op g Q h)
        (run_grants ⟨current.watcherId,owner,action,context⟩)).mono ?_)
      rintro _ r ⟨g,rfl,hreturns⟩
      refine ⟨?_,?_⟩
      · intro e he
        cases g with
        | pending => exact .prepare he
        | granted => exact .proceed he.later
        | denied => exact .conclude he
      · rintro p hp
        cases r with
        | error => cases hp
        | ok =>
          obtain ⟨wall,rfl⟩ := hreturns
          exact ⟨current,wall,rfl⟩

theorem job_conforms (owner : OwnerIdentity) (w : WatcherState) :
    Conforms (jobMachine recipes) JobStage.Returns (executeRecoveryAction recipes owner w)
      (JobStage.called w) := by
  refine ⟨rfl,fun cancelled => ?_⟩
  dsimp only
  cases cancelled with
  | true => exact ⟨.gone,.decline,trivial⟩
  | false =>
    cases hrecipe : recipes w with
    | none => exact ⟨.gone,.decline,trivial⟩
    | some action =>
      by_cases hempty : actionFingerprint action = ""
      · refine ⟨.gone,.decline,?_⟩
        simp only [if_pos hempty]
        trivial
      · refine ⟨_,.propose hrecipe,?_⟩
        simp only [if_neg hempty]
        refine ⟨rfl,fun begun => ?_⟩
        cases begun with
        | none => exact ⟨_,JobStage.Step.refuse,trivial⟩
        | some current =>
          refine ⟨_,JobStage.Step.begin,?_⟩
          change Conforms _ _ (engineExecute recipes owner current >>= _) _
          exact conforms_bind.2 ((engine_conforms owner current).mono
            fun s r h => conclude_conforms h.1 _ h.2)

theorem job_runs {owner : OwnerIdentity} {w : WatcherState} {time : Int} {h : List ServiceEvent}
    {p : (serviceMachine recipes owner).State}
    (hr : (serviceMachine recipes owner).Runs (.recover w time) h p) :
    ∃ s, (jobMachine recipes).Runs w h s := by
  have hmain : Conforms (jobMachine recipes) JobStage.Returns
      (main recipes owner (.recover w time)) ((jobMachine recipes).start w) := job_conforms owner w
  have hbody : ∀ (s : JobStage) (r : Resumption), s.Returns (.inl r) →
      Conforms (jobMachine recipes) JobStage.Returns (body r) s := by
    rintro s (due | ⟨d,p⟩ | _) hresumes
    · exact hresumes.elim
    · obtain ⟨current,wall,rfl⟩ := hresumes
      have hround : ((poll p).run.interpret (handleTx d.current)).Asks (S := serviceSig) Later :=
        (asks_poll p).interpret fun op hop => asks_handleTx_later d.current hop
      refine conforms_bind.2 ((hround.conforms (M := jobMachine recipes) rfl
        fun e he => JobStage.Step.proceed he).mono ?_)
      rintro _ r rfl
      exact conclude_conforms (fun e he => .proceed he.later) d fun _ _ => ⟨current,wall,rfl⟩
    · exact hresumes.elim
  obtain ⟨s,hs,-⟩ := Conforms.runs hbody hmain hr
  exact ⟨s,hs⟩

end Conformance

def snapshotOf : ServiceEvent → Option WatcherState
  | ⟨.daemon (.beginAction _ _),answer⟩ => answer
  | _ => none

def wallOf : ServiceEvent → Option String
  | ⟨.ledger .wallTime,wall⟩ => some wall
  | _ => none

def isSuccess : ServiceEvent → Bool
  | ⟨.ledger (.append _ record),.ok ()⟩ => record.phase == .succeeded
  | _ => false

def begunSnapshot (h : List ServiceEvent) : Option WatcherState := h.findSome? snapshotOf

def authorizedAt (h : List ServiceEvent) : Option String := h.findSome? wallOf

def hasSucceeded (h : List ServiceEvent) : Bool := h.any isSuccess

section Events
variable {e : ServiceEvent}

theorem Later.forgets (he : Later e.op) : snapshotOf e = none ∧ wallOf e = none := by
  obtain ⟨op,answer⟩ := e
  cases op with
  | daemon op => cases op <;> first | exact ⟨rfl,rfl⟩ | exact he.elim
  | ledger op => cases op <;> first | exact ⟨rfl,rfl⟩ | exact he.elim
  | _ => exact ⟨rfl,rfl⟩

theorem Quiet.unsuccessful (he : Quiet e.op) : isSuccess e = false := by
  obtain ⟨op,answer⟩ := e
  cases op with
  | ledger op => cases op <;> first | rfl | exact he.elim
  | _ => rfl

theorem snapshotOf_eq_some {current : WatcherState} (h : snapshotOf e = some current) :
    ∃ id fingerprint, e = ⟨.daemon (.beginAction id fingerprint),some current⟩ := by
  unfold snapshotOf at h
  split at h
  · exact ⟨_,_,by rw [h]⟩
  · cases h

theorem isSuccess_snapshot (h : isSuccess e = true) : snapshotOf e = none := by
  unfold isSuccess at h
  split at h
  · rfl
  · cases h

end Events

theorem hasSucceeded_snoc (h : List ServiceEvent) (e : ServiceEvent) :
    hasSucceeded (h ++ [e]) = (hasSucceeded h || isSuccess e) := by
  simp [hasSucceeded]

theorem begunSnapshot_snoc (h : List ServiceEvent) (e : ServiceEvent) :
    begunSnapshot (h ++ [e]) = (begunSnapshot h).or (snapshotOf e) := by
  simp [begunSnapshot,List.findSome?_append]

theorem authorizedAt_snoc (h : List ServiceEvent) (e : ServiceEvent) :
    authorizedAt (h ++ [e]) = (authorizedAt h).or (wallOf e) := by
  simp [authorizedAt,List.findSome?_append]

section Knows
variable [Chrono] {recipes : WatcherState → Option Action}

def JobStage.Knows (recipes : WatcherState → Option Action) (w : WatcherState)
    (h : List ServiceEvent) : JobStage → Prop
  | .called watcher => watcher = w ∧ h = []
  | .proposed watcher action => watcher = w ∧ recipes w = some action ∧
    h = [⟨.daemon .cancellationRequested,false⟩]
  | .begun current => begunSnapshot h = some current ∧ authorizedAt h = none ∧
    hasSucceeded h = false
  | .granted current wall => begunSnapshot h = some current ∧ authorizedAt h = some wall ∧
    Granted recipes current wall
  | .gone => hasSucceeded h = false

theorem job_knows {w : WatcherState} {h : List ServiceEvent} {s : JobStage}
    (hr : (jobMachine recipes).Runs w h s) : s.Knows recipes w h := by
  refine hr.invariant ⟨rfl,rfl⟩ ?_
  intro h s e s' hknows hs
  cases hs with
  | propose hrecipe =>
    obtain ⟨rfl,rfl⟩ := hknows
    exact ⟨rfl,hrecipe,rfl⟩
  | decline =>
    obtain ⟨rfl,rfl⟩ := hknows
    rfl
  | begin =>
    obtain ⟨rfl,-,rfl⟩ := hknows
    exact ⟨rfl,rfl,rfl⟩
  | refuse =>
    obtain ⟨rfl,-,rfl⟩ := hknows
    rfl
  | prepare he =>
    obtain ⟨hbegun,hwall,hsucceeded⟩ := hknows
    obtain ⟨hsnapshot,hwall'⟩ := he.later.forgets
    refine ⟨?_,?_,?_⟩
    · rw [begunSnapshot_snoc,hbegun,hsnapshot]
      rfl
    · rw [authorizedAt_snoc,hwall,hwall']
      rfl
    · rw [hasSucceeded_snoc,hsucceeded,he.unsuccessful]
      rfl
  | grant hgranted =>
    obtain ⟨hbegun,hwall,-⟩ := hknows
    refine ⟨?_,?_,hgranted⟩
    · rw [begunSnapshot_snoc,hbegun]
      rfl
    · rw [authorizedAt_snoc,hwall]
      rfl
  | deny =>
    rw [JobStage.Knows,hasSucceeded_snoc,hknows.2.2]
    rfl
  | proceed =>
    obtain ⟨hbegun,hwall,hgranted⟩ := hknows
    refine ⟨?_,?_,hgranted⟩
    · rw [begunSnapshot_snoc,hbegun]
      rfl
    · rw [authorizedAt_snoc,hwall]
      rfl
  | conclude he =>
    rw [JobStage.Knows,hasSucceeded_snoc,show hasSucceeded h = false from hknows,he.unsuccessful]
    rfl

end Knows

section Runs
variable [Chrono] [Render] [Digest] {recipes : WatcherState → Option Action}
  {owner : OwnerIdentity} {w : WatcherState} {time : Int} {h : List ServiceEvent}
  {p q : (serviceMachine recipes owner).State}

theorem job_succeeded (hr : (serviceMachine recipes owner).Runs (.recover w time) h p)
    (hsucceeded : hasSucceeded h = true) : ∃ current wall, begunSnapshot h = some current ∧
      authorizedAt h = some wall ∧ Granted recipes current wall := by
  obtain ⟨s,hs⟩ := job_runs hr
  have hknows := job_knows hs
  cases s with
  | called =>
    obtain ⟨-,rfl⟩ := hknows
    cases hsucceeded
  | proposed =>
    obtain ⟨-,-,rfl⟩ := hknows
    cases hsucceeded
  | begun => cases hsucceeded.symm.trans hknows.2.2
  | granted current wall => exact ⟨current,wall,hknows⟩
  | gone => cases hsucceeded.symm.trans hknows

theorem job_begins {id fingerprint : String} {answer : Option WatcherState}
    (hr : (serviceMachine recipes owner).Runs (.recover w time) h p)
    (hs : (serviceMachine recipes owner).Step p ⟨.daemon (.beginAction id fingerprint),answer⟩ q) :
    ∃ action, recipes w = some action ∧ id = w.watcherId ∧
      fingerprint = actionFingerprint action ∧
      h = [⟨.daemon .cancellationRequested,false⟩] := by
  obtain ⟨s',hrun⟩ := job_runs (hr.snoc hs)
  obtain ⟨s,hrun,hstep⟩ := hrun.snoc_inv
  have hknows := job_knows hrun
  cases hstep with
  | begin | refuse =>
    obtain ⟨rfl,hrecipe,rfl⟩ := hknows
    exact ⟨_,hrecipe,rfl,rfl,rfl⟩
  | prepare he | proceed he | conclude he => exact he.elim

end Runs

end WatchMe
