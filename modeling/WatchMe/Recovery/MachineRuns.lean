import Mathlib.Data.List.Chain
import WatchMe.Effects.Outcome
import WatchMe.Recovery.StateMachine

/-! # Runs of the recovery machine

`Effect` says once what a command can do: it is refused and changes nothing, or it makes
its transitions, except that a failed action charges its wait before the transition is
tried. The budgets, the audit trail and the cooldown are then invariants of every
sequence of commands and restarts.
-/
namespace WatchMe
namespace RecoveryMachine
open Effects
variable {m m' : RecoveryMachine} {reason : String} {budget : Budget}
variable {next : RecoveryState} {fingerprint : String}

section Commands
variable {command : RecoveryCommand}

/-- The machine after a transition that `validTransition` allows. -/
def advanced (m : RecoveryMachine) (next : RecoveryState) : RecoveryMachine :=
  m.moved next "validated transition"

theorem yields_transition {Q : Except String Unit → RecoveryMachine → Prop}
    (hvalid : validTransition m.state next = true → Q (.ok ()) (m.advanced next))
    (hinvalid : validTransition m.state next = false → Q (.error "invalid recovery transition") m) :
    Yields (transition next) m Q := by
  refine Yields.get_bind ?_
  cases hv : validTransition m.state next with
  | true => exact hvalid hv
  | false => exact hinvalid hv

def CooledDown (m : RecoveryMachine) (now : Nat) : Prop :=
  ∀ last, m.lastAttemptMono = some last → m.budget.cooldown / nanosPerSecond ≤ now - last

theorem cooledDown_iff {now : Nat} :
    m.CooledDown now ↔ ¬ m.lastAttemptMono.any (fun last =>
      now - last < m.budget.cooldown / nanosPerSecond) = true := by
  unfold CooledDown
  cases m.lastAttemptMono with
  | none => simp
  | some => simp

/-- What a command can answer and leave behind. -/
inductive Effect (m : RecoveryMachine) :
    RecoveryCommand → Except String Unit → RecoveryMachine → Prop
  | refused (command : RecoveryCommand) (reason : String) : Effect m command (.error reason) m
  | revalidated : validTransition m.state .observing = true →
      Effect m .revalidated (.ok ()) (m.advanced .observing)
  | confirmed (fingerprint : String) : validTransition m.state .confirmed = true →
      Effect m (.confirm fingerprint) (.ok ())
        { m.advanced .confirmed with current := some fingerprint }
  | begun (fingerprint : String) (clock : ClockSnapshot) : m.state = .confirmed →
      fingerprint ∉ m.completed → m.current = some fingerprint →
      m.attempts < m.budget.maxAttempts → m.CooledDown clock.monotonicSeconds →
      Effect m (.beginAction fingerprint clock) (.ok ())
        { m.advanced .acting with
          attempts := m.attempts + 1, lastAttemptMono := some clock.monotonicSeconds }
  | charged (fingerprint : String) (wait : Nat) (clock : ClockSnapshot) :
      m.cumulativeWait + wait ≤ m.budget.maxCumulativeWait →
      Effect m (.actionFailed fingerprint wait clock) (.error "invalid recovery transition")
        { m with cumulativeWait := m.cumulativeWait + wait }
  | failed (fingerprint : String) (wait : Nat) (clock : ClockSnapshot) : m.state = .acting →
      m.current = some fingerprint → m.cumulativeWait + wait ≤ m.budget.maxCumulativeWait →
      Effect m (.actionFailed fingerprint wait clock) (.ok ())
        (({ m with cumulativeWait := m.cumulativeWait + wait }.advanced .waiting).advanced
          .confirmed)
  | succeeded (fingerprint : String) : m.state = .acting → m.current = some fingerprint →
      Effect m (.actionSucceeded fingerprint) (.ok ())
        { (m.advanced .verifying).advanced .recovered with
          completed := m.completed.insert fingerprint }
  | rearmed : m.state = .recovered →
      Effect m .rearmAfterWait (.ok ()) ({ m with current := none }.advanced .observing)
  | reserved : m.plannerCalls < m.budget.plannerCalls →
      Effect m .reservePlanner (.ok ()) { m with plannerCalls := m.plannerCalls + 1 }

theorem eq_of_validTransition {s : RecoveryState} :
    (validTransition s .acting = true → s = .confirmed) ∧
      (validTransition s .waiting = true → s = .acting) ∧
      (validTransition s .verifying = true → s = .acting) := by
  cases s <;> decide

theorem yields_beginAction (m : RecoveryMachine) (fingerprint : String)
    (clock : ClockSnapshot) : Yields (beginAction fingerprint clock) m
      (Effect m (.beginAction fingerprint clock)) := by
  refine Yields.get_bind ?_
  refine .guard (fun _ => .refused _ _) fun _ => ?_
  refine .guard (fun _ => .refused _ _) fun hcompleted => ?_
  refine .guard (fun _ => .refused _ _) fun hcurrent => ?_
  refine .guard (fun _ => .refused _ _) fun hattempts => ?_
  refine .guard (fun _ => .refused _ _) fun hcooldown => ?_
  refine .bind (yields_transition (fun hvalid => ?_) fun _ => .refused _ _)
  have hfresh : fingerprint ∉ m.completed := by
    simpa [Std.ExtTreeSet.contains_iff_mem] using hcompleted
  exact .begun _ _ (eq_of_validTransition.1 hvalid) hfresh (not_not.1 hcurrent)
    (Nat.lt_of_not_le hattempts) (cooledDown_iff.2 hcooldown)

theorem yields_actionFailed (m : RecoveryMachine) (fingerprint : String) (wait : Nat)
    (clock : ClockSnapshot) : Yields (actionFailed fingerprint wait) m
      (Effect m (.actionFailed fingerprint wait clock)) := by
  refine Yields.get_bind ?_
  refine .guard (fun _ => .refused _ _) fun hbudget => ?_
  refine .guard (fun _ => .refused _ _) fun hoverflow => ?_
  simp only [not_or,not_not,Nat.not_lt] at hbudget hoverflow
  have hwait : m.cumulativeWait + wait ≤ m.budget.maxCumulativeWait := by
    have hle := hbudget.2
    omega
  refine .modify_bind (.bind (yields_transition (fun hvalid => ?_) fun _ => ?_))
  · have hacting := eq_of_validTransition.2.1 hvalid
    -- the second transition starts in `waiting`, so it cannot fail
    refine yields_transition (fun _ => .failed _ _ _ hacting hbudget.1 hwait) fun hnot => ?_
    cases hnot
  · exact .charged _ _ _ hwait

theorem yields_actionSucceeded (m : RecoveryMachine) (fingerprint : String) :
    Yields (actionSucceeded fingerprint) m (Effect m (.actionSucceeded fingerprint)) := by
  refine Yields.get_bind ?_
  refine .guard (fun _ => .refused _ _) fun hcurrent => ?_
  refine .bind (yields_transition (fun hvalid => ?_) fun _ => .refused _ _)
  refine .bind (yields_transition (fun _ => ?_) fun hnot => by cases hnot)
  exact .succeeded _ (eq_of_validTransition.2.2 hvalid) (not_not.1 hcurrent)

theorem apply_effect (m : RecoveryMachine) (command : RecoveryCommand) :
    Effect m command ((apply command).run m).1 ((apply command).run m).2 := by
  change Yields (apply command) m (Effect m command)
  cases command with
  | revalidated => exact yields_transition .revalidated fun _ => .refused _ _
  | confirm fingerprint =>
    exact .bind (yields_transition (.confirmed fingerprint) fun _ => .refused _ _)
  | beginAction fingerprint clock => exact yields_beginAction m fingerprint clock
  | actionFailed fingerprint wait clock => exact yields_actionFailed m fingerprint wait clock
  | actionSucceeded fingerprint => exact yields_actionSucceeded m fingerprint
  | rearmAfterWait =>
    refine Yields.get_bind ?_
    refine .guard (fun _ => .refused _ _) fun hstate => ?_
    have hrecovered := not_not.1 hstate
    refine .modify_bind (yields_transition (fun _ => .rearmed hrecovered) fun hnot => ?_)
    simp [hrecovered,validTransition] at hnot
  | reservePlanner =>
    refine Yields.get_bind ?_
    refine .guard (fun _ => .refused _ _) fun hcalls => ?_
    exact .reserved (Nat.lt_of_not_le hcalls)

theorem applied_effect (h : m.applied command = .ok m') :
    Effect m command (.ok ()) m' := by
  have heffect := apply_effect m command
  unfold applied at h
  split at h
  · next heq =>
    rw [heq] at heffect
    cases h
    exact heffect
  · cases h

theorem applied_of_yields (h : Yields (apply command) m fun result s => result = .ok () ∧ s = m') :
    m.applied command = .ok m' := by
  obtain ⟨hresult,hstate⟩ := h
  unfold applied
  generalize (apply command).run m = answer at hresult hstate
  obtain ⟨result,s⟩ := answer
  cases hresult
  cases hstate
  rfl

theorem yields_advanced {Q : Except String Unit → RecoveryMachine → Prop}
    (hvalid : validTransition m.state next = true) (h : Q (.ok ()) (m.advanced next)) :
    Yields (transition next) m Q :=
  yields_transition (fun _ => h) fun hnot => by rw [hvalid] at hnot; cases hnot

theorem applied_ok_iff (hwait : ∀ f wait clock, command = .actionFailed
      f wait clock → m.budget.maxCumulativeWait ≤ durationMax) :
    m.applied command = .ok m' ↔ Effect m command (.ok ()) m' := by
  refine ⟨applied_effect,fun h => applied_of_yields ?_⟩
  cases h with
  | revalidated hvalid => exact yields_advanced hvalid ⟨rfl,rfl⟩
  | confirmed fingerprint hvalid => exact .bind (yields_advanced hvalid ⟨rfl,rfl⟩)
  | begun fingerprint clock hstate hfresh hcurrent hattempts hcooled =>
    refine Yields.get_bind ?_
    refine .guard (fun h => by rw [hstate] at h; cases h) fun _ => ?_
    refine .guard (fun h => absurd (Std.ExtTreeSet.contains_iff_mem.1 h) hfresh) fun _ => ?_
    refine .guard (fun h => absurd hcurrent h) fun _ => ?_
    refine .guard (fun h => absurd hattempts (Nat.not_lt.2 h)) fun _ => ?_
    refine .guard (fun h => absurd h (cooledDown_iff.1 hcooled)) fun _ => ?_
    exact .bind (yields_advanced (by rw [hstate]; rfl) ⟨rfl,rfl⟩)
  | failed fingerprint wait clock hstate hcurrent =>
    refine Yields.get_bind ?_
    refine .guard (fun h => ?_) fun _ => ?_
    · rcases h with h | h
      · exact absurd hcurrent h
      · omega
    refine .guard (fun h => ?_) fun _ => ?_
    · have hmax := hwait fingerprint wait clock rfl
      omega
    refine .modify_bind (.bind (yields_advanced (by rw [hstate]; rfl) ?_))
    exact yields_advanced rfl ⟨rfl,rfl⟩
  | succeeded fingerprint hstate hcurrent =>
    refine Yields.get_bind ?_
    refine .guard (fun h => absurd hcurrent h) fun _ => ?_
    refine .bind (yields_advanced (by rw [hstate]; rfl) ?_)
    exact .bind (yields_advanced rfl ⟨rfl,rfl⟩)
  | rearmed hstate =>
    refine Yields.get_bind ?_
    refine .guard (fun h => absurd hstate h) fun _ => ?_
    exact .modify_bind (yields_advanced (by rw [hstate]; rfl) ⟨rfl,rfl⟩)
  | reserved hcalls =>
    refine Yields.get_bind ?_
    exact .guard (fun h => absurd hcalls (Nat.not_lt.2 h)) fun _ => ⟨rfl,rfl⟩

theorem applied_error_iff :
    m.applied command = .error reason ↔ ((apply command).run m).1 = .error reason := by
  unfold applied
  rcases (apply command).run m with ⟨error | _,_⟩ <;> simp

def refusals : List String :=
  ["invalid recovery transition","revalidation required","duplicate action","stale evidence",
    "attempt budget exhausted","cooldown active","wait budget exhausted",
    "overflow when adding durations","wait rearm requires a completed action",
    "planner budget exhausted"]

theorem applied_refusal (h : m.applied command = .error reason) :
    reason ∈ refusals := by
  have htransition : ∀ (m : RecoveryMachine) (next : RecoveryState) (Q : Except String Unit →
      RecoveryMachine → Prop), (∀ m', Q (.ok ()) m') → Q (.error "invalid recovery transition") m →
      Yields (transition next) m Q := fun m next Q hok herror =>
    yields_transition (fun _ => hok _) fun _ => herror
  have hyields : Yields (apply command) m fun result _ => ∀ reason,
      result = .error reason → reason ∈ refusals := by
    have hlisted : ∀ text ∈ refusals, ∀ reason,
        (.error text : Except String Unit) = .error reason → reason ∈ refusals := by
      rintro text ht _ ⟨⟩
      exact ht
    cases command with
    | revalidated => exact htransition _ _ _ (fun _ _ h => by cases h) (hlisted _ (by decide))
    | confirm =>
      exact .bind (htransition _ _ _ (fun _ _ h => by cases h) (hlisted _ (by decide)))
    | beginAction =>
      refine Yields.get_bind ?_
      iterate 5 refine .guard (fun _ => hlisted _ (by decide)) fun _ => ?_
      exact .bind (htransition _ _ _ (fun _ _ h => by cases h) (hlisted _ (by decide)))
    | actionFailed =>
      refine Yields.get_bind ?_
      iterate 2 refine .guard (fun _ => hlisted _ (by decide)) fun _ => ?_
      refine .modify_bind (.bind (htransition _ _ _ (fun _ => ?_) (hlisted _ (by decide))))
      exact htransition _ _ _ (fun _ _ h => by cases h) (hlisted _ (by decide))
    | actionSucceeded =>
      refine Yields.get_bind ?_
      refine .guard (fun _ => hlisted _ (by decide)) fun _ => ?_
      refine .bind (htransition _ _ _ (fun _ => ?_) (hlisted _ (by decide)))
      exact .bind (htransition _ _ _ (fun _ _ h => by cases h) (hlisted _ (by decide)))
    | rearmAfterWait =>
      refine Yields.get_bind ?_
      refine .guard (fun _ => hlisted _ (by decide)) fun _ => ?_
      exact .modify_bind (htransition _ _ _ (fun _ _ h => by cases h) (hlisted _ (by decide)))
    | reservePlanner =>
      refine Yields.get_bind ?_
      exact .guard (fun _ => hlisted _ (by decide)) fun _ _ h => by cases h
  exact hyields reason (applied_error_iff.1 h)

theorem begin_refusal {clock : ClockSnapshot} (hstate : m.state = .confirmed)
    (hcurrent : m.current = some fingerprint) (hfresh : fingerprint ∉ m.completed)
    (h : m.applied (.beginAction fingerprint clock) = .error reason) :
    reason = "attempt budget exhausted" ∨ reason = "cooldown active" := by
  have hyields : Yields (beginAction fingerprint clock) m fun result _ => ∀ reason,
      result = .error reason → reason = "attempt budget exhausted" ∨ reason = "cooldown active" := by
    refine Yields.get_bind ?_
    refine .guard (fun h => by rw [hstate] at h; cases h) fun _ => ?_
    refine .guard (fun h => absurd (Std.ExtTreeSet.contains_iff_mem.1 h) hfresh) fun _ => ?_
    refine .guard (fun h => absurd hcurrent h) fun _ => ?_
    refine .guard (fun _ reason h => .inl (Except.error.inj h).symm) fun _ => ?_
    refine .guard (fun _ reason h => .inr (Except.error.inj h).symm) fun _ => ?_
    exact .bind (yields_advanced (by rw [hstate]; rfl) fun _ h => by cases h)
  exact hyields reason (applied_error_iff.1 h)

theorem begin_stale (clock : ClockSnapshot)
    (hstate : m.state ≠ .needsRevalidation) (hfresh : fingerprint ∉ m.completed)
    (hcurrent : m.current ≠ some fingerprint) :
    m.applied (.beginAction fingerprint clock) = .error "stale evidence" := by
  have hyields : Yields (beginAction fingerprint clock) m fun result _ =>
      result = .error "stale evidence" := by
    refine Yields.get_bind ?_
    refine .guard (fun h => absurd h hstate) fun _ => ?_
    refine .guard (fun h => absurd (Std.ExtTreeSet.contains_iff_mem.1 h) hfresh) fun _ => ?_
    exact .guard (fun _ => rfl) fun h => absurd hcurrent h
  exact applied_error_iff.2 hyields

theorem begin_duplicate_iff {clock : ClockSnapshot} :
    m.applied (.beginAction fingerprint clock) = .error "duplicate action" ↔
      m.state ≠ .needsRevalidation ∧ fingerprint ∈ m.completed := by
  have hyields : Yields (beginAction fingerprint clock) m fun result _ =>
      result = .error "duplicate action" ↔
        m.state ≠ .needsRevalidation ∧ fingerprint ∈ m.completed := by
    refine Yields.get_bind ?_
    refine .guard (fun h => ?_) fun hstate => ?_
    · simp [h]
    refine .guard (fun h => ?_) fun hfresh => ?_
    · simp [hstate,Std.ExtTreeSet.contains_iff_mem.1 h]
    have hnone : ¬ (m.state ≠ .needsRevalidation ∧ fingerprint ∈ m.completed) := fun h =>
      hfresh (Std.ExtTreeSet.contains_iff_mem.2 h.2)
    -- none of the later refusals has this text
    iterate 3 refine .guard (fun _ => by simp [hnone]) fun _ => ?_
    refine .bind (yields_transition (fun _ => ?_) fun _ => by simp [hnone])
    exact ⟨fun h => (by cases h),fun h => (hnone h).elim⟩
  rw [applied_error_iff]
  exact hyields

/-- A transition of the table, or a restart. -/
def AuditEdge (t : AuditTransition) : Prop :=
  (validTransition t.fromState t.toState = true ∧ t.reason = "validated transition") ∨
    (t.toState = .needsRevalidation ∧ t.reason = "restart requires live revalidation")

/-- Each transition starts where the one before it ended. -/
def AuditPath (start : RecoveryState) : List AuditTransition → RecoveryState → Prop
  | [], state => start = state
  | t :: rest, state => t.fromState = start ∧ AuditEdge t ∧ AuditPath t.toState rest state

theorem AuditPath.snoc {start state : RecoveryState} {audit : List AuditTransition}
    {t : AuditTransition} (h : AuditPath start audit state) (hfrom : t.fromState = state)
    (hedge : AuditEdge t) : AuditPath start (audit ++ [t]) t.toState := by
  induction audit generalizing start with
  | nil => exact ⟨hfrom.trans h.symm,hedge,rfl⟩
  | cons u rest ih => exact ⟨h.1,h.2.1,ih h.2.2⟩

def attemptsIn (audit : List AuditTransition) : Nat := audit.countP (·.toState == .acting)

/-- What every machine has kept that started as `new budget`. -/
structure Sound (budget : Budget) (m : RecoveryMachine) : Prop where
  budget_eq : m.budget = budget
  schema : m.schemaVersion = 1
  attempts : m.attempts ≤ budget.maxAttempts
  plannerCalls : m.plannerCalls ≤ budget.plannerCalls
  cumulativeWait : m.cumulativeWait ≤ budget.maxCumulativeWait
  audited : m.attempts = attemptsIn m.audit
  path : AuditPath .needsRevalidation m.audit m.state

theorem Sound.new (budget : Budget) : Sound budget (.new budget) :=
  ⟨rfl,rfl,Nat.zero_le _,Nat.zero_le _,Nat.zero_le _,rfl,rfl⟩

theorem Sound.moved (h : Sound budget m) (hnext : next ≠ .acting)
    (hedge : AuditEdge ⟨m.state,next,reason⟩) : Sound budget (m.moved next reason) where
  budget_eq := h.budget_eq
  schema := h.schema
  attempts := h.attempts
  plannerCalls := h.plannerCalls
  cumulativeWait := h.cumulativeWait
  audited := by
    rw [RecoveryMachine.moved]
    simpa [attemptsIn,hnext] using h.audited
  path := h.path.snoc rfl hedge

theorem Sound.advanced (h : Sound budget m) (hnext : next ≠ .acting)
    (hvalid : validTransition m.state next = true) : Sound budget (m.advanced next) :=
  h.moved hnext (.inl ⟨hvalid,rfl⟩)

theorem Sound.effect {result : Except String Unit} (h : Sound budget m)
    (he : Effect m command result m') : Sound budget m' := by
  cases he with
  | refused => exact h
  | revalidated hvalid => exact h.advanced nofun hvalid
  | confirmed fingerprint hvalid =>
    have hconfirmed : Sound budget (m.advanced .confirmed) := h.advanced nofun hvalid
    exact { hconfirmed with }
  | begun fingerprint clock hstate _ _ hattempts =>
    have hedge : AuditEdge ⟨m.state,.acting,"validated transition"⟩ :=
      .inl ⟨by rw [hstate]; rfl,rfl⟩
    refine ⟨h.budget_eq,h.schema,?_,h.plannerCalls,h.cumulativeWait,?_,h.path.snoc rfl hedge⟩
    · exact h.budget_eq ▸ hattempts
    · simpa [RecoveryMachine.advanced,RecoveryMachine.moved,attemptsIn] using h.audited
  | charged fingerprint wait clock hwait =>
    exact { h with cumulativeWait := h.budget_eq ▸ hwait }
  | failed fingerprint wait clock hstate _ hwait =>
    have hcharged : Sound budget { m with cumulativeWait := m.cumulativeWait + wait } :=
      { h with cumulativeWait := h.budget_eq ▸ hwait }
    have hwaiting : Sound budget
        ({ m with cumulativeWait := m.cumulativeWait + wait }.advanced .waiting) :=
      hcharged.advanced nofun (by rw [hstate]; rfl)
    exact hwaiting.advanced nofun rfl
  | succeeded fingerprint hstate =>
    have hverifying : Sound budget (m.advanced .verifying) :=
      h.advanced nofun (by rw [hstate]; rfl)
    have hrecovered : Sound budget ((m.advanced .verifying).advanced .recovered) :=
      hverifying.advanced nofun rfl
    exact { hrecovered with }
  | rearmed hstate =>
    have hcleared : Sound budget { m with current := none } := { h with }
    exact hcleared.advanced nofun (by rw [hstate]; rfl)
  | reserved hcalls => exact { h with plannerCalls := h.budget_eq ▸ hcalls }

end Commands

inductive Call where
  | command (command : RecoveryCommand)
  | restart

variable {call : Call}

/-- A call and the machine after it. A restart that is refused leaves the machine. -/
def Call.perform (m : RecoveryMachine) : Call → Except String Unit × RecoveryMachine
  | command c => (apply c).run m
  | restart =>
    match m.restoreForRestart with
    | .ok m' => (.ok (),m')
    | .error reason => (.error reason,m)

def after (m : RecoveryMachine) (calls : List Call) : RecoveryMachine :=
  calls.foldl (fun m call => (call.perform m).2) m

/-- The fingerprint and the time of a `begin_action` that succeeds. -/
def begun (m : RecoveryMachine) (call : Call) : Option (String × Nat) :=
  match call, (call.perform m).1 with
  | .command (.beginAction fingerprint clock), .ok () => some (fingerprint,clock.monotonicSeconds)
  | _, _ => none

def begins (m : RecoveryMachine) : List Call → List (String × Nat)
  | [] => []
  | call :: rest => (m.begun call).toList ++ begins (call.perform m).2 rest

theorem restart_perform (m : RecoveryMachine) : (Call.restart.perform m).2 = m ∨
    (Call.restart.perform m).2 = m.moved .needsRevalidation "restart requires live revalidation" := by
  by_cases h : m.schemaVersion = 1
  · exact .inr (by simp [Call.perform,restoreForRestart,h])
  · exact .inl (by simp [Call.perform,restoreForRestart,h])

theorem after_append (m : RecoveryMachine) (calls rest : List Call) :
    m.after (calls ++ rest) = (m.after calls).after rest :=
  List.foldl_append

theorem begins_append (m : RecoveryMachine) (calls rest : List Call) :
    m.begins (calls ++ rest) = m.begins calls ++ (m.after calls).begins rest := by
  induction calls generalizing m with
  | nil => rfl
  | cons call calls ih =>
    rw [List.cons_append,begins,begins,ih,List.append_assoc]
    rfl

theorem begun_effect {time : Nat} (h : m.begun call = some (fingerprint,time)) :
    fingerprint ∉ m.completed ∧ m.CooledDown time ∧
      (call.perform m).2.lastAttemptMono = some time := by
  cases call with
  | restart => cases h
  | command c =>
    have heffect := apply_effect m c
    unfold begun at h
    simp only [Call.perform] at h ⊢
    generalize (apply c).run m = result at h heffect
    obtain ⟨r,m'⟩ := result
    cases heffect with
    | begun _ _ _ hfresh _ _ hcooled =>
      cases h
      exact ⟨hfresh,hcooled,rfl⟩
    | refused => cases c <;> cases h
    | revalidated | confirmed | charged | failed | succeeded | rearmed | reserved => cases h

theorem lastAttemptMono_perform (h : m.begun call = none) :
    (call.perform m).2.lastAttemptMono = m.lastAttemptMono := by
  cases call with
  | restart =>
    rcases restart_perform m with heq | heq
    · rw [heq]
    · rw [heq]
      rfl
  | command c =>
    have heffect := apply_effect m c
    unfold begun at h
    simp only [Call.perform] at h ⊢
    generalize (apply c).run m = result at h heffect
    obtain ⟨r,m'⟩ := result
    cases heffect with
    | begun => cases h
    | refused | revalidated | confirmed | charged | failed | succeeded | rearmed | reserved => rfl

theorem completed_perform (m : RecoveryMachine) (call : Call) :
    ∀ f ∈ m.completed, f ∈ (call.perform m).2.completed := by
  intro f hf
  cases call with
  | restart => rcases restart_perform m with heq | heq <;> (rw [heq]; exact hf)
  | command c =>
    have heffect := apply_effect m c
    simp only [Call.perform]
    generalize ((apply c).run m).1 = r at heffect
    generalize ((apply c).run m).2 = m' at heffect ⊢
    cases heffect with
    | succeeded => exact Std.ExtTreeSet.mem_insert.2 (.inr hf)
    | begun | refused | revalidated | confirmed | charged | failed | rearmed | reserved => exact hf

theorem Sound.perform (h : Sound budget m) (call : Call) : Sound budget (call.perform m).2 := by
  cases call with
  | command c => exact h.effect (apply_effect m c)
  | restart =>
    rcases restart_perform m with heq | heq <;> rw [heq]
    · exact h
    · exact h.moved nofun (.inr ⟨rfl,rfl⟩)

theorem sound_after (budget : Budget) (calls : List Call) :
    Sound budget ((new budget).after calls) := by
  induction calls using List.reverseRecOn with
  | nil => exact .new budget
  | append_singleton calls call ih =>
    rw [after_append]
    exact ih.perform call

theorem completed_after (m : RecoveryMachine) (calls : List Call) :
    ∀ f ∈ m.completed, f ∈ (m.after calls).completed := by
  induction calls generalizing m with
  | nil => exact fun _ hf => hf
  | cons call calls ih => exact fun f hf => ih _ f (completed_perform m call f hf)

theorem completed_not_begun (m : RecoveryMachine) (calls : List Call) :
    ∀ f ∈ m.completed, f ∉ (m.begins calls).map (·.1) := by
  induction calls generalizing m with
  | nil => exact fun _ _ => List.not_mem_nil
  | cons call calls ih =>
    intro f hf hmem
    rw [begins,List.map_append,List.mem_append] at hmem
    rcases hmem with hmem | hmem
    · obtain ⟨⟨f',time⟩,hbegun,rfl⟩ := List.mem_map.1 hmem
      exact (begun_effect (Option.mem_toList.1 hbegun)).1 hf
    · exact ih _ f (completed_perform m call f hf) hmem

theorem begins_cooled (budget : Budget) (calls : List Call) :
    ((new budget).after calls).lastAttemptMono = ((new budget).begins calls).getLast?.map (·.2) ∧
      ((new budget).begins calls).IsChain
        fun a b => budget.cooldown / nanosPerSecond ≤ b.2 - a.2 := by
  induction calls using List.reverseRecOn with
  | nil => exact ⟨rfl,.nil⟩
  | append_singleton calls call ih =>
    obtain ⟨hlast,hchain⟩ := ih
    have hbudget := (sound_after budget calls).budget_eq
    rw [after_append,begins_append]
    generalize (new budget).after calls = m at hlast hbudget ⊢
    change (call.perform m).2.lastAttemptMono = _ ∧ _
    have hbegins : m.begins [call] = (m.begun call).toList := List.append_nil _
    rw [hbegins]
    cases hbegun : m.begun call with
    | none =>
      rw [lastAttemptMono_perform hbegun]
      simpa using ⟨hlast,hchain⟩
    | some entry =>
      obtain ⟨fingerprint,time⟩ := entry
      obtain ⟨-,hcooled,hmono⟩ := begun_effect hbegun
      refine ⟨by simpa using hmono,?_⟩
      rw [Option.toList_some,List.isChain_append]
      refine ⟨hchain,.singleton _,fun a ha b hb => ?_⟩
      cases Option.mem_some.1 hb
      rw [← hbudget]
      exact hcooled a.2 (hlast.trans (by rw [Option.mem_def.1 ha]; rfl))

/-- Over every sequence of commands and restarts, whatever they answer: the budgets hold,
the audit trail is a path that records every attempt, what is completed stays so and is
not begun again, and successive attempts are a cooldown apart. -/
theorem machine_run_invariants (budget : Budget) (calls : List Call) :
    let m := (new budget).after calls
    (m.attempts ≤ budget.maxAttempts ∧ m.plannerCalls ≤ budget.plannerCalls ∧
      m.cumulativeWait ≤ budget.maxCumulativeWait) ∧
    m.attempts = attemptsIn m.audit ∧ AuditPath .needsRevalidation m.audit m.state ∧
    (∀ earlier later, calls = earlier ++ later →
      ∀ f ∈ ((new budget).after earlier).completed, f ∈ m.completed ∧
        f ∉ (((new budget).after earlier).begins later).map (·.1)) ∧
    ((new budget).begins calls).IsChain
      fun a b => budget.cooldown / nanosPerSecond ≤ b.2 - a.2 := by
  have hsound := sound_after budget calls
  refine ⟨⟨hsound.attempts,hsound.plannerCalls,hsound.cumulativeWait⟩,hsound.audited,
    hsound.path,?_,(begins_cooled budget calls).2⟩
  rintro earlier later rfl f hf
  rw [after_append]
  exact ⟨completed_after _ later f hf,completed_not_begun _ later f hf⟩

end RecoveryMachine

end WatchMe
