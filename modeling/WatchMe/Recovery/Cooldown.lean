import WatchMe.Effects.Program
import WatchMe.Recovery.MachineRuns

/-! # The cooldown and the clock of a daemon's life

The seconds that `begin_action` compares are counted from the start of the daemon, and the last of
them is kept in the file. Within one life a refusal for the cooldown means that less time than the
cooldown has passed; a life that is younger than the last attempt of an earlier one is refused
however long ago that was.
-/
namespace WatchMe
open Effects

/-- `SystemRecoveryClock::monotonic_ms() / 1000`, in a life whose clock started at `origin`. -/
def clockSeconds (origin now : Nat) : Nat := (now - origin) / 10 ^ 6 / 1000

theorem clockSeconds_eq (origin now : Nat) :
    clockSeconds origin now = (now - origin) / nanosPerSecond := by
  rw [clockSeconds,Nat.div_div_eq_div_mul]
  rfl

theorem lt_of_clockSeconds_sub_lt {origin earlier later n : Nat} (horigin : origin ≤ earlier)
    (h : clockSeconds origin later - clockSeconds origin earlier < n) :
    later < earlier + n * nanosPerSecond := by
  rw [clockSeconds_eq,clockSeconds_eq] at h
  have hlater := Nat.lt_mul_div_succ (later - origin) (show 0 < nanosPerSecond by decide)
  have hearlier := Nat.div_mul_le_self (earlier - origin) nanosPerSecond
  have hcount : (later - origin) / nanosPerSecond + 1 ≤ (earlier - origin) / nanosPerSecond + n := by
    omega
  have hbound := Nat.mul_le_mul_right nanosPerSecond hcount
  rw [Nat.add_mul ((earlier - origin) / nanosPerSecond)] at hbound
  rw [Nat.mul_comm] at hlater
  omega

structure BeginRecord where
  time : Nat
  life : Nat

structure TimedMachine where
  machine : RecoveryMachine
  now : Nat
  origin : Nat
  life : Nat
  last : Option BeginRecord

inductive TimedOp where
  | command (command : RecoveryCommand) (time : Nat)
  | restart (origin : Nat)

abbrev timedSig : Signature := ⟨TimedOp,fun _ => Except String Unit⟩

def OnClock (origin time : Nat) (command : RecoveryCommand) : Prop :=
  ∀ fingerprint clock, command = .beginAction fingerprint clock →
    clock.monotonicSeconds = clockSeconds origin time

def attempted (s : TimedMachine) (command : RecoveryCommand) (time : Nat) :
    Except String Unit → Option BeginRecord
  | .ok _ => match command with
    | .beginAction _ _ => some ⟨time,s.life⟩
    | _ => s.last
  | .error _ => s.last

/-- Any commands at any times, and restarts, each of which starts a new clock. -/
def timedMachine : Machine timedSig (Budget × Nat) Empty where
  State := TimedMachine
  start k := ⟨.new k.1,k.2,k.2,0,none⟩
  Step s e s' := match e with
    | ⟨.command command time,answer⟩ => s.now ≤ time ∧ OnClock s.origin time command ∧
      (RecoveryMachine.apply command).run s.machine = (answer,s'.machine) ∧
      s' = ⟨s'.machine,time,s.origin,s.life,attempted s command time answer⟩
    | ⟨.restart origin,answer⟩ => s.now ≤ origin ∧
      RecoveryMachine.Call.restart.perform s.machine = (answer,s'.machine) ∧
      s' = ⟨s'.machine,origin,origin,s.life + 1,s.last⟩
  result _ := none

namespace RecoveryMachine

/-- All that `begin_action` looks at before the cooldown. -/
structure Beginnable (m : RecoveryMachine) (fingerprint : String) : Prop where
  revalidated : m.state ≠ .needsRevalidation
  fresh : fingerprint ∉ m.completed
  current : m.current = some fingerprint
  attempts : m.attempts < m.budget.maxAttempts

theorem begin_cooldown_iff {m : RecoveryMachine} {fingerprint : String} {clock : ClockSnapshot} :
    m.applied (.beginAction fingerprint clock) = .error "cooldown active" ↔
      m.Beginnable fingerprint ∧ ¬ m.CooledDown clock.monotonicSeconds := by
  have hyields : Yields (beginAction fingerprint clock) m fun result _ =>
      result = .error "cooldown active" ↔
        m.Beginnable fingerprint ∧ ¬ m.CooledDown clock.monotonicSeconds := by
    refine Yields.get_bind ?_
    refine .guard (fun h => ?_) fun hstate => ?_
    · exact iff_of_false (by simp) fun hb => hb.1.revalidated h
    refine .guard (fun h => ?_) fun hfresh => ?_
    · exact iff_of_false (by simp) fun hb => hb.1.fresh (Std.ExtTreeSet.contains_iff_mem.1 h)
    refine .guard (fun h => ?_) fun hcurrent => ?_
    · exact iff_of_false (by simp) fun hb => h hb.1.current
    refine .guard (fun h => ?_) fun hattempts => ?_
    · exact iff_of_false (by simp) fun hb => Nat.not_lt.2 h hb.1.attempts
    have hbeginnable : m.Beginnable fingerprint :=
      ⟨hstate,fun h => hfresh (Std.ExtTreeSet.contains_iff_mem.2 h),not_not.1 hcurrent,
        Nat.lt_of_not_le hattempts⟩
    refine .guard (fun h => ?_) fun hcooled => ?_
    · exact iff_of_true rfl ⟨hbeginnable,fun hc => cooledDown_iff.1 hc h⟩
    -- past the check of the cooldown no answer has its text
    have hnot : ¬ (m.Beginnable fingerprint ∧ ¬ m.CooledDown clock.monotonicSeconds) :=
      fun hb => hb.2 (cooledDown_iff.2 hcooled)
    refine .bind (yields_transition (fun _ => ?_) fun _ => iff_of_false (by simp) hnot)
    exact iff_of_false (fun h => by cases h) hnot
  rw [applied_error_iff]
  exact hyields

end RecoveryMachine

/-- What the machine has kept of the last attempt: its seconds, on the clock of this life if it was
made in this life. -/
structure Timed (budget : Budget) (s : TimedMachine) : Prop where
  budget_eq : s.machine.budget = budget
  origin_le : s.origin ≤ s.now
  unbegun : s.last = none → s.machine.lastAttemptMono = none
  begun : ∀ a, s.last = some a → a.life ≤ s.life ∧ (a.life = s.life →
    s.origin ≤ a.time ∧ s.machine.lastAttemptMono = some (clockSeconds s.origin a.time))

theorem Timed.start (k : Budget × Nat) : Timed k.1 (timedMachine.start k) :=
  ⟨rfl,le_rfl,fun _ => rfl,fun _ h => by cases h⟩

variable {s : TimedMachine} {k : Budget × Nat} {h : List timedSig.Event}

theorem Timed.command {budget : Budget} {s' : TimedMachine} {command : RecoveryCommand} {time : Nat}
    {answer : Except String Unit} (h : Timed budget s)
    (hs : timedMachine.Step s ⟨.command command time,answer⟩ s') : Timed budget s' := by
  obtain ⟨htime,hclock,hrun,hnext⟩ := hs
  have heffect := RecoveryMachine.apply_effect s.machine command
  rw [hrun] at heffect
  generalize s'.machine = m at hrun hnext heffect
  subst hnext
  have horigin := h.origin_le.trans htime
  have hkept : ∀ m' : RecoveryMachine, m'.budget = s.machine.budget →
      m'.lastAttemptMono = s.machine.lastAttemptMono →
      Timed budget ⟨m',time,s.origin,s.life,s.last⟩ := by
    intro m' hbudget hlast
    refine ⟨hbudget.trans h.budget_eq,horigin,fun hnone => hlast.trans (h.unbegun hnone),?_⟩
    intro a ha
    obtain ⟨hlife,hthis⟩ := h.begun a ha
    exact ⟨hlife,fun heq => ⟨(hthis heq).1,hlast.trans (hthis heq).2⟩⟩
  cases heffect with
  | begun fingerprint clock =>
    refine ⟨h.budget_eq,horigin,fun hnone => (by cases hnone),?_⟩
    rintro a ⟨⟩
    exact ⟨le_rfl,fun _ => ⟨horigin,congrArg some (hclock fingerprint clock rfl)⟩⟩
  | refused | charged => exact hkept _ rfl rfl
  | revalidated | confirmed | failed | succeeded | rearmed | reserved => exact hkept _ rfl rfl

theorem Timed.restart {budget : Budget} {s' : TimedMachine} {origin : Nat}
    {answer : Except String Unit} (h : Timed budget s)
    (hs : timedMachine.Step s ⟨.restart origin,answer⟩ s') : Timed budget s' := by
  obtain ⟨-,hrun,hnext⟩ := hs
  have hmachine : s'.machine.budget = s.machine.budget ∧
      s'.machine.lastAttemptMono = s.machine.lastAttemptMono := by
    have hperform := RecoveryMachine.restart_perform s.machine
    rw [hrun] at hperform
    rcases hperform with heq | heq <;> (dsimp only at heq; rw [heq]; exact ⟨rfl,rfl⟩)
  generalize s'.machine = m at hnext hmachine
  subst hnext
  refine ⟨hmachine.1.trans h.budget_eq,le_rfl,fun hnone => hmachine.2.trans (h.unbegun hnone),?_⟩
  intro a ha
  have hlife : a.life ≤ s.life := (h.begun a ha).1
  refine ⟨hlife.trans (Nat.le_succ _),fun heq => ?_⟩
  have hnew : a.life = s.life + 1 := heq
  omega

theorem timed_runs (hr : timedMachine.Runs k h s) : Timed k.1 s := by
  refine hr.invariant (.start k) ?_
  rintro h s ⟨op,answer⟩ s' hs hstep
  cases op with
  | command => exact hs.command hstep
  | restart => exact hs.restart hstep

/-- In every run an attempt that is refused for the cooldown comes less than the cooldown after the
last attempt that succeeded, exactly if that one was made in the same life of the daemon, or less
than the cooldown ago, or the clock of this life is a cooldown past it. -/
theorem cooldown_refusal_justified_iff {k : Budget × Nat} {h : List timedSig.Event}
    {s : TimedMachine} (hr : timedMachine.Runs k h s) {fingerprint : String} {time : Nat}
    {clock : ClockSnapshot} (hclock : clock.monotonicSeconds = clockSeconds s.origin time) :
    (s.machine.applied (.beginAction fingerprint clock) = .error "cooldown active" →
      ∃ a, s.last = some a ∧ time < a.time + k.1.cooldown) ↔
    (s.machine.Beginnable fingerprint → ∀ a, s.last = some a → a.life = s.life ∨
      time < a.time + k.1.cooldown ∨ s.machine.CooledDown clock.monotonicSeconds) := by
  have htimed := timed_runs hr
  rw [RecoveryMachine.begin_cooldown_iff]
  constructor
  · intro hjustified hbeginnable a ha
    by_cases hcooled : s.machine.CooledDown clock.monotonicSeconds
    · exact .inr (.inr hcooled)
    · obtain ⟨a',ha',hrecent⟩ := hjustified ⟨hbeginnable,hcooled⟩
      obtain rfl := Option.some.inj (ha'.symm.trans ha)
      exact .inr (.inl hrecent)
  · rintro hcondition ⟨hbeginnable,hactive⟩
    cases hlast : s.last with
    | none =>
      -- a machine that never began has no cooldown
      refine (hactive fun last hmono => ?_).elim
      rw [htimed.unbegun hlast] at hmono
      cases hmono
    | some a =>
      refine ⟨a,rfl,?_⟩
      rcases hcondition hbeginnable a hlast with hlife | hrecent | hcooled
      · obtain ⟨horigin,hmono⟩ := (htimed.begun a hlast).2 hlife
        have hshort : clockSeconds s.origin time - clockSeconds s.origin a.time <
            k.1.cooldown / nanosPerSecond := by
          rw [← htimed.budget_eq]
          by_contra hlong
          refine hactive fun last hseconds => ?_
          obtain rfl := Option.some.inj (hseconds.symm.trans hmono)
          rw [hclock]
          exact Nat.not_lt.1 hlong
        have hbound := lt_of_clockSeconds_sub_lt horigin hshort
        have hfloor := Nat.div_mul_le_self k.1.cooldown nanosPerSecond
        omega
      · exact hrecent
      · exact (hactive hcooled).elim

namespace Sample

def minuteBudget : Budget := ⟨3,300 * nanosPerSecond,0,60 * nanosPerSecond⟩

def secondsIn (s : TimedMachine) (time : Nat) : ClockSnapshot :=
  ⟨clockSeconds s.origin time,0⟩

def timedCommand (s : TimedMachine) (command : RecoveryCommand) (second : Nat) : TimedMachine :=
  let called := (RecoveryMachine.apply command).run s.machine
  ⟨called.2,second * nanosPerSecond,s.origin,s.life,
    attempted s command (second * nanosPerSecond) called.1⟩

def commanded (s : TimedMachine) (command : RecoveryCommand) (second : Nat) : timedSig.Event :=
  ⟨.command command (second * nanosPerSecond),((RecoveryMachine.apply command).run s.machine).1⟩

def beginAt (s : TimedMachine) (fingerprint : String) (second : Nat) : RecoveryCommand :=
  .beginAction fingerprint (secondsIn s (second * nanosPerSecond))

theorem runs_command (hr : timedMachine.Runs k h s) (command : RecoveryCommand) (second : Nat)
    (hnow : s.now ≤ second * nanosPerSecond)
    (hclock : OnClock s.origin (second * nanosPerSecond) command) :
    timedMachine.Runs k (h ++ [commanded s command second]) (timedCommand s command second) :=
  hr.snoc ⟨hnow,hclock,rfl,rfl⟩

theorem onClock_beginAt (s : TimedMachine) (fingerprint : String) (second : Nat) :
    OnClock s.origin (second * nanosPerSecond) (beginAt s fingerprint second) := by
  rintro _ _ ⟨⟩
  rfl

def timedStart : TimedMachine := timedMachine.start (minuteBudget,0)

def confirmedFrom (s : TimedMachine) (fingerprint : String) (second : Nat) : TimedMachine :=
  timedCommand (timedCommand s .revalidated second) (.confirm fingerprint) (second + 1)

theorem runs_confirmed (hr : timedMachine.Runs k h s) (fingerprint : String) (second : Nat)
    (hnow : s.now ≤ second * nanosPerSecond) :
    ∃ h, timedMachine.Runs k h (confirmedFrom s fingerprint second) := by
  have hobserving := runs_command hr .revalidated second hnow fun _ _ h => by cases h
  refine ⟨_,runs_command hobserving (.confirm fingerprint) (second + 1) ?_ fun _ _ h => by cases h⟩
  exact Nat.mul_le_mul_right _ (Nat.le_succ second)

def begunOnce : TimedMachine :=
  let confirmed := confirmedFrom timedStart "limit" 1
  timedCommand confirmed (beginAt confirmed "limit" 1000) 1000

theorem begunOnce_runs : ∃ h, timedMachine.Runs (minuteBudget,0) h begunOnce := by
  have hstart : timedMachine.Runs (minuteBudget,0) [] timedStart := .start
  obtain ⟨h,hconfirmed⟩ := runs_confirmed hstart "limit" 1 (Nat.zero_le _)
  exact ⟨_,runs_command hconfirmed _ 1000 (by decide) (onClock_beginAt _ "limit" 1000)⟩

def failedOnce : TimedMachine := timedCommand begunOnce (.actionFailed "limit" 0 ⟨0,0⟩) 1010

def restartedLater : TimedMachine :=
  confirmedFrom ⟨(RecoveryMachine.Call.restart.perform begunOnce.machine).2,2000 * nanosPerSecond,
    2000 * nanosPerSecond,1,begunOnce.last⟩ "later" 2001

end Sample

/-- Half a minute after the first attempt the second one is refused. -/
theorem cooldown_refusal_justified_retry :
    let s := Sample.failedOnce
    let clock := Sample.secondsIn s (1030 * nanosPerSecond)
    (∃ h, timedMachine.Runs (Sample.minuteBudget,0) h s) ∧
      s.machine.applied (.beginAction "limit" clock) = .error "cooldown active" ∧
      ∃ a, s.last = some a ∧ 1030 * nanosPerSecond < a.time + Sample.minuteBudget.cooldown := by
  intro s clock
  obtain ⟨h,hbegun⟩ := Sample.begunOnce_runs
  have hruns := Sample.runs_command hbegun (.actionFailed "limit" 0 ⟨0,0⟩) 1010 (by decide)
    fun _ _ h => by cases h
  have hrefused : s.machine.applied (.beginAction "limit" clock) = .error "cooldown active" := by
    decide
  have hlife : ∀ a, s.last = some a → a.life = s.life := by
    rintro a ⟨⟩
    rfl
  exact ⟨⟨_,hruns⟩,hrefused,(cooldown_refusal_justified_iff hruns rfl).2
    (fun _ a ha => .inl (hlife a ha)) hrefused⟩

/-- A thousand seconds and a restart after the last attempt the next one is refused. -/
theorem cooldown_refused_after_restart :
    let s := Sample.restartedLater
    let clock := Sample.secondsIn s (2010 * nanosPerSecond)
    (∃ h, timedMachine.Runs (Sample.minuteBudget,0) h s) ∧
      clock.monotonicSeconds = 10 ∧
      s.machine.applied (.beginAction "later" clock) = .error "cooldown active" ∧
      ∃ a, s.last = some a ∧ a.time = 1000 * nanosPerSecond ∧
        ¬ 2010 * nanosPerSecond < a.time + Sample.minuteBudget.cooldown := by
  intro s clock
  obtain ⟨h,hbegun⟩ := Sample.begunOnce_runs
  have hrestart : timedMachine.Step Sample.begunOnce ⟨.restart (2000 * nanosPerSecond),.ok ()⟩
      ⟨(RecoveryMachine.Call.restart.perform Sample.begunOnce.machine).2,2000 * nanosPerSecond,
        2000 * nanosPerSecond,1,Sample.begunOnce.last⟩ :=
    ⟨by decide,rfl,rfl⟩
  refine ⟨Sample.runs_confirmed (hbegun.snoc hrestart) "later" 2001 (by decide),?_,?_,_,rfl,rfl,?_⟩
  · decide
  · decide
  · decide

end WatchMe
