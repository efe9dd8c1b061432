import WatchMe.Recovery.Conformance

/-! # What has passed before the executor is called

A run that calls the executor has a history of exactly seven answers, which `Prelude`
names, and every check made on them succeeded.
-/
namespace WatchMe
open Effects Transaction

structure Prelude where
  baseline : LiveEvidence
  wall : String
  again : LiveEvidence
  now : Nat
  snapshot : String
  recheck : LiveEvidence

def Prelude.record (d : Prelude) (job : Job) : ActionRecord :=
  job.prepared d.baseline d.now d.snapshot

def Prelude.events (d : Prelude) (job : Job) (reason : String) : List TxEvent :=
  [⟨.read,.ok d.baseline⟩,⟨.wallTime,d.wall⟩,⟨.read,.ok d.again⟩,⟨.monotonicMs,d.now⟩,
    ⟨.claimPrepared job.target (d.record job),.ok true⟩,⟨.read,.ok d.recheck⟩,
    ⟨.append job.target ((d.record job).next .begun reason),.ok ()⟩]

variable [Chrono] [Render]

structure Prelude.Passed (d : Prelude) (job : Job) : Prop where
  valid : validateAction job.action = .ok ()
  baseline : revalidationRefusal job.action none d.baseline = none
  authorized : authorize job.action (policyContext d.baseline job.recovery d.wall) = .ok ()
  again : revalidationRefusal job.action (some d.baseline) d.again = none
  rendered : Render.snapshot d.baseline.event.source d.baseline.event.confidence
    job.action.preconditions = .ok d.snapshot
  recheck : revalidationRefusal job.action (some d.again) d.recheck = none

namespace Stage
variable {h : List TxEvent}

theorem runs_back {job : Job} {s : Stage} (hr : stageMachine.Runs (.run job) h s)
    (hentered : ∀ j, s ≠ entered j) (hended : ∀ r, s ≠ ended r) :
    ∃ h₀ s₀ e, h = h₀ ++ [e] ∧ stageMachine.Runs (.run job) h₀ s₀ ∧ Step s₀ e s := by
  rcases hr.last with ⟨-,hs⟩ | hback
  · rcases startRun_cases job with ⟨heq,-⟩ | ⟨r,heq⟩
    · exact absurd (hs.trans heq) (hentered job)
    · exact absurd (hs.trans heq) (hended r)
  · exact hback

theorem runs_entered {job j : Job} (hr : stageMachine.Runs (.run job) h (entered j)) :
    j = job ∧ h = [] ∧ validateAction job.action = .ok () := by
  rcases hr.last with ⟨rfl,hs⟩ | ⟨h₀,s₀,e,-,-,hstep⟩
  · rcases startRun_cases job with ⟨heq,hvalid⟩ | ⟨r,heq⟩
    · have hj : entered j = entered job := hs.trans heq
      cases hj
      exact ⟨rfl,rfl,hvalid⟩
    · have hj : entered j = ended r := hs.trans heq
      cases hj
  · cases hstep

theorem runs_begun {job : Job} {c : Claim} (hr : stageMachine.Runs (.run job) h (begun c)) :
    ∃ (d : Prelude) (reason : String), d.Passed job ∧ h = d.events job reason ∧
      c = ⟨job,d.baseline,(d.record job).next .begun reason⟩ := by
  -- each stage before `begun` has one predecessor, so the history unwinds answer by answer
  obtain ⟨h₆,s₆,e₆,rfl,hr₆,hs⟩ := runs_back hr (by simp) (by simp)
  cases hs with | @begin c reason =>
  obtain ⟨h₅,s₅,e₅,rfl,hr₅,hs⟩ := runs_back hr₆ (by simp) (by simp)
  cases hs with | @recheck _ again recheck hrecheck =>
  obtain ⟨h₄,s₄,e₄,rfl,hr₄,hs⟩ := runs_back hr₅ (by simp) (by simp)
  cases hs with | claim =>
  obtain ⟨h₃,s₃,e₃,rfl,hr₃,hs⟩ := runs_back hr₄ (by simp) (by simp)
  cases hs with | @prepare j base _ now snapshot hsnap =>
  obtain ⟨h₂,s₂,e₂,rfl,hr₂,hs⟩ := runs_back hr₃ (by simp) (by simp)
  cases hs with | confirm hagain =>
  obtain ⟨h₁,s₁,e₁,rfl,hr₁,hs⟩ := runs_back hr₂ (by simp) (by simp)
  cases hs with | @authorize _ _ wall hauth =>
  obtain ⟨h₀,s₀,e₀,rfl,hr₀,hs⟩ := runs_back hr₁ (by simp) (by simp)
  cases hs with | baseline hbase =>
  obtain ⟨rfl,rfl,hvalid⟩ := runs_entered hr₀
  exact ⟨⟨base,wall,again,now,snapshot,recheck⟩,reason,
    ⟨hvalid,hbase,hauth,hagain,hsnap,hrecheck⟩,rfl,rfl⟩

end Stage

end WatchMe
