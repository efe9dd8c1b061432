import WatchMe.Effects.Program
import WatchMe.Process.Inspector

/-! # How long a process has been missing

A monitor remembers only when the process was first missing, and forgets it when the process is
replaced but not when it is found again.
-/
namespace WatchMe
open Effects

inductive MonitorCall where
  | observe (inspector : ProcessInspector) (now : Nat)
  | commitReexec (identity : ProcessIdentity)

/-- An observation answers whether the process was missing, and what was decided. -/
@[reducible] def MonitorCall.Answer : MonitorCall → Type
  | observe _ _ => Bool × LifecycleDecision
  | commitReexec _ => Unit

abbrev monitorSig : Signature := ⟨MonitorCall,MonitorCall.Answer⟩
abbrev MonitorEvent := monitorSig.Event

namespace LifecycleMonitor
variable {m m' : LifecycleMonitor} {inspector : ProcessInspector} {now grace : Nat}
  {h : List MonitorEvent} {e : MonitorEvent} {identity : ProcessIdentity}

def isMissing (m : LifecycleMonitor) (inspector : ProcessInspector) : Bool :=
  match inspector.inspect m.identity.pid with
  | .error (.disappeared _) => true
  | _ => false

inductive Step (m : LifecycleMonitor) : MonitorEvent → LifecycleMonitor → Prop
  | observe (inspector : ProcessInspector) (now : Nat) : Step m
      ⟨.observe inspector now,(m.isMissing inspector,(m.observe inspector now).1)⟩
      (m.observe inspector now).2
  | commitReexec (identity : ProcessIdentity) :
      Step m ⟨.commitReexec identity,()⟩ (m.commitReexec identity)

def machine : Machine monitorSig LifecycleMonitor Unit where
  State := LifecycleMonitor
  start := id
  Step := Step
  result _ := none

def FoundMissing : MonitorEvent → Prop
  | ⟨.observe _ _,(missing,_)⟩ => missing = true
  | ⟨.commitReexec _,_⟩ => False

/-- An observation of that time found the process missing, and so did every call after it. -/
def MissingFrom (since : Nat) (h : List MonitorEvent) : Prop :=
  ∃ before inspector answer after, h = before ++ ⟨.observe inspector since,answer⟩ :: after ∧
    ∀ e ∈ (⟨.observe inspector since,answer⟩ : MonitorEvent) :: after, FoundMissing e

def Absent (h : List MonitorEvent) (grace now : Nat) : Prop :=
  ∃ since, grace < now - since ∧ MissingFrom since h

/-- A process that was missing is not found again unless it was replaced. -/
def Steady (m : LifecycleMonitor) : MonitorEvent → Prop
  | ⟨.observe inspector _,_⟩ => m.missingSince.isSome → m.isMissing inspector = true
  | ⟨.commitReexec _,_⟩ => True

theorem observe_present (hpresent : m.isMissing inspector = false) :
    (m.observe inspector now).2 = m := by
  unfold isMissing at hpresent
  unfold observe
  split at hpresent
  · cases hpresent
  · split
    · rfl
    · simp_all
    · rfl

theorem observe_missing (hmissing : m.isMissing inspector = true) (hgrace : 0 < m.graceMs) :
    m.observe inspector now = m.observeMissing inspector now := by
  unfold isMissing at hmissing
  unfold observe
  split at hmissing
  · rename_i hinspect
    rw [hinspect]
    exact if_pos hgrace
  · cases hmissing

theorem MissingFrom.snoc {since : Nat} (hh : MissingFrom since h) (he : FoundMissing e) :
    MissingFrom since (h ++ [e]) := by
  obtain ⟨before,inspector,answer,after,rfl,hall⟩ := hh
  refine ⟨before,inspector,answer,after ++ [e],by simp,fun e' he' => ?_⟩
  rw [← List.cons_append,List.mem_append,List.mem_singleton] at he'
  rcases he' with he' | rfl
  · exact hall e' he'
  · exact he

/-- An absence that is remembered lasts since then. -/
structure Remembers (grace : Nat) (h : List MonitorEvent) (m : LifecycleMonitor) : Prop where
  grace : m.graceMs = grace
  since : ∀ since ∈ m.missingSince, MissingFrom since h

theorem Remembers.step (hgrace : 0 < grace) (hm : Remembers grace h m) (hsteady : Steady m e)
    (hs : Step m e m') : Remembers grace (h ++ [e]) m' := by
  cases hs with
  | commitReexec => exact ⟨hm.grace,fun since hsince => by cases hsince⟩
  | observe inspector now =>
    cases hmissing : m.isMissing inspector with
    | false =>
      rw [observe_present hmissing]
      -- nothing is remembered while the process is there
      refine ⟨hm.grace,fun since hsince => ?_⟩
      have := hsteady (by rw [Option.mem_def.1 hsince]; rfl)
      rw [hmissing] at this
      cases this
    | true =>
      rw [observe_missing hmissing (hm.grace ▸ hgrace)]
      refine ⟨?_,fun since hsince => ?_⟩
      · rw [observeMissing]
        split_ifs <;> exact hm.grace
      · have hkeeps : m.missingSince.getD now = since := by
          rw [observeMissing] at hsince
          split_ifs at hsince <;> exact Option.some.inj hsince
        cases hfirst : m.missingSince with
        | some =>
          rw [hfirst,Option.getD_some] at hkeeps
          exact (hm.since since (hkeeps ▸ hfirst)).snoc rfl
        | none =>
          rw [hfirst,Option.getD_none] at hkeeps
          subst hkeeps
          exact ⟨h,inspector,_,[],rfl,by simp [FoundMissing]⟩

theorem replacement_ne_terminate : m.replacement inspector ≠ .terminate := by
  unfold replacement
  split
  · simp
  · split
    · simp
    · split <;> simp

theorem observeMissing_terminate (h : (m.observeMissing inspector now).1 = .terminate) :
    ∃ since, m.graceMs < now - since ∧ m.missingSince.getD now = since := by
  refine ⟨_,?_,rfl⟩
  by_contra hwithin
  rw [observeMissing,if_neg hwithin] at h
  exact replacement_ne_terminate h

theorem grace_counts_absence (hgrace : 0 < grace)
    (hr : (machine.restrict Steady).Runs (.withReexecGrace identity grace) h m)
    (hmissing : m.isMissing inspector = true)
    (hend : (m.observe inspector now).1 = .terminate) : Absent h grace now := by
  have hm : Remembers grace h m := hr.invariant
    ⟨rfl,fun since hsince => by cases hsince⟩ fun _ _ _ _ hm hs => hm.step hgrace hs.1 hs.2
  rw [observe_missing hmissing (hm.grace ▸ hgrace)] at hend
  obtain ⟨since,hlong,hsince⟩ := observeMissing_terminate hend
  cases hfirst : m.missingSince with
  | none =>
    rw [hfirst,Option.getD_none] at hsince
    omega
  | some =>
    rw [hfirst,Option.getD_some] at hsince
    exact ⟨since,hm.grace ▸ hlong,hm.since since (hsince ▸ hfirst)⟩

namespace Sample

def watched : ProcessIdentity := .new 7 1

def emptyTable : ProcessInspector := ⟨fun pid => .error (.disappeared pid),fun _ => .ok []⟩

def fullTable : ProcessInspector :=
  ⟨fun pid => .ok ⟨pid,1,1,none,none,none,none,none,none⟩,fun _ => .ok []⟩

end Sample

theorem grace_counts_absence_gone :
    ∃ h, Absent h 2000 5000 ∧
      (machine.restrict Steady).Runs (.withReexecGrace Sample.watched 2000) h
        ⟨Sample.watched,2000,some 1000⟩ := by
  have hrun : (machine.restrict Steady).Runs (.withReexecGrace Sample.watched 2000) ([] ++
      [⟨.observe Sample.emptyTable 1000,(true,.grace)⟩]) ⟨Sample.watched,2000,some 1000⟩ :=
    .snoc .start ⟨fun h => (by cases h),Step.observe Sample.emptyTable 1000⟩
  have hmissing : (⟨Sample.watched,2000,some 1000⟩ : LifecycleMonitor).isMissing
      Sample.emptyTable = true := rfl
  exact ⟨_,grace_counts_absence (by decide) hrun hmissing rfl,hrun⟩

/-- The process is seen again, and its next absence counts from the first one. -/
theorem grace_counts_presence :
    ∃ h m, machine.Runs (.withReexecGrace Sample.watched 2000) h m ∧
      m.isMissing Sample.emptyTable = true ∧
      (m.observe Sample.emptyTable 2500).1 = .terminate ∧
      (⟨.observe Sample.fullTable 2400,(false,.alive)⟩ : MonitorEvent) ∈ h ∧
      ¬ Absent h 2000 2500 := by
  have hfirst : machine.Runs (.withReexecGrace Sample.watched 2000)
      ([] ++ [⟨.observe Sample.emptyTable 0,(true,.grace)⟩]) ⟨Sample.watched,2000,some 0⟩ :=
    .snoc .start (Step.observe Sample.emptyTable 0)
  refine ⟨_,⟨Sample.watched,2000,some 0⟩,.snoc hfirst (Step.observe Sample.fullTable 2400),rfl,
    by decide,List.mem_append_right _ List.mem_cons_self,?_⟩
  rintro ⟨since,-,before,inspector,answer,after,hh,hall⟩
  -- the call that found the process is the last one
  rcases before with _ | ⟨_,_ | ⟨_,_⟩⟩
  · rw [← (List.cons.inj hh).2] at hall
    have hfound := hall _ (List.mem_cons_of_mem _ List.mem_cons_self)
    cases hfound
  · have hfound := hall _ List.mem_cons_self
    rw [← (List.cons.inj (List.cons.inj hh).2).1] at hfound
    cases hfound
  · simp at hh

end LifecycleMonitor

end WatchMe
