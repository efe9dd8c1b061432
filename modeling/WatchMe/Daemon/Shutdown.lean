import WatchMe.Daemon.Supervisor
import WatchMe.Effects.Interpret
import WatchMe.Effects.Play

/-! # What a shutdown leaves running

Every job that was started is finished, or in the list, or about to be put there by the call that
holds the mutex, or among those that `wait_for_terminal_jobs` has taken. Once that call has been in
the critical section, a call of `schedule` that comes to it sees the lowered flag. So the jobs have
finished when `wait_for_terminal_jobs` returns.
-/
namespace WatchMe
open Effects RecoverySupervisor
variable {p : SupervisorStage}

def handles (jobs : List JobEntry) : List Nat := jobs.map Prod.snd

namespace SupervisorStage

def holds : SupervisorStage → Bool
  | inside _ | refused | reading _ | pruning _ _ _ | starting _ _ | pushing _ _ _ | leaving
  | closed _ | taken _ _ | emptied _ _ => true
  | _ => false

def Asserts (stage : SupervisorStage) (s : SupervisorState) : Prop :=
  match stage with
  | inside _ | refused | leaving => s.locked = true
  | reading _ => s.locked = true ∧ s.published = false
  | pruning _ rest kept => s.locked = true ∧ s.published = false ∧
      ∀ handle ∈ handles s.jobs, handle ∈ handles rest ∨ handle ∈ handles kept ∨
        handle ∈ s.finished
  | starting _ kept | pushing _ kept _ => s.locked = true ∧ s.published = false ∧ s.jobs = kept
  | cancelling (.closing _) | closing _ => s.accepting = false
  | closed _ => s.locked = true ∧ s.published = true
  | taken _ jobs => s.locked = true ∧ s.published = true ∧ s.jobs = jobs
  | emptied _ _ => s.locked = true ∧ s.published = true ∧ s.jobs = []
  | awaiting _ _ | late _ _ _ | joining _ _ _ | acknowledged | released true =>
      s.published = true ∧ s.jobs = []
  | _ => True

def Excludes (p q : SupervisorStage) : Prop := ¬ (p.holds = true ∧ q.holds = true)

end SupervisorStage

def Lowered (s : SupervisorState) : Prop := s.published = true → s.accepting = false

theorem lowered_new : Lowered .new := by
  intro hpublished
  cases hpublished

theorem unrelated_answers {op : SupervisorOp} {r : op.Answer} {s s' : SupervisorState}
    (h : Unrelated op) (hw : supervisorWorld.Answers s ⟨op,r⟩ s') : s' = s := by
  cases op with
  | select | tryRecv | idle | schedulerFromRegistry | sendShutdown | abortObservation
  | joinObservation | stopTasks => exact hw
  | _ => exact h.elim

/-- What a call guarantees to the others with a step. -/
structure Guarantee (p q : SupervisorStage) (s s' : SupervisorState) : Prop where
  accepting : s.accepting = false → s'.accepting = false
  published : s.published = true → s'.published = true
  publishes : s'.published = true → s.published = true ∨ s.accepting = false
  jobs : p.holds = false → s'.jobs = s.jobs
  locked : p.holds = false → s.locked = true → s'.locked = true ∧ s'.published = s.published
  emptied : s.published = true → s.jobs = [] → s'.jobs = []
  finished : ∀ handle ∈ s.finished, handle ∈ s'.finished
  acquires : q.holds = true → p.holds = true ∨ s.locked = false

section Interference
variable {p q u : SupervisorStage} {e : supervisorSig.Event} {s s' : SupervisorState}

theorem Guarantee.quiet (haccepting : s'.accepting = s.accepting)
    (hpublished : s'.published = s.published) (hjobs : s'.jobs = s.jobs)
    (hlocked : s'.locked = s.locked) (hfinished : ∀ handle ∈ s.finished, handle ∈ s'.finished)
    (hholds : q.holds = true → p.holds = true) : Guarantee p q s s' where
  accepting h := haccepting.trans h
  published h := hpublished.trans h
  publishes h := .inl (hpublished.symm.trans h)
  jobs _ := hjobs
  locked _ h := ⟨hlocked.trans h,hpublished⟩
  emptied _ h := hjobs.trans h
  finished := hfinished
  acquires h := .inl (hholds h)

theorem Guarantee.same (hholds : q.holds = true → p.holds = true) : Guarantee p q s s :=
  .quiet rfl rfl rfl rfl (fun _ h => h) hholds

theorem Guarantee.proceeds {handle : Nat} {step : JobStep}
    (hw : supervisorWorld.Answers s ⟨.proceed handle,step⟩ s')
    (hholds : q.holds = true → p.holds = true) : Guarantee p q s s' := by
  cases step with
  | finished =>
    obtain ⟨-,rfl⟩ := hw
    exact .quiet rfl rfl rfl rfl (fun _ h => List.mem_cons_of_mem _ h) hholds
  | inspect | input =>
    obtain ⟨-,rfl⟩ := hw
    exact .same hholds

theorem guarantee_of_step (hp : p.Asserts s) (h : SupervisorStep p e q)
    (hw : supervisorWorld.Answers s e s') : Guarantee p q s s' := by
  cases h with
  | entered | closes =>
    obtain ⟨hfree,rfl⟩ := hw
    refine ⟨fun h => h,fun h => ?_,fun h => ?_,fun _ => rfl,fun _ h => ?_,fun _ h => h,
      fun _ h => h,fun _ => .inr hfree⟩
    · simp [h]
    · first | exact .inr hp | exact .inl (by simpa using h)
    · cases hfree.symm.trans h
  | left | leaves | opens =>
    cases hw
    exact ⟨fun h => h,fun h => h,.inl,fun _ => rfl,nofun,fun _ h => h,fun _ h => h,nofun⟩
  | admitted | refused | read | pruned | kept | takes =>
    obtain ⟨rfl,-⟩ := hw
    exact .same fun _ => rfl
  | joined | expired | joins =>
    obtain ⟨rfl,-⟩ := hw
    exact .same nofun
  | stored | pushed =>
    cases hw
    refine ⟨fun h => h,fun h => h,.inl,nofun,nofun,fun h => ?_,fun _ h => h,fun _ => .inl rfl⟩
    cases hp.2.1.symm.trans h
  | empties =>
    cases hw
    exact ⟨fun h => h,fun h => h,.inl,nofun,nofun,fun _ _ => rfl,fun _ h => h,fun _ => .inl rfl⟩
  | started =>
    obtain ⟨-,rfl⟩ := hw
    exact .quiet rfl rfl rfl rfl (fun _ h => h) fun _ => rfl
  | lowered | loweredFirst | loweredAgain =>
    cases hw
    exact ⟨fun _ => rfl,fun h => h,.inl,fun _ => rfl,fun _ h => ⟨h,rfl⟩,fun _ h => h,fun _ h => h,
      nofun⟩
  | cancelled next =>
    cases hw
    refine .quiet rfl rfl rfl rfl (fun _ h => h) ?_
    cases next <;> exact nofun
  | handedOff | acknowledges | stops =>
    cases hw
    exact .same nofun
  | serves op r h =>
    cases unrelated_answers h hw
    exact .same nofun
  | releases | abandons =>
    cases hw
    exact .quiet rfl rfl rfl rfl (fun _ h => h) nofun
  | proceeds => exact .proceeds hw nofun
  | finishes => exact .proceeds hw nofun

theorem SupervisorStage.Asserts.locked (hu : u.Asserts s) (h : u.holds = true) :
    s.locked = true := by
  cases u with
  | inside | refused | leaving => exact hu
  | reading | pruning | starting | pushing | closed | taken | emptied => exact hu.1
  | _ => cases h

theorem SupervisorStage.Asserts.stable (hu : u.Asserts s) (hg : Guarantee p q s s')
    (hpair : SupervisorStage.Excludes p u) : u.Asserts s' := by
  have hquiet : u.holds = true →
      s'.jobs = s.jobs ∧ s'.locked = true ∧ s'.published = s.published := by
    intro hholds
    have hp : p.holds = false := by
      cases hp : p.holds with
      | false => rfl
      | true => exact absurd ⟨hp,hholds⟩ hpair
    exact ⟨hg.jobs hp,hg.locked hp (hu.locked hholds)⟩
  cases u with
  | inside | refused | leaving => exact (hquiet rfl).2.1
  | reading | closed =>
    obtain ⟨-,hlocked,hpublished⟩ := hquiet rfl
    exact ⟨hlocked,hpublished.trans hu.2⟩
  | pruning =>
    obtain ⟨hjobs,hlocked,hpublished⟩ := hquiet rfl
    refine ⟨hlocked,hpublished.trans hu.2.1,?_⟩
    rw [hjobs]
    exact fun handle h => (hu.2.2 handle h).imp_right fun h => h.imp_right (hg.finished handle)
  | starting | pushing | taken | emptied =>
    obtain ⟨hjobs,hlocked,hpublished⟩ := hquiet rfl
    exact ⟨hlocked,hpublished.trans hu.2.1,hjobs.trans hu.2.2⟩
  | closing => exact hg.accepting hu
  | cancelling next =>
    cases next with
    | closing => exact hg.accepting hu
    | gone | serving => trivial
  | awaiting | late | joining | acknowledged =>
    exact ⟨hg.published hu.1,hg.emptied hu.1 hu.2⟩
  | released acknowledged =>
    cases acknowledged with
    | true => exact ⟨hg.published hu.1,hg.emptied hu.1 hu.2⟩
    | false => trivial
  | outside | storing | serving | running | gone => trivial

theorem asserts_of_step (hs : Lowered s) (hp : p.Asserts s) (h : SupervisorStep p e q)
    (hw : supervisorWorld.Answers s e s') : q.Asserts s' := by
  cases h with
  | entered =>
    obtain ⟨-,rfl⟩ := hw
    exact rfl
  | admitted =>
    obtain ⟨rfl,hvalue⟩ := hw
    refine ⟨hp,?_⟩
    rcases hvalue with hvalue | ⟨-,hpublished⟩
    · -- the flag is still up, so nobody who lowered it was here
      cases hpublished : s'.published with
      | false => rfl
      | true => cases hvalue.trans (hs hpublished)
    · exact hpublished
  | read =>
    obtain ⟨rfl,rfl⟩ := hw
    exact ⟨hp.1,hp.2,fun _ h => .inl h⟩
  | pruned =>
    obtain ⟨rfl,hfinished⟩ := hw
    refine ⟨hp.1,hp.2.1,fun handle h => ?_⟩
    rcases hp.2.2 handle h with h | h
    · rcases List.mem_cons.1 h with rfl | h
      · exact .inr (.inr (hfinished rfl))
      · exact .inl h
    · exact .inr h
  | kept id entry rest kept =>
    obtain ⟨rfl,-⟩ := hw
    refine ⟨hp.1,hp.2.1,fun handle h => ?_⟩
    have hkept : handles (kept ++ [entry]) = handles kept ++ [entry.2] := List.map_append
    rw [hkept,List.mem_append,List.mem_singleton]
    rcases hp.2.2 handle h with h | h | h
    · rcases List.mem_cons.1 h with rfl | h
      · exact .inr (.inl (.inr rfl))
      · exact .inl h
    · exact .inr (.inl (.inl h))
    · exact .inr (.inr h)
  | stored | empties =>
    cases hw
    exact ⟨hp.1,hp.2.1,rfl⟩
  | started =>
    obtain ⟨-,rfl⟩ := hw
    exact hp
  | pushed =>
    cases hw
    exact hp.1
  | lowered next =>
    cases hw
    cases next with
    | closing => exact rfl
    | gone | serving => trivial
  | loweredAgain =>
    cases hw
    exact rfl
  | cancelled next =>
    cases hw
    cases next with
    | closing => exact hp
    | gone | serving => trivial
  | closes =>
    obtain ⟨-,rfl⟩ := hw
    exact ⟨rfl,Bool.or_true _⟩
  | takes =>
    obtain ⟨rfl,rfl⟩ := hw
    exact ⟨hp.1,hp.2,rfl⟩
  | opens =>
    cases hw
    exact ⟨hp.2.1,hp.2.2⟩
  | refused | joined | expired | joins =>
    obtain ⟨rfl,-⟩ := hw
    exact hp
  | handedOff | acknowledges | stops | releases =>
    cases hw
    exact hp
  | left | leaves | loweredFirst | serves | abandons | proceeds | finishes => trivial

theorem supervisor_interference : Pool.Interference supervisorStages supervisorWorld Lowered
    SupervisorStage.Asserts SupervisorStage.Excludes where
  crash _ _ h := h
  start k s _ := by cases k <;> trivial
  startPair k u h := by
    cases k <;> cases h.1
  symm h hqp := h ⟨hqp.2,hqp.1⟩
  shared hs hp h hw hpublished := by
    have hg := guarantee_of_step hp h hw
    exact hg.accepting ((hg.publishes hpublished).elim hs id)
  own := asserts_of_step
  other := by
    intro p q u e s s' _ hp hu hpair h hw
    have hg := guarantee_of_step hp h hw
    refine ⟨hu.stable hg hpair,fun hboth => ?_⟩
    rcases hg.acquires hboth.1 with hholds | hfree
    · exact hpair ⟨hholds,hboth.2⟩
    · cases hfree.symm.trans (hu.locked hboth.2)

end Interference

namespace SupervisorStage

def pending : SupervisorStage → List Nat
  | pushing _ _ handle => [handle]
  | taken _ jobs | emptied _ jobs | awaiting _ jobs => handles jobs
  | late _ entry rest | joining _ entry rest => entry.2 :: handles rest
  | _ => []

/-- The stages of `wait_for_terminal_jobs`, and whether it is the daemon that calls it. -/
def waiter : SupervisorStage → Option Bool
  | storing (.closing daemon) | cancelling (.closing daemon) | closing daemon | closed daemon
  | taken daemon _ | emptied daemon _ | awaiting daemon _ | late daemon _ _
  | joining daemon _ _ => some daemon
  | storing .serving | cancelling .serving | serving | acknowledged | released _ => some true
  | _ => none

def settled : SupervisorStage → Bool
  | awaiting false [] | acknowledged | released true => true
  | _ => false

theorem pending_cases {stage : SupervisorStage} {handle : Nat} (h : handle ∈ stage.pending) :
    (∃ id kept, stage = pushing id kept handle) ∨ stage.waiter.isSome = true := by
  cases stage with
  | pushing id kept =>
    obtain rfl := List.mem_singleton.1 h
    exact .inl ⟨id,kept,rfl⟩
  | taken | emptied | awaiting | late | joining => exact .inr rfl
  | _ => exact absurd h List.not_mem_nil

end SupervisorStage

section Accounts
variable {p q : SupervisorStage} {e : supervisorSig.Event} {s s' : SupervisorState} {handle : Nat}

/-- Where a job is after a step: finished, in the list, or in the hand of the call. -/
def Placed (q : SupervisorStage) (s : SupervisorState) (handle : Nat) : Prop :=
  handle ∈ s.finished ∨ handle ∈ handles s.jobs ∨ handle ∈ q.pending

structure Accounts (p q : SupervisorStage) (s s' : SupervisorState) : Prop where
  started : ∀ handle, handle < s'.started → handle < s.started ∨ handle ∈ q.pending
  listed : ∀ handle ∈ handles s.jobs, Placed q s' handle
  pending : ∀ handle ∈ p.pending, Placed q s' handle

theorem Accounts.quiet (hstarted : s'.started = s.started) (hjobs : s'.jobs = s.jobs)
    (hpending : ∀ handle ∈ p.pending, Placed q s' handle) : Accounts p q s s' where
  started _ h := .inl (hstarted ▸ h)
  listed _ h := .inr (.inl (hjobs ▸ h))
  pending := hpending

theorem Accounts.proceeds {handle : Nat} {step : JobStep}
    (hw : supervisorWorld.Answers s ⟨.proceed handle,step⟩ s') (hpending : p.pending = []) :
    Accounts p q s s' := by
  have hnone : ∀ handle ∈ p.pending, Placed q s' handle := by
    rw [hpending]
    exact fun _ h => absurd h List.not_mem_nil
  cases step with
  | finished | inspect | input =>
    obtain ⟨-,rfl⟩ := hw
    exact .quiet rfl rfl hnone

theorem accounts_of_step (hp : p.Asserts s) (h : SupervisorStep p e q)
    (hw : supervisorWorld.Answers s e s') : Accounts p q s s' := by
  cases h with
  | entered | closes =>
    obtain ⟨-,rfl⟩ := hw
    exact .quiet rfl rfl nofun
  | admitted | refused | read | pruned | kept =>
    obtain ⟨rfl,-⟩ := hw
    exact .quiet rfl rfl nofun
  | left | leaves | lowered | loweredFirst | loweredAgain | cancelled | stops | releases
  | abandons =>
    cases hw
    exact .quiet rfl rfl nofun
  | acknowledges =>
    cases hw
    exact .quiet rfl rfl fun _ h => absurd h List.not_mem_nil
  | stored =>
    cases hw
    refine ⟨fun _ h => .inl h,fun handle h => ?_,nofun⟩
    rcases hp.2.2 handle h with h | h | h
    · exact absurd h List.not_mem_nil
    · exact .inr (.inl h)
    · exact .inl h
  | started =>
    obtain ⟨rfl,rfl⟩ := hw
    refine ⟨fun handle h => ?_,fun _ h => .inr (.inl h),nofun⟩
    rcases Nat.lt_succ_iff_lt_or_eq.1 h with h | rfl
    · exact .inl h
    · exact .inr (List.mem_singleton.2 rfl)
  | pushed id kept started =>
    cases hw
    have hpushed : handles (kept ++ [(id,started)]) = handles kept ++ [started] := List.map_append
    refine ⟨fun _ h => .inl h,fun handle h => .inr (.inl ?_),fun handle h => .inr (.inl ?_)⟩
    · change handle ∈ handles (kept ++ [(id,started)])
      rw [hpushed]
      exact List.mem_append_left _ (hp.2.2 ▸ h)
    · change handle ∈ handles (kept ++ [(id,started)])
      rw [hpushed]
      exact List.mem_append_right _ h
  | takes =>
    obtain ⟨rfl,-⟩ := hw
    exact .quiet rfl rfl nofun
  | empties =>
    cases hw
    refine ⟨fun _ h => .inl h,fun handle h => .inr (.inr ?_),fun _ h => .inr (.inr h)⟩
    exact hp.2.2 ▸ h
  | opens | handedOff =>
    cases hw
    exact .quiet rfl rfl fun _ h => .inr (.inr h)
  | joined =>
    obtain ⟨rfl,hfinished⟩ := hw
    refine .quiet rfl rfl fun handle h => ?_
    rcases List.mem_cons.1 h with rfl | h
    · exact .inl (hfinished rfl)
    · exact .inr (.inr h)
  | expired =>
    obtain ⟨rfl,-⟩ := hw
    exact .quiet rfl rfl fun _ h => .inr (.inr h)
  | joins =>
    obtain ⟨rfl,hfinished⟩ := hw
    refine .quiet rfl rfl fun handle h => ?_
    rcases List.mem_cons.1 h with rfl | h
    · exact .inl hfinished
    · exact .inr (.inr h)
  | serves op r h =>
    cases unrelated_answers h hw
    exact .quiet rfl rfl nofun
  | proceeds => exact .proceeds hw rfl
  | finishes => exact .proceeds hw rfl

end Accounts

/-- Every job that was started is finished, in the list, or in the hand of a call. -/
def Accounted (P : Pool supervisorStages SupervisorState) : Prop :=
  ∀ handle, handle < P.shared.started → handle ∈ P.shared.finished ∨
    handle ∈ handles P.shared.jobs ∨ ∃ (i : Nat) (t : Thread supervisorStages),
      P.threads[i]? = some t ∧ handle ∈ SupervisorStage.pending t.state

theorem Accounted.step {P P' : Pool supervisorStages SupervisorState}
    {l : Label supervisorSig SupervisorCall}
    (hasserts : Pool.Asserts Lowered SupervisorStage.Asserts SupervisorStage.Excludes P)
    (h : Accounted P) (hs : Pool.Step supervisorWorld P l P') : Accounted P' := by
  intro handle hstarted
  cases hs with
  | spawn =>
    refine (h handle hstarted).imp_right fun h => h.imp_right ?_
    rintro ⟨i,t,ht,hpending⟩
    exact ⟨i,t,(List.getElem?_append_left (List.getElem?_eq_some_iff.1 ht).1).trans ht,hpending⟩
  | act i t e q shared ht _ hm hw =>
    have hp := hasserts.thread i t ht
    have haccounts := accounts_of_step hp hm hw
    have hi : i < P.threads.length := (List.getElem?_eq_some_iff.1 ht).1
    have hself : (P.threads.set i (t.advance e q))[i]? = some (t.advance e q) :=
      List.getElem?_set_self hi
    have hplaced : Placed q shared handle → handle ∈ shared.finished ∨
        handle ∈ handles shared.jobs ∨ ∃ (j : Nat) (u : Thread supervisorStages),
          (P.threads.set i (t.advance e q))[j]? = some u ∧
            handle ∈ SupervisorStage.pending u.state := fun h =>
      h.imp_right fun h => h.imp_right fun h => ⟨i,_,hself,h⟩
    rcases haccounts.started handle hstarted with hbefore | hnew
    · rcases h handle hbefore with hfinished | hlisted | ⟨j,u,hu,hpending⟩
      · exact .inl ((guarantee_of_step hp hm hw).finished handle hfinished)
      · exact hplaced (haccounts.listed handle hlisted)
      · by_cases hij : i = j
        · subst hij
          obtain rfl : t = u := Option.some.inj (ht.symm.trans hu)
          exact hplaced (haccounts.pending handle hpending)
        · exact .inr (.inr ⟨j,u,(List.getElem?_set_ne hij).trans hu,hpending⟩)
    · exact hplaced (.inr (.inr hnew))
  | crash _ hrestart => exact hrestart.elim

def SupervisorCall.waiter : SupervisorCall → Option Bool
  | waitForTerminalJobs => some false
  | daemon => some true
  | _ => none

def SupervisorCall.waits (k : SupervisorCall) : Bool := k.waiter.isSome

/-- There is one call of `wait_for_terminal_jobs`, by itself or in the daemon. -/
def OneWait : Discipline supervisorSig SupervisorCall Unit SupervisorState := fun V l =>
  match l with
  | .spawn k => k.waits = true → ∀ v ∈ V.threads, v.call.waits = false
  | _ => True

theorem waiter_of_step {q : SupervisorStage} {e : supervisorSig.Event} (h : SupervisorStep p e q) :
    q.waiter = p.waiter := by
  cases h with
  | lowered next | cancelled next => cases next <;> rfl
  | _ => rfl

theorem settled_of_step {q : SupervisorStage} {e : supervisorSig.Event} (hp : p.settled = true)
    (h : SupervisorStep p e q) : q.settled = true := by
  cases h with
  | stops | releases => rfl
  | acknowledges => rfl
  | joined daemon | expired daemon => cases daemon <;> cases hp
  | _ => cases hp

theorem stage_of_runs {k : SupervisorCall} {h : List supervisorSig.Event}
    (hr : supervisorStages.Runs k h p) : p.waiter = k.waiter ∧
      ((⟨.acknowledge,()⟩ : supervisorSig.Event) ∈ h → p.settled = true) := by
  refine hr.invariant
    ⟨by cases k <;> rfl,fun h => absurd h List.not_mem_nil⟩ ?_
  rintro h p e q ⟨hwaits,hsettled⟩ hstep
  refine ⟨(waiter_of_step hstep).trans hwaits,fun hmem => ?_⟩
  rcases List.mem_append.1 hmem with hmem | hmem
  · exact settled_of_step (hsettled hmem) hstep
  · cases List.mem_singleton.1 hmem
    cases hstep with
    | serves _ _ h => exact h.elim
    | acknowledges => rfl

section Settled
variable {D : Discipline supervisorSig SupervisorCall Unit SupervisorState}
  {Q Q' : Pool supervisorStages SupervisorState}

theorem one_wait (hone : ∀ V l, D V l → OneWait V l)
    (hr : Pool.Reachable supervisorStages supervisorWorld D .new Q) :
    ∀ (i j : Nat) (t u : Thread supervisorStages), Q.threads[i]? = some t →
      Q.threads[j]? = some u → t.call.waits = true → u.call.waits = true → i = j := by
  refine hr.invariant ?_ ?_
  · intro i j t u ht
    cases ht
  · intro Q l Q' _ ih hd hs i j t u ht hu hti huj
    have hnew : ∀ {k : SupervisorCall}, l = .spawn k → k.waits = true → ∀ {m : Nat}
        {v : Thread supervisorStages}, Q.threads[m]? = some v → v.call.waits = false := by
      rintro k rfl hk m v hv
      exact hone _ _ hd hk v.view (List.mem_map_of_mem (List.mem_of_getElem? hv))
    rcases hs.caller ht with ⟨hi,hl⟩ | ⟨t',ht',htc⟩ <;>
      rcases hs.caller hu with ⟨hj,hl'⟩ | ⟨u',hu',huc⟩
    · exact hi.symm.trans hj
    · cases (hnew hl hti hu').symm.trans (huc ▸ huj)
    · cases (hnew hl' huj ht').symm.trans (htc ▸ hti)
    · exact ih i j t' u' ht' hu' (htc ▸ hti) (huc ▸ huj)

theorem finished_of_settled (hone : ∀ V l, D V l → OneWait V l)
    (hr : Pool.Reachable supervisorStages supervisorWorld D .new Q) {i : Nat}
    {t : Thread supervisorStages} (ht : Q.threads[i]? = some t)
    (hsettled : SupervisorStage.settled t.state = true) :
    Q.shared.Finished ∧ Q.shared.published = true := by
  have hasserts := hr.asserts supervisor_interference lowered_new
  have hempty : Q.shared.published = true ∧ Q.shared.jobs = [] ∧
      SupervisorStage.pending t.state = [] ∧
        (SupervisorStage.waiter t.state).isSome = true := by
    have hassert := hasserts.thread i t ht
    revert hassert hsettled
    rcases t.state with _ | _ | _ | _ | _ | _ | _ | _ | _ | _ | _ | _ | _ | _ | ⟨_ | _,_ | _⟩ | _ |
      _ | _ | _ | ⟨_ | _⟩ | _ | _ <;>
      first | exact fun _ hassert => ⟨hassert.1,hassert.2,rfl,rfl⟩ | exact nofun
  obtain ⟨hpublished,hjobs,hpending,hwaits⟩ := hempty
  refine ⟨fun handle hstarted => ?_,hpublished⟩
  have haccounted : Accounted Q := hr.invariant (fun _ h => absurd h (Nat.not_lt_zero _))
    fun Q _ _ hr h _ hs => h.step (hr.asserts supervisor_interference lowered_new) hs
  rcases haccounted handle hstarted with hfinished | hlisted | ⟨j,u,hu,hmem⟩
  · exact hfinished
  · rw [hjobs] at hlisted
    exact absurd hlisted List.not_mem_nil
  · exfalso
    rcases SupervisorStage.pending_cases hmem with ⟨id,kept,hstage⟩ | hstage
    · -- whoever has just started a job came before the wait
      have hassert := hasserts.thread j u hu
      rw [hstage] at hassert
      cases hassert.2.1.symm.trans hpublished
    · rw [(stage_of_runs (hr.runs_at ht)).1] at hwaits
      rw [(stage_of_runs (hr.runs_at hu)).1] at hstage
      obtain rfl := one_wait hone hr i j t u ht hu hwaits hstage
      obtain rfl : t = u := Option.some.inj (ht.symm.trans hu)
      rw [hpending] at hmem
      exact absurd hmem List.not_mem_nil

theorem quiet_of_settled (hone : ∀ V l, D V l → OneWait V l)
    (hr : Pool.Reachable supervisorStages supervisorWorld D .new Q) {i : Nat}
    {t : Thread supervisorStages} (ht : Q.threads[i]? = some t)
    (hsettled : SupervisorStage.settled t.state = true) {l : Label supervisorSig SupervisorCall}
    (hs : Pool.Step supervisorWorld Q l Q') :
    (∀ j id handle, l ≠ .act j ⟨.spawnBlocking id,handle⟩) ∧
      ∀ j handle, l ≠ .act j ⟨.proceed handle,.input⟩ := by
  obtain ⟨hfinished,hpublished⟩ := finished_of_settled hone hr ht hsettled
  have hasserts := hr.asserts supervisor_interference lowered_new
  constructor
  · rintro j id handle rfl
    cases hs with
    | act _ u _ q shared hu _ hm =>
      have hassert := hasserts.thread j u hu
      generalize u.state = p at hm hassert
      cases hm with
      | started => cases hassert.2.1.symm.trans hpublished
      | serves _ _ h => exact h.elim
  · rintro j handle rfl
    cases hs with
    | act _ u _ q shared hu _ hm hw => exact hw.1.2 (hfinished handle hw.1.1)

end Settled

/-- `wait_for_terminal_jobs` has returned, or the daemon has acknowledged the shutdown. -/
def Terminated (t : Thread supervisorMachine) : Prop :=
  (t.call = .waitForTerminalJobs ∧ t.view.result = some ()) ∨
    (⟨.acknowledge,()⟩ : supervisorSig.Event) ∈ t.history

theorem settled_of_terminated {t : Thread supervisorMachine} {u : Thread supervisorStages}
    (h : Terminated t) (hview : u.view = t.view)
    (hruns : supervisorStages.Runs u.call u.history u.state) :
    SupervisorStage.settled u.state = true := by
  obtain ⟨hwaiter,hacknowledged⟩ := stage_of_runs hruns
  have hhistory : u.history = t.history := congrArg ThreadView.history hview
  have hcall : u.call = t.call := congrArg ThreadView.call hview
  rcases h with ⟨hwait,hresult⟩ | hmem
  · rw [hcall,hwait] at hwaiter
    have hstage : SupervisorStage.result u.state = some () :=
      (congrArg ThreadView.result hview).trans hresult
    revert hwaiter hstage
    rcases u.state with _ | _ | _ | _ | _ | _ | _ | _ | _ | _ | _ | _ | _ | _ | ⟨_ | _,_ | _⟩ <;>
      first | exact fun _ _ => rfl | exact nofun
  · exact hacknowledged (hhistory ▸ hmem)

/-- Once `wait_for_terminal_jobs` has returned, all jobs that were ever started have finished, and
whatever happens then, no job is started and no input is sent. -/
theorem no_job_escapes {P : Pool supervisorMachine SupervisorState}
    (hr : Pool.Reachable supervisorMachine supervisorWorld OneWait .new P) {i : Nat}
    {t : Thread supervisorMachine} (ht : P.threads[i]? = some t) (hdone : Terminated t) :
    P.shared.Finished ∧ ∀ (Q Q' : Pool supervisorMachine SupervisorState)
      (l : Label supervisorSig SupervisorCall), Pool.Leads supervisorWorld OneWait P Q →
      Pool.Step supervisorWorld Q l Q' →
      (∀ j id handle, l ≠ .act j ⟨.spawnBlocking id,handle⟩) ∧
        ∀ j handle, l ≠ .act j ⟨.proceed handle,.input⟩ := by
  obtain ⟨A,hA,hPA⟩ := hr.similar simulates
  obtain ⟨u,hu,hview,-⟩ := hPA.thread ht
  have hsettled := settled_of_terminated hdone hview (hA.runs_at hu)
  refine ⟨?_,fun Q Q' l hlead hs => ?_⟩
  · rw [hPA.shared]
    exact (finished_of_settled (fun _ _ h => h) hA hu hsettled).1
  · -- the wait stays returned
    obtain ⟨B,hB,hQB,v,hv,hstays⟩ := hlead.invariant
      (I := fun Q => ∃ B, Pool.Reachable supervisorStages supervisorWorld OneWait .new B ∧
        Pool.Similar _ Q B ∧ ∃ v, B.threads[i]? = some v ∧ SupervisorStage.settled v.state = true)
      ⟨A,hA,hPA,u,hu,hsettled⟩ (by
        rintro Q l Q' - ⟨B,hB,hQB,v,hv,hstays⟩ hd hs
        obtain ⟨B',hs',hQB'⟩ := hQB.step simulates hs
        obtain ⟨w,hw,-,hwstays,-⟩ := hs'.thread
          (J := fun p => SupervisorStage.settled p = true) (fun _ _ _ => settled_of_step) hv hstays
        exact ⟨B',.step hB (hQB.view ▸ hd) hs',hQB',w,hw,hwstays⟩)
    obtain ⟨B',hs',-⟩ := hQB.step simulates hs
    exact quiet_of_settled (fun _ _ h => h) hB hv hstays hs'

/-- Jobs finish at their first step, and the daemon is told that nothing is left to do. -/
def supervisorHost : Host supervisorWorld where
  ready s
    | .lock _ => !s.locked
    | .join handle => decide (handle ∈ s.finished)
    | .proceed handle => decide (handle < s.started ∧ handle ∉ s.finished)
    | _ => true
  answer s
    | .lock stored => ((),{ s with locked := true, published := s.published || stored })
    | .unlock => ((),{ s with locked := false })
    | .loadAccepting => (s.accepting,s)
    | .storeAccepting value => ((),{ s with accepting := value })
    | .storeCancellation value => ((),{ s with cancellation := value })
    | .jobs => (s.jobs,s)
    | .setJobs jobs => ((),{ s with jobs := jobs })
    | .isFinished handle | .timeout handle => (decide (handle ∈ s.finished),s)
    | .spawnBlocking _ => (s.started,{ s with started := s.started + 1 })
    | .proceed handle => (.finished,{ s with finished := handle :: s.finished })
    | .select => (.schedulerEnded true,s)
    | .tryRecv => (false,s)
    | .idle => (true,s)
    | .schedulerFromRegistry => (.ok (),s)
    | .releaseLock => ((),{ s with released := true })
    | .transition _ _ | .join _ | .sendShutdown | .abortObservation | .joinObservation
    | .acknowledge | .stopTasks => ((),s)
  answers s op hready := by
    cases op with
    | lock => exact ⟨by simpa using hready,rfl⟩
    | loadAccepting => exact ⟨rfl,.inl rfl⟩
    | jobs | spawnBlocking => exact ⟨rfl,rfl⟩
    | isFinished | timeout => exact ⟨rfl,of_decide_eq_true⟩
    | join => exact ⟨rfl,of_decide_eq_true hready⟩
    | proceed => exact ⟨of_decide_eq_true hready,rfl⟩
    | _ => rfl

def supervisorActs (i steps : Nat) : List (Move supervisorWorld SupervisorCall) :=
  List.replicate steps (.act i supervisorHost)

instance (op : SupervisorOp) : DecidableEq (supervisorSig.Answer op) := by
  cases op <;> exact inferInstance

instance (V : PoolView supervisorSig SupervisorCall Unit SupervisorState)
    (l : Label supervisorSig SupervisorCall) : Decidable (OneWait V l) :=
  match l with
  | .spawn _ => inferInstanceAs (Decidable (_ → _))
  | .act _ _ | .crash => .isTrue trivial

def Sample.jobFinished : List (Move supervisorWorld SupervisorCall) :=
  .spawn (.schedule "codex") :: supervisorActs 0 7 ++ .spawn (.job 0) :: supervisorActs 1 1

def Sample.waited : Pool supervisorMachine SupervisorState :=
  (⟨.new,[]⟩ : Pool supervisorMachine SupervisorState).play (jobFinished ++
    .spawn .waitForTerminalJobs :: supervisorActs 2 7)

theorem no_job_escapes_one : ∃ (P : Pool supervisorMachine SupervisorState)
    (t : Thread supervisorMachine),
      Pool.Reachable supervisorMachine supervisorWorld OneWait .new P ∧
      P.threads[2]? = some t ∧ Terminated t ∧ P.shared.started = 1 ∧ P.shared.Finished := by
  have hr : Pool.Reachable supervisorMachine supervisorWorld OneWait .new Sample.waited :=
    Pool.Reachable.init.play_decided _ (by decide)
  obtain ⟨t,ht,htest⟩ := (Option.any_eq_true _ _).1 (by decide +kernel :
    (Sample.waited.threads[2]?.any fun t =>
      t.call = .waitForTerminalJobs ∧ t.view.result = some ()) = true)
  have hdone : Terminated t := .inl (of_decide_eq_true htest)
  exact ⟨_,t,hr,ht,hdone,by decide,(no_job_escapes hr ht hdone).1⟩

end WatchMe
