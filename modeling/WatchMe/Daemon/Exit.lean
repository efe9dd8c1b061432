import WatchMe.Daemon.Shutdown

/-! # What runs on when the daemon has dropped its lock

`run_with_components_and_clock` waits for the recovery jobs only after a shutdown request. It also
returns when the scheduler has ended and no watcher is active, when it cannot accept connections, and
with `?` when the scheduler cannot be joined or built again. There the lock is dropped whatever the
jobs do, and after `?` the observation runs on as well.
-/
namespace WatchMe
open Effects RecoverySupervisor

def SupervisorCall.schedules : SupervisorCall → Bool
  | schedule _ => true
  | _ => false

/-- The observation is the task that schedules jobs. Once it was joined it schedules no more, and no
call is under way. -/
def Tasks : Discipline supervisorSig SupervisorCall Unit SupervisorState := fun V l =>
  OneWait V l ∧ match l with
    | .spawn (.schedule _) => ∀ v ∈ V.threads, (⟨.joinObservation,()⟩ : supervisorSig.Event) ∉ v.history
    | .act _ ⟨.joinObservation,_⟩ => ∀ v ∈ V.threads, v.call.schedules = true → v.result ≠ none
    | _ => True

/-- A daemon that has not acknowledged a shutdown drops its lock only if all jobs have finished, and
no job is started later by an observation that was left running. -/
def Drained : Discipline supervisorSig SupervisorCall Unit SupervisorState := fun V l =>
  match l with
  | .act i ⟨.releaseLock,_⟩ => ∀ v, V.threads[i]? = some v →
      (⟨.acknowledge,()⟩ : supervisorSig.Event) ∈ v.history ∨ V.shared.Finished
  | .act _ ⟨.spawnBlocking _,_⟩ => V.shared.released = true →
      ∃ v ∈ V.threads, (⟨.joinObservation,()⟩ : supervisorSig.Event) ∈ v.history
  | _ => True

namespace SupervisorStage

def schedules : SupervisorStage → Bool
  | outside _ | inside _ | refused | reading _ | pruning _ _ _ | starting _ _ | pushing _ _ _
  | leaving => true
  | _ => false

end SupervisorStage

section Exit
variable {p q : SupervisorStage} {e : supervisorSig.Event} {s s' : SupervisorState}
variable {Q : Pool supervisorStages SupervisorState} {i : Nat} {t : Thread supervisorStages}

theorem result_of_step (h : SupervisorStep p e q) : p.result = none := by
  cases h with
  | joined daemon | expired daemon => cases daemon <;> rfl
  | _ => rfl

theorem schedules_of_runs {k : SupervisorCall} {h : List supervisorSig.Event}
    (hr : supervisorStages.Runs k h p) : p.schedules = true → k.schedules = true := by
  refine hr.invariant
    (by cases k <;> exact fun h => h) ?_
  intro h p e q ih hstep hq
  refine ih ?_
  cases hstep with
  | cancelled next => cases next <;> cases hq
  | _ => first | rfl | cases hq

theorem effect_of_answer (hw : supervisorWorld.Answers s e s') :
    (s'.started = s.started ∨ ∃ id handle, e = ⟨.spawnBlocking id,handle⟩) ∧
      (s'.released = s.released ∨ e = ⟨.releaseLock,()⟩) := by
  obtain ⟨op,r⟩ := e
  cases op with
  | lock =>
    obtain ⟨-,rfl⟩ := hw
    exact ⟨.inl rfl,.inl rfl⟩
  | loadAccepting | jobs | isFinished | timeout | join =>
    obtain ⟨rfl,-⟩ := hw
    exact ⟨.inl rfl,.inl rfl⟩
  | spawnBlocking id =>
    obtain ⟨-,rfl⟩ := hw
    exact ⟨.inr ⟨id,r,rfl⟩,.inl rfl⟩
  | proceed =>
    cases r with
    | finished | inspect | input =>
      obtain ⟨-,rfl⟩ := hw
      exact ⟨.inl rfl,.inl rfl⟩
  | releaseLock =>
    cases hw
    exact ⟨.inl rfl,.inr rfl⟩
  | _ =>
    cases hw
    exact ⟨.inl rfl,.inl rfl⟩

theorem schedules_of_start {id : String} {handle : Nat}
    (h : SupervisorStep p ⟨.spawnBlocking id,handle⟩ q) : p.schedules = true := by
  cases h with
  | started => rfl
  | serves _ _ h => exact h.elim

def Unscheduled (Q : Pool supervisorStages SupervisorState) : Prop :=
  ∀ u ∈ Q.threads, u.call.schedules = true → SupervisorStage.result u.state ≠ none

theorem Unscheduled.acting (h : Unscheduled Q) (ht : Q.threads[i]? = some t)
    (hm : SupervisorStep t.state e q) : t.call.schedules = false := by
  cases hcall : t.call.schedules with
  | false => rfl
  | true => exact absurd (result_of_step hm) (h t (List.mem_of_getElem? ht) hcall)

theorem Unscheduled.act (h : Unscheduled Q) (ht : Q.threads[i]? = some t)
    (hm : SupervisorStep t.state e q) : Unscheduled ⟨s',Q.threads.set i (t.advance e q)⟩ := by
  intro u hu hcall
  rcases List.mem_or_eq_of_mem_set hu with hu | rfl
  · exact h u hu hcall
  · cases (h.acting ht hm).symm.trans hcall

/-- What holds once the observation was joined, and once the lock was dropped. -/
structure Left (Q : Pool supervisorStages SupervisorState) : Prop where
  joined : ∀ t ∈ Q.threads, (⟨.joinObservation,()⟩ : supervisorSig.Event) ∈ t.history → Unscheduled Q
  finished : Q.shared.released = true → Q.shared.Finished

theorem Left.spawn (h : Left Q) {k : SupervisorCall} (hd : Tasks Q.view (.spawn k)) :
    Left ⟨Q.shared,Q.threads ++ [Thread.spawned supervisorStages k]⟩ := by
  refine ⟨fun t ht hmem u hu hcall => ?_,h.finished⟩
  rcases List.mem_append.1 ht with hold | hnew
  · rcases List.mem_append.1 hu with hu | hu
    · exact h.joined t hold hmem u hu hcall
    · obtain rfl := List.mem_singleton.1 hu
      cases k with
      | schedule => exact absurd hmem (hd.2 t.view (List.mem_map_of_mem hold))
      | _ => cases hcall
  · rw [List.mem_singleton.1 hnew] at hmem
    exact absurd hmem List.not_mem_nil

theorem Left.act (hr : Pool.Reachable supervisorStages supervisorWorld (fun V l => Tasks V l ∧
      Drained V l) .new Q) (h : Left Q) (ht : Q.threads[i]? = some t)
    (hm : SupervisorStep t.state e q) (hw : supervisorWorld.Answers Q.shared e s')
    (hd : Tasks Q.view (.act i e) ∧ Drained Q.view (.act i e)) :
    Left ⟨s',Q.threads.set i (t.advance e q)⟩ := by
  have hview : Q.view.threads[i]? = some t.view := by
    simp only [Pool.view,List.getElem?_map,ht,Option.map_some]
  obtain ⟨hstarted,hreleased⟩ := effect_of_answer hw
  refine ⟨fun u hu hmem => ?_,fun hrelease => ?_⟩
  · rcases List.mem_or_eq_of_mem_set hu with hu | rfl
    · exact (h.joined u hu hmem).act ht hm
    · rcases List.mem_append.1 hmem with hmem | hmem
      · exact (h.joined t (List.mem_of_getElem? ht) hmem).act ht hm
      · obtain rfl := List.mem_singleton.1 hmem
        have hunscheduled : Unscheduled Q := fun u hu hcall =>
          hd.1.2 u.view (List.mem_map_of_mem hu) hcall
        exact hunscheduled.act ht hm
  · have hbefore : Q.shared.Finished := by
      rcases hreleased with hsame | rfl
      · exact h.finished (hsame ▸ hrelease)
      · rcases hd.2 t.view hview with hacknowledged | hfinished
        · have hsettled := (stage_of_runs (hr.runs_at ht)).2 hacknowledged
          exact (finished_of_settled (fun _ _ hd => hd.1.1) hr ht hsettled).1
        · exact hfinished
    have hkept := (guarantee_of_step ((hr.asserts supervisor_interference lowered_new).thread i t ht)
      hm hw).finished
    intro handle hlt
    rcases hstarted with hsame | ⟨id,new,rfl⟩
    · exact hkept handle (hbefore handle (hsame ▸ hlt))
    · -- nobody starts a job once the lock was dropped
      exfalso
      have hscheduling := schedules_of_runs (hr.runs_at ht) (schedules_of_start hm)
      rcases hreleased with hsame | heq
      · obtain ⟨v,hv,hmem⟩ := hd.2 (hsame ▸ hrelease)
        obtain ⟨u,hu,rfl⟩ := List.mem_map.1 hv
        cases ((h.joined u hu hmem).acting ht hm).symm.trans hscheduling
      · cases heq

end Exit

instance (s : SupervisorState) : Decidable s.Finished :=
  inferInstanceAs (Decidable (∀ handle, handle < s.started → handle ∈ s.finished))

section Decidable
variable (V : PoolView supervisorSig SupervisorCall Unit SupervisorState)
  (l : Label supervisorSig SupervisorCall)

instance : Decidable (Tasks V l) := by
  unfold Tasks
  refine @instDecidableAnd _ _ _ ?_
  split <;> infer_instance

instance : Decidable (Drained V l) := by
  unfold Drained
  split
  · exact inferInstanceAs (Decidable (∀ v ∈ V.threads[_]?, _))
  · infer_instance
  · infer_instance

end Decidable

namespace Sample

def leaving (i : Nat) : List (Move supervisorWorld SupervisorCall) :=
  .spawn .daemon :: supervisorActs i 7

end Sample

end WatchMe
