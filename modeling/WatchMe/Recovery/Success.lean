import WatchMe.Recovery.System
import WatchMe.Recovery.Schedules
import WatchMe.Recovery.Verification

/-! # What a returned success means

A run of an input action returns `Ok` in one way only: a verification read made after the
executor returned has proved the expected outcomes, and the `Succeeded` record is the last
one of its target, in memory and on disk.
-/
namespace WatchMe
open Effects Transaction
variable {s : Stage}

structure Progressed (outcomes : List Condition) (baseline after : LiveEvidence) : Prop where
  fingerprint : after.event.evidenceFingerprint ≠ baseline.event.evidenceFingerprint
  shown : (∀ outcome ∈ outcomes, outcome.kind ≠ "CLAUDE_PROGRESS") →
    baseline.event.source.kind.rank ≤ after.event.source.kind.rank ∧
    baseline.event.confidence ≤ after.event.confidence ∧
    ∃ outcome ∈ outcomes, outcomeShown baseline after outcome = true
  resumed : (∃ outcome ∈ outcomes, outcome.kind = "CLAUDE_PROGRESS") →
    after.event.category = .working ∧ after.event.source.sourceId = "claude" ∧
    after.event.metadata["claude_post_resume_progress"]? = some (.bool true) ∧
    ∃ outcome ∈ outcomes, ∃ session, outcome.kind = "CLAUDE_PROGRESS" ∧
      outcome.text = some session ∧
      baseline.event.metadataStr "claude_resume_session" = some session ∧
      after.event.metadataStr "claude_resume_session" = some session

theorem expectsClaudeProgress_iff {outcomes : List Condition} :
    expectsClaudeProgress outcomes = true ↔
      ∃ outcome ∈ outcomes, outcome.kind = "CLAUDE_PROGRESS" := by
  simp [expectsClaudeProgress]

theorem Json.any_isTrue {x : Option Json} (h : x.any Json.isTrue = true) :
    x = some (.bool true) := by
  cases x with
  | none => cases h
  | some x =>
    cases x with
    | bool b => exact congrArg (fun b => some (Json.bool b)) h
    | _ => cases h

theorem verified_progressed {before after : LiveEvidence} {outcomes : List Condition}
    (h : verified before after outcomes = true) : Progressed outcomes before after := by
  unfold verified at h
  split at h
  · cases h
  · rename_i hfp
    have hne : after.event.evidenceFingerprint ≠ before.event.evidenceFingerprint :=
      fun heq => hfp (beq_iff_eq.2 heq)
    split at h
    · rename_i hclaude
      refine ⟨hne,fun hno => ?_,fun _ => ?_⟩
      · obtain ⟨outcome,hmem,hkind⟩ := expectsClaudeProgress_iff.1 hclaude
        exact absurd hkind (hno outcome hmem)
      · obtain ⟨outcome,hmem,hshown⟩ := List.any_eq_true.1 h
        simp only [Bool.and_eq_true,beq_iff_eq] at hshown
        obtain ⟨hkind,hshown⟩ := hshown
        unfold verifiedClaudeProgress at hshown
        split at hshown
        · cases hshown
        · rename_i session htext
          simp only [Bool.and_eq_true,beq_iff_eq] at hshown
          obtain ⟨⟨⟨⟨⟨hsource,hworking⟩,hprogress⟩,hbefore⟩,hafter⟩,-⟩ := hshown
          exact ⟨hworking,hsource,Json.any_isTrue hprogress,outcome,hmem,session,hkind,htext,
            hbefore,hafter⟩
    · rename_i hclaude
      split at h
      · cases h
      · rename_i hrank
        simp only [Bool.or_eq_true,decide_eq_true_eq,not_or,Nat.not_lt,Rat.not_lt] at hrank
        refine ⟨hne,fun _ => ⟨hrank.1,hrank.2,List.any_eq_true.1 h⟩,fun hex => ?_⟩
        exact absurd (expectsClaudeProgress_iff.2 hex) hclaude

theorem Stage.ended_of_result {r : TxResult} (h : s.result = some r) : s = .ended r := by
  cases s with
  | ended => exact congrArg Stage.ended (Option.some.inj h)
  | _ => cases h

section Run
variable [Chrono] [Render]

theorem RunCourse.returns_ok {job : Job} {h : List TxEvent} {e : TxEvent} {record : ActionRecord}
    (hc : RunCourse job h s) (hs : s.Step e (.ended (.ok (some record)))) :
    e = ⟨.append job.target record,.ok ()⟩ ∧ record.phase = .succeeded := by
  cases hs with
  | close =>
    obtain ⟨output,hh⟩ := hc
    exact ⟨by rw [hh.job_eq],rfl⟩
  | succeed =>
    obtain ⟨⟨output,hh⟩,-⟩ := hc
    exact ⟨by rw [hh.job_eq],rfl⟩
  | reap => exact hc.elim

omit [Chrono] [Render] in
theorem append_durable {s s' : JsonActionStore} {target : String} {record : ActionRecord}
    (hw : storeAnswers s ⟨.append target record,.ok ()⟩ s') :
    s'.disk = some s'.state ∧ (s'.state.auditOf target).getLast? = some record := by
  obtain ⟨host,hw⟩ := hw
  have ho := JsonActionStore.append_outcome hw
  cases ho with
  | @stored L hL =>
    have haudit : L.auditOf target = _ ++ [record] := hL.extends.audit_self
    exact ⟨rfl,by rw [haudit]; exact List.getLast?_concat⟩

/-- The step with which a run of an input action returns `Ok(record)`: the record is
`Succeeded`, it is durably the last of the target, and a verification read made after the
executor returned has shown progress over the first read. -/
theorem verified_success {D : Discipline txSig TxCall TxResult JsonActionStore}
    {P P' : Pool txMachine JsonActionStore} {i : Nat} {e : TxEvent} {t : Thread txMachine}
    {job : Job} {record : ActionRecord}
    (hr : Pool.Reachable txMachine recoveryWorld D JsonActionStore.fresh P)
    (hs : Pool.Step recoveryWorld P (.act i e) P') (ht : P'.threads[i]? = some t)
    (hcall : t.call = .run job) (hkind : requiresComposer job.action.kind = true)
    (hresult : txMachine.result t.state = some (.ok (some record))) :
    record.phase = .succeeded ∧
    P'.shared.disk = some P'.shared.state ∧
    (P'.shared.state.auditOf job.target).getLast? = some record ∧
    ∃ pre post baseline after, t.history = pre ++ ⟨.readVerification baseline,.ok after⟩ :: post ∧
      Opened pre baseline ∧ (∃ output, returns pre = [.ok output]) ∧
      after.identity = baseline.identity ∧ after.humanIntervened = false ∧
      Progressed job.action.expectedOutcomes baseline after := by
  obtain ⟨R,hsim⟩ := txMachine_simulates
  obtain ⟨Q,hQ,hPQ⟩ := hr.similar hsim
  obtain ⟨Q',hs',hPQ'⟩ := hPQ.step hsim hs
  obtain ⟨u,hu,hview,huc,huh⟩ := hPQ'.thread ht
  have hur : stageMachine.result u.state = _ := congrArg ThreadView.result hview
  rw [hPQ'.shared,← huh]
  cases hs' with
  | act _ v _ σ' shared hv hva hstep hw =>
    rcases Pool.getElem?_act hv hu with ⟨-,rfl⟩ | ⟨hne,-⟩
    · have hvc : v.call = .run job := huc.trans hcall
      have hruns := hQ.runs_at hv
      have hended : σ' = .ended (.ok (some record)) := Stage.ended_of_result (hur.trans hresult)
      have hcourse := runs_course hruns
      rw [hvc] at hruns hcourse
      subst hended
      obtain ⟨rfl,hphase⟩ := RunCourse.returns_ok hcourse hstep
      obtain ⟨hdisk,hlast⟩ := append_durable hw
      -- an input action comes to `Succeeded` only by a verifying read
      obtain ⟨c,hclosing⟩ | ⟨p,after,hproven⟩ := success_cases hphase (hruns.snoc hstep)
      · have hneeds := (runs_closing hclosing).2
        rw [needsProgressVerification,hkind] at hneeds
        cases hneeds
      obtain ⟨pre,hpre,hopen,-,hret,hhuman,hid,hver⟩ := proven_read (runs_course hproven)
      refine ⟨hphase,hdisk,hlast,pre,[⟨.append job.target record,.ok ()⟩],_,after,?_,hopen,hret,
        hid,hhuman,verified_progressed hver⟩
      simp [Thread.advance,hpre]
    · exact absurd rfl hne

end Run

namespace Sample

def verified : Pool system JsonActionStore := (started resume).play (outside.acts 0 13)

def succeeded : Pool system JsonActionStore := verified.next (.act 0 outside.host)

end Sample

attribute [local instance] Sample.chrono Sample.render

theorem verified_success_resume :
    let _ := Sample.chrono
    let _ := Sample.render
    ∃ (P P' : Pool txMachine JsonActionStore) (e : TxEvent) (t : Thread txMachine)
      (record : ActionRecord),
      Pool.Reachable txMachine recoveryWorld (fun _ _ => True) JsonActionStore.fresh P ∧
      Pool.Step recoveryWorld P (.act 0 e) P' ∧ P'.threads[0]? = some t ∧
      t.call = .run Sample.resume ∧ txMachine.result t.state = some (.ok (some record)) ∧
      (P'.shared.state.auditOf "pane-1").getLast? = some record ∧
      ∃ pre post baseline after,
        t.history = pre ++ ⟨.readVerification baseline,.ok after⟩ :: post ∧
        Progressed Sample.resume.action.expectedOutcomes baseline after := by
  have hreach : Pool.Reachable Sample.system recoveryWorld (fun _ _ => True) .fresh
      Sample.verified :=
    (Sample.started_reached trivial).play _ fun _ _ _ => trivial
  obtain ⟨e,hstep⟩ : ∃ e, Pool.Step recoveryWorld Sample.verified (.act 0 e) Sample.succeeded :=
    Pool.exists_step Sample.outside.host (by decide +kernel)
  obtain ⟨t,ht,htest⟩ := Pool.exists_thread (l := Sample.succeeded.threads)
    (fun t => decide (t.call = .run Sample.resume) && (Sample.system.result t.state).any
      fun result => result.toOption.join.isSome) (by decide +kernel)
  rw [Bool.and_eq_true,decide_eq_true_iff,Option.any_eq_true] at htest
  obtain ⟨hcall,_ | _ | record,hresult,hrecord⟩ := htest
  · cases hrecord
  · cases hrecord
  replace ht : Sample.succeeded.threads[0]? = some t := by
    rw [ht]
    rfl
  obtain ⟨-,-,hlast,pre,post,baseline,after,hh,-,-,-,-,hprog⟩ :=
    verified_success hreach hstep ht hcall rfl hresult
  exact ⟨_,_,_,_,_,hreach,hstep,ht,hcall,hresult,hlast,pre,post,baseline,after,hh,hprog⟩

end WatchMe
