import WatchMe.Recovery.RunTraces

/-! # The input gate

Three evidence reads, the actuator's validation and the compiled policy, composed over
the whole history of a run that reaches the executor.
-/
namespace WatchMe
open Effects Transaction

/-- What one accepted evidence read shows, with the baseline it was compared to. -/
structure Fresh (action : Action) (live : LiveEvidence) : Prop where
  revalidated : live.targetRevalidated = true
  alive : live.processAlive = true
  pane : live.paneMatches = true
  current : live.evidenceCurrent = true
  human : live.humanIntervened = false
  composer : requiresComposer action.kind = true → live.composerSafe = true
  fingerprint : live.event.evidenceFingerprint = actionFingerprint action

/-- The parts of two reads that a transaction requires to agree. -/
structure SameSource (old live : LiveEvidence) : Prop where
  identity : old.identity = live.identity
  source : old.event.source = live.event.source
  confidence : old.event.confidence = live.event.confidence

private theorem ite_some_eq_none {c : Prop} [Decidable c] {x : String} {y : Option String} :
    (if c then some x else y) = none ↔ ¬ c ∧ y = none := by
  by_cases hc : c <;> simp [hc]

theorem revalidationRefusal_none {action : Action} {baseline : Option LiveEvidence}
    {live : LiveEvidence} (h : revalidationRefusal action baseline live = none) :
    Fresh action live ∧ ∀ old, baseline = some old → SameSource old live := by
  simp only [revalidationRefusal,ite_some_eq_none,Bool.not_eq_eq_eq_not,Bool.not_true,
    Bool.not_eq_false,Bool.not_eq_true,Bool.and_eq_false_imp,Bool.not_false,
    bne_eq_false_iff_eq] at h
  obtain ⟨hrev,halive,hpane,hcur,hhuman,hcomp,hfp,-,hsame,-⟩ := h
  refine ⟨⟨hrev,halive,hpane,hcur,hhuman,hcomp,hfp⟩,?_⟩
  rintro old rfl
  simp only [Option.any_some,Bool.or_eq_false_iff,bne_eq_false_iff_eq] at hsame
  exact ⟨hsame.1.1,hsame.1.2,hsame.2⟩

theorem Fresh.declared {action : Action} {live : LiveEvidence} (h : Fresh action live) :
    ∃ c, action.preconditions.find? (fun c => c.kind == "EVIDENCE_FINGERPRINT_MATCHES") = some c ∧
      c.value = some (.string live.event.evidenceFingerprint) := by
  have hne := validHash_ne_empty live.fingerprint_valid
  have hfp := h.fingerprint
  unfold actionFingerprint at hfp
  cases hfind : action.preconditions.find? (fun c => c.kind == "EVIDENCE_FINGERPRINT_MATCHES") with
  | none => rw [hfind] at hfp; exact absurd hfp hne
  | some c =>
    rw [hfind] at hfp
    refine ⟨c,rfl,?_⟩
    match hval : c.value with
    | some (.string text) => simp_all [Condition.text,Json.asStr]
    | none | some .null | some (.bool _) | some (.number _) | some (.array _)
    | some (.object _) => simp_all [Condition.text,Json.asStr]

theorem SameSource.trans {x y z : LiveEvidence} (h : SameSource x y) (h' : SameSource y z) :
    SameSource x z :=
  ⟨h.identity.trans h'.identity,h.source.trans h'.source,h.confidence.trans h'.confidence⟩

section
variable [Chrono] [Render]

/-- Whatever an action contains and whatever the evidence reads answer: a run calls the
executor only with its own action, an allowlisted text or keys the actuator can name,
after two accepted reads before its claim and one after it that agree in identity, source
and confidence and show the declared fingerprint, and within the recovery budget. -/
theorem input_gate {job : Job} {action : Action} {h : List TxEvent} {p : txMachine.State}
    (hrun : txMachine.Runs (.run job) (h ++ [⟨.execute action,()⟩]) p) :
    action = job.action ∧
    (∀ text, action.kind = .sendText text ∨ action.kind = .submitText text →
      text ∈ ["/goal resume","continue","retry","Continue exactly where you left off."]) ∧
    (∀ keys, action.kind = .sendKeys keys →
      ∀ key ∈ keys, key ∈ ["ENTER","ESCAPE","UP","DOWN","LEFT","RIGHT","TAB"]) ∧
    (∃ (first second third : LiveEvidence) (wall reason : String) (now : Nat)
        (record : ActionRecord),
      h = [⟨.read,.ok first⟩,⟨.wallTime,wall⟩,⟨.read,.ok second⟩,⟨.monotonicMs,now⟩,
        ⟨.claimPrepared job.target record,.ok true⟩,⟨.read,.ok third⟩,
        ⟨.append job.target (record.next .begun reason),.ok ()⟩] ∧
      ∀ live ∈ [first,second,third], live.targetRevalidated = true ∧
        live.processAlive = true ∧ live.paneMatches = true ∧ live.evidenceCurrent = true ∧
        live.humanIntervened = false ∧
        (requiresComposer action.kind = true → live.composerSafe = true) ∧
        live.identity = first.identity ∧ live.event.source = first.event.source ∧
        live.event.confidence = first.event.confidence ∧
        ∃ c, action.preconditions.find? (fun c => c.kind == "EVIDENCE_FINGERPRINT_MATCHES")
            = some c ∧ c.value = some (.string live.event.evidenceFingerprint)) ∧
    0 < job.recovery.attemptsRemaining ∧ job.recovery.cooldownReady = true := by
  obtain ⟨R,hsim⟩ := txMachine_simulates
  obtain ⟨s,hrun,-⟩ := hsim.runs hrun
  obtain ⟨s₀,hrun₀,hstep⟩ := hrun.snoc_inv
  cases hstep with | call =>
  obtain ⟨d,reason,hd,rfl,rfl⟩ := Stage.runs_begun hrun₀
  have hauth := authorize_ok hd.authorized
  obtain ⟨hfirst,-⟩ := revalidationRefusal_none hd.baseline
  obtain ⟨hsecond,hsame₂⟩ := revalidationRefusal_none hd.again
  obtain ⟨hthird,hsame₃⟩ := revalidationRefusal_none hd.recheck
  have h₁₂ := hsame₂ _ rfl
  have h₁₃ := h₁₂.trans (hsame₃ _ rfl)
  have hread : ∀ live, Fresh job.action live → SameSource d.baseline live →
      live.targetRevalidated = true ∧ live.processAlive = true ∧ live.paneMatches = true ∧
      live.evidenceCurrent = true ∧ live.humanIntervened = false ∧
      (requiresComposer job.action.kind = true → live.composerSafe = true) ∧
      live.identity = d.baseline.identity ∧ live.event.source = d.baseline.event.source ∧
      live.event.confidence = d.baseline.event.confidence ∧
      ∃ c, job.action.preconditions.find? (fun c => c.kind == "EVIDENCE_FINGERPRINT_MATCHES")
          = some c ∧ c.value = some (.string live.event.evidenceFingerprint) :=
    fun live hf hsame => ⟨hf.revalidated,hf.alive,hf.pane,hf.current,hf.human,hf.composer,
      hsame.identity.symm,hsame.source.symm,hsame.confidence.symm,hf.declared⟩
  refine ⟨rfl,fun text hkind => kindAllowed_text hauth.allowed hkind,
    fun keys hkind => validateAction_sendKeys hd.valid hkind,?_,hauth.attempts,hauth.cooldown⟩
  refine ⟨d.baseline,d.again,d.recheck,d.wall,reason,d.now,d.record job,rfl,?_⟩
  intro live hlive
  simp only [List.mem_cons,List.not_mem_nil,or_false] at hlive
  rcases hlive with rfl | rfl | rfl
  · exact hread _ hfirst ⟨rfl,rfl,rfl⟩
  · exact hread _ hsecond h₁₂
  · exact hread _ hthird h₁₃

end

theorem input_gate_resume :
    let _ := Sample.chrono
    let _ := Sample.render
    ∃ (h : List TxEvent) (p : txMachine.State),
      txMachine.Runs (.run Sample.resume) (h ++ [⟨.execute Sample.resume.action,()⟩]) p ∧
      (∀ text, Sample.resume.action.kind = .submitText text →
        text ∈ ["/goal resume","continue","retry","Continue exactly where you left off."]) ∧
      0 < Sample.resume.recovery.attemptsRemaining := by
  intro _ _
  obtain ⟨p,hrun⟩ := runs_execute Sample.resume_passed
  have hgate := input_gate hrun
  exact ⟨_,p,hrun,fun text hkind => hgate.2.1 text (.inr hkind),hgate.2.2.2.2.1⟩

end WatchMe
