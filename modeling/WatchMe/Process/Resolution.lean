import Mathlib.Data.List.Perm.Basic
import WatchMe.Process.Inspector

/-! # The process that is resolved

A resolution chooses the only candidate of the highest score, whatever the order in which the
candidates are found.
-/
namespace WatchMe

def Agree {α : Type} (actual expected : Option α) : Prop :=
  ∀ a ∈ actual, ∀ e ∈ expected, a = e

structure CandidateHints.Agrees (hints : CandidateHints) (identity : ProcessIdentity) : Prop where
  tty : Agree identity.tty hints.tty
  processGroupId : Agree identity.processGroupId hints.processGroupId
  sessionLeaderId : Agree identity.sessionLeaderId hints.sessionLeaderId
  uid : Agree identity.uid hints.uid
  executable : Agree (identity.executable.map basename) (hints.executableHint.map String.toList)

theorem correlate_agree {α : Type} [DecidableEq α] {label : String} {actual expected : Option α}
    {points : Int} {s s' : Score} (h : correlate label actual expected points s = some s') :
    Agree actual expected := by
  rintro a rfl e rfl
  by_contra hne
  simp [correlate,hne] at h

theorem hintScore_agree {process : ProcessRecord} {hints : CandidateHints} {s s' : Score}
    (h : hintScore process hints s = some s') :
    Agree (process.executable.map basename) (hints.executableHint.map String.toList) := by
  rintro a ha e he
  obtain ⟨executable,hexecutable,rfl⟩ := Option.map_eq_some_iff.1 ha
  obtain ⟨hint,hhint,rfl⟩ := Option.map_eq_some_iff.1 he
  by_contra hne
  simp [hintScore,hexecutable,hhint,hne] at h

theorem score_agrees {process : ProcessRecord} {hints : CandidateHints} {distance : Option Nat}
    {scored : Int × List String} (h : score process hints distance = some scored) :
    hints.Agrees process.identity := by
  simp only [score,bind,Option.bind_eq_some_iff] at h
  obtain ⟨_,htty,_,hgroup,_,hsession,_,huid,_,hhint,-⟩ := h
  exact ⟨correlate_agree htty,correlate_agree hgroup,correlate_agree hsession,correlate_agree huid,
    hintScore_agree hhint⟩

namespace ProcessResolver
variable {names : List String} {inspector : ProcessInspector} {hints : CandidateHints}
  {chain : List ProcessRecord} {found : List ResolvedProcess} {best : ResolvedProcess}

theorem candidateOf_agrees {distance : Option Nat} {process : ProcessRecord}
    (h : candidateOf names hints distance process = some best) : hints.Agrees best.identity := by
  obtain ⟨agent,-,h⟩ := Option.bind_eq_some_iff.1 h
  obtain ⟨scored,hscored,rfl⟩ := Option.map_eq_some_iff.1 h
  exact score_agrees hscored

theorem candidates_agree (h : candidates names inspector hints chain = .ok found) :
    ∀ candidate ∈ found, hints.Agrees candidate.identity := by
  intro candidate hmem
  unfold candidates at h
  split at h
  · cases hlisted : inspector.processesOnTty _ with
    | error =>
      rw [hlisted] at h
      cases h
    | ok =>
      rw [hlisted] at h
      cases h
      obtain ⟨process,-,hc⟩ := List.mem_filterMap.1 hmem
      exact candidateOf_agrees hc
  · cases h
    obtain ⟨⟨process,distance⟩,-,hc⟩ := List.mem_filterMap.1 hmem
    exact candidateOf_agrees hc

theorem candidates_perm {other : ProcessInspector}
    (hlisted : ∀ tty listed, inspector.processesOnTty tty = .ok listed →
      ∃ listed', other.processesOnTty tty = .ok listed' ∧ listed.Perm listed')
    (h : candidates names inspector hints chain = .ok found) :
    ∃ found', candidates names other hints chain = .ok found' ∧ found.Perm found' := by
  unfold candidates at h ⊢
  split at h
  · rename_i tty _ _
    cases hl : inspector.processesOnTty tty with
    | error =>
      rw [hl] at h
      cases h
    | ok listed =>
      rw [hl] at h
      cases h
      obtain ⟨listed',hl',hperm⟩ := hlisted tty listed hl
      rw [hl']
      exact ⟨_,rfl,hperm.filterMap _⟩
  · exact ⟨found,h,.refl _⟩

def ranked (found : List ResolvedProcess) : List ResolvedProcess :=
  found.mergeSort fun left right => decide (right.score ≤ left.score)

theorem ranked_perm (found : List ResolvedProcess) : (ranked found).Perm found :=
  List.mergeSort_perm _ _

theorem ranked_sorted (found : List ResolvedProcess) :
    (ranked found).Pairwise fun left right => right.score ≤ left.score := by
  have h := @List.pairwise_mergeSort _ (fun left right : ResolvedProcess =>
    decide (right.score ≤ left.score)) (fun a b c hab hbc => by simp at *; omega)
    (fun a b => by simp; omega) found
  simpa only [ranked,decide_eq_true_eq] using h

theorem selectCandidate_of_ranked {first : ResolvedProcess} {rest : List ResolvedProcess}
    (hr : ranked found = first :: rest) : selectCandidate found =
      if first.score < minimumConfidence then .error (.noConfidentCandidate (rest.length + 1))
      else if rest.head?.any (fun next => next.score == first.score) then
        .error (.ambiguous (((first :: rest).takeWhile (·.score == first.score)).map
          (·.identity.pid)))
      else .ok first := by
  unfold ranked at hr
  rw [selectCandidate,hr]

/-- The candidate is the only one of its score, and no other has a higher one. -/
def Best (best : ResolvedProcess) (found : List ResolvedProcess) : Prop :=
  ∃ rest, found.Perm (best :: rest) ∧ ∀ other ∈ rest, other.score < best.score

theorem selectCandidate_ok_iff : selectCandidate found = .ok best ↔
    minimumConfidence ≤ best.score ∧ Best best found := by
  have hperm := ranked_perm found
  have hsorted := ranked_sorted found
  cases hr : ranked found with
  | nil =>
    rw [hr] at hperm
    obtain rfl := hperm.nil_eq
    refine ⟨fun h => ?_,fun ⟨_,rest,hrest,_⟩ => absurd hrest.nil_eq (by simp)⟩
    simp [selectCandidate] at h
  | cons first rest =>
    rw [hr] at hperm hsorted
    obtain ⟨hfirst,hrest⟩ := List.pairwise_cons.1 hsorted
    rw [selectCandidate_of_ranked hr]
    constructor
    · intro h
      split_ifs at h with hlow htie
      obtain rfl := Except.ok.inj h
      refine ⟨by omega,rest,hperm.symm,fun other hother => ?_⟩
      -- the second is below the first, and the others are not above the second
      cases rest with
      | nil => cases hother
      | cons next =>
        have hnext := hfirst next (by simp)
        have hne : next.score ≠ first.score := by simpa using htie
        rcases List.mem_cons.1 hother with rfl | hother
        · omega
        · have := (List.pairwise_cons.1 hrest).1 other hother
          omega
    · rintro ⟨hconfident,others,hothers,hbelow⟩
      have hsame := hperm.trans hothers
      obtain rfl : first = best := by
        rcases List.mem_cons.1 (hsame.mem_iff.1 List.mem_cons_self) with h | h
        · exact h
        rcases List.mem_cons.1 (hsame.symm.mem_iff.1 List.mem_cons_self) with h' | h'
        · exact h'.symm
        have := hbelow _ h
        have := hfirst _ h'
        omega
      rw [if_neg (by omega),if_neg]
      cases rest with
      | nil => simp
      | cons next =>
        have := hbelow next (hsame.cons_inv.mem_iff.1 List.mem_cons_self)
        simp only [List.head?_cons,Option.any_some,beq_iff_eq]
        omega

theorem Best.perm {found' : List ResolvedProcess} (h : Best best found) (hp : found.Perm found') :
    Best best found' := by
  obtain ⟨rest,hrest,hbelow⟩ := h
  exact ⟨rest,hp.symm.trans hrest,hbelow⟩

/-- Two candidates share the best score. -/
def Tied (found : List ResolvedProcess) : Prop :=
  ∃ a b rest, found.Perm (a :: b :: rest) ∧ a.score = b.score ∧ minimumConfidence ≤ a.score ∧
    ∀ other ∈ rest, other.score ≤ a.score

theorem Tied.not_best (h : Tied found) : ¬ Best best found := by
  rintro ⟨others,hothers,hbelow⟩
  obtain ⟨a,b,rest,hrest,htie,-,hmax⟩ := h
  have hsame := hrest.symm.trans hothers
  rcases List.mem_cons.1 (hsame.mem_iff.1 List.mem_cons_self) with rfl | ha
  · have := hbelow b (hsame.cons_inv.mem_iff.1 List.mem_cons_self)
    omega
  · have hlow := hbelow a ha
    have hbest : best ∈ a :: b :: rest := hsame.symm.mem_iff.1 List.mem_cons_self
    simp only [List.mem_cons] at hbest
    rcases hbest with rfl | rfl | hbest
    · omega
    · omega
    · have := hmax best hbest
      omega

theorem selectCandidate_tied (h : Tied found) :
    ∃ pids, selectCandidate found = .error (.ambiguous pids) := by
  have hbest : ∀ best, selectCandidate found ≠ .ok best :=
    fun best hok => h.not_best (selectCandidate_ok_iff.1 hok).2
  obtain ⟨a,b,rest,hrest,-,hconfident,-⟩ := h
  have hsorted := ranked_sorted found
  have ha : a ∈ ranked found := (ranked_perm found).mem_iff.2 (hrest.mem_iff.2 List.mem_cons_self)
  cases hr : ranked found with
  | nil =>
    rw [hr] at ha
    cases ha
  | cons first =>
    rw [hr] at ha hsorted
    have hfirst : minimumConfidence ≤ first.score := by
      rcases List.mem_cons.1 ha with rfl | ha
      · exact hconfident
      · have := (List.pairwise_cons.1 hsorted).1 a ha
        omega
    rw [selectCandidate_of_ranked hr,if_neg (by omega)] at hbest ⊢
    split_ifs at hbest ⊢ with htie
    · exact ⟨_,rfl⟩
    · exact absurd rfl (hbest first)

section Resolve
variable [Digest] {childPid : Nat} {chosen : ResolvedProcess}

/-- The identity of the chosen process is given the digest of its ancestors. -/
def stamped (chain : List ProcessRecord) (selected : ResolvedProcess) : ResolvedProcess :=
  { selected with identity := { selected.identity with
      parentDigest := (parentDigest chain).or selected.identity.parentDigest } }

theorem resolve_eq
    (h : candidates names inspector hints (ancestry inspector childPid) = .ok found) :
    resolve names inspector childPid hints =
      (selectCandidate found).map (stamped (ancestry inspector childPid)) := by
  simp only [resolve,h,bind,Except.bind]
  cases selectCandidate found with
  | error => rfl
  | ok =>
    simp only [Except.map,stamped]
    cases parentDigest (ancestry inspector childPid) <;> rfl

theorem resolve_ok (h : resolve names inspector childPid hints = .ok chosen) :
    ∃ found best,
      candidates names inspector hints (ancestry inspector childPid) = .ok found ∧
      selectCandidate found = .ok best ∧
      chosen = stamped (ancestry inspector childPid) best := by
  cases hfound : candidates names inspector hints (ancestry inspector childPid) with
  | error =>
    rw [resolve,hfound] at h
    cases h
  | ok found =>
    rw [resolve_eq hfound] at h
    cases hbest : selectCandidate found with
    | error =>
      rw [hbest] at h
      cases h
    | ok best =>
      rw [hbest] at h
      exact ⟨found,best,rfl,hbest,(Except.ok.inj h).symm⟩

theorem resolve_unique_best (names : List String) (inspector : ProcessInspector) (childPid : Nat)
    (hints : CandidateHints) :
    (∀ chosen, resolve names inspector childPid hints = .ok chosen →
      hints.Agrees chosen.identity ∧ minimumConfidence ≤ chosen.score ∧
      (∃ best rest found, candidates names inspector hints
          (ancestry inspector childPid) = .ok found ∧
        found.Perm (best :: rest) ∧
        chosen = stamped (ancestry inspector childPid) best ∧
        ∀ other ∈ rest, other.score < chosen.score) ∧
      ∀ other : ProcessInspector, other.inspect = inspector.inspect →
        (∀ tty listed, inspector.processesOnTty tty = .ok listed →
          ∃ listed', other.processesOnTty tty = .ok listed' ∧ listed.Perm listed') →
        resolve names other childPid hints = .ok chosen) ∧
    ∀ found, candidates names inspector hints (ancestry inspector childPid) =
        .ok found → Tied found →
      ∃ pids, resolve names inspector childPid hints = .error (.ambiguous pids) := by
  refine ⟨fun chosen h => ?_,fun found hfound htied => ?_⟩
  · obtain ⟨found,best,hfound,hbest,rfl⟩ := resolve_ok h
    obtain ⟨hconfident,hunique⟩ := selectCandidate_ok_iff.1 hbest
    obtain ⟨rest,hperm,hbelow⟩ := id hunique
    have hagrees := candidates_agree hfound best (hperm.mem_iff.2 List.mem_cons_self)
    refine ⟨⟨hagrees.tty,hagrees.processGroupId,hagrees.sessionLeaderId,hagrees.uid,
      hagrees.executable⟩,hconfident,⟨best,rest,found,hfound,hperm,rfl,hbelow⟩,
      fun other hinspect hlisted => ?_⟩
    have hancestry : ancestry other childPid =
        ancestry inspector childPid := by
      have hfrom : ∀ fuel result pid, ancestryFrom other fuel result pid =
          ancestryFrom inspector fuel result pid := by
        intro fuel
        induction fuel with
        | zero => exact fun _ _ => rfl
        | succ fuel ih =>
          intro result pid
          simp only [ancestryFrom,hinspect,ih]
      exact hfrom _ _ _
    obtain ⟨found',hfound',hp⟩ := candidates_perm hlisted hfound
    rw [resolve_eq (hancestry ▸ hfound'),hancestry,
      selectCandidate_ok_iff.2 ⟨hconfident,hunique.perm hp⟩]
    rfl
  · obtain ⟨pids,hpids⟩ := selectCandidate_tied htied
    exact ⟨pids,by rw [resolve_eq hfound,hpids]; rfl⟩

end Resolve

namespace Sample

def terminal : String := "dev:136:1"

def table : ProcessInspector where
  inspect
    | 10 => .ok ⟨10,9,2,some "/bin/sh",none,none,none,none,some terminal⟩
    | 9 => .ok ⟨9,1,1,some "/usr/bin/claude",none,none,none,none,some terminal⟩
    | pid => .error (.disappeared pid)
  processesOnTty _ := .ok []

@[reducible] def constantDigest : Digest :=
  ⟨fun _ => .ofList (.replicate 64 'a'),fun _ => [],fun _ => by decide⟩

def paneHints : CandidateHints := ⟨some terminal,none,none,none,none⟩

end Sample

theorem resolve_unique_best_parent :
    let _ := Sample.constantDigest
    ∃ chosen, resolve [] Sample.table 10 Sample.paneHints = .ok chosen ∧
      chosen.identity.pid = 9 ∧ Sample.paneHints.Agrees chosen.identity := by
  let _ := Sample.constantDigest
  obtain ⟨agent,hagent,hpid,hscore⟩ : ∃ agent : ResolvedProcess,
      candidates [] Sample.table Sample.paneHints (ancestry Sample.table 10) = .ok [agent] ∧
        agent.identity.pid = 9 ∧ minimumConfidence ≤ agent.score := ⟨_,rfl,rfl,by decide⟩
  have hbest := selectCandidate_ok_iff.2 ⟨hscore,[],List.Perm.refl [agent],by simp⟩
  have hchosen : resolve [] Sample.table 10 Sample.paneHints =
      .ok (stamped (ancestry Sample.table 10) agent) := by
    rw [resolve_eq hagent,hbest]
    rfl
  exact ⟨_,hchosen,hpid,((resolve_unique_best _ _ _ _).1 _ hchosen).1⟩

end ProcessResolver

end WatchMe
