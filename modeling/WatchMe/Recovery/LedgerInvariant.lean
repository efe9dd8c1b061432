import WatchMe.Recovery.ActionStore

/-! # What a ledger keeps over every history of calls

An accepted call extends one audit list and moves one active slot; a refused call
leaves memory alone and may at most have left the extension on disk.
-/
namespace WatchMe

namespace Ledger

/-- The updates a call may make when its checks pass. -/
inductive Accepts (L : Ledger) : StoreCall → Ledger → Prop
  | claim {t : String} {r : ActionRecord} : L.activeOf t = none →
      r.idempotencyKey ∉ L.idempotency → Accepts L (.claimPrepared t r) (L.claim t r)
  | append {t : String} {r current : ActionRecord} : L.activeOf t = some current →
      current.idempotencyKey = r.idempotencyKey → current.actionId = r.actionId →
      Accepts L (.append t r) (L.appended t r)
  | escalate {t : String} {r current : ActionRecord} {reason : String} :
      L.activeOf t = some current → current.idempotencyKey = r.idempotencyKey →
      current.actionId = r.actionId →
      Accepts L (.escalateUncertain t r reason) (L.escalated t r reason)

theorem cas_ok {L : Ledger} {t : String} {r : ActionRecord} (h : L.cas t r = .ok ()) :
    ∃ current, L.activeOf t = some current ∧ current.idempotencyKey = r.idempotencyKey ∧
      current.actionId = r.actionId := by
  unfold cas at h
  split at h
  · cases h
  · rename_i current hcur
    simp only [refuseIf_ok_iff,Bool.or_eq_false_iff,bne_eq_false_iff_eq] at h
    exact ⟨current,hcur,h.1,h.2⟩

end Ledger

namespace JsonActionStore
variable {s s' : JsonActionStore} {host : HostOutcome} {t : String} {r : ActionRecord}

/-- Memory and disk after a call: both hold the accepted update, or memory is
unchanged and the disk at most one accepted update ahead of it. -/
inductive Outcome (s : JsonActionStore) (c : StoreCall) : Bool → JsonActionStore → Prop
  | stored {L : Ledger} : s.state.Accepts c L → Outcome s c true ⟨L,some L⟩
  | refused : Outcome s c false s
  | landed {L : Ledger} : s.state.Accepts c L → Outcome s c false ⟨s.state,some L⟩

theorem commit_outcome {β : Type} {c : StoreCall} {L : Ledger} {value : β}
    {answer : Except String β} (hL : s.state.Accepts c L) (h : s.commit L value host = (answer,s'))
    :
    (answer = .ok value ∧ Outcome s c true s') ∨ (answer.isOk = false ∧ Outcome s c false s') := by
  cases host with
  | poisoned => cases h; exact .inr ⟨rfl,.refused⟩
  | stored => cases h; exact .inl ⟨rfl,.stored hL⟩
  | lost => cases h; exact .inr ⟨rfl,.refused⟩
  | landed => cases h; exact .inr ⟨rfl,.landed hL⟩

theorem claimPrepared_outcome {answer : Except String Bool}
    (h : s.claimPrepared t r host = (answer,s')) :
    Outcome s (.claimPrepared t r) (claimGranted answer) s' := by
  unfold claimPrepared at h
  split at h
  · cases h
    exact .refused
  · split at h
    · cases h
      exact .refused
    · rename_i hfree
      simp only [Bool.or_eq_true,not_or,Bool.not_eq_true] at hfree
      have hactive : s.state.activeOf t = none := by
        rw [Ledger.activeOf,getElem?_eq_none_iff]
        simpa [← Std.ExtTreeMap.contains_iff_mem] using hfree.1
      have hkey : r.idempotencyKey ∉ s.state.idempotency := by
        simpa [← Std.ExtTreeSet.contains_iff_mem] using hfree.2
      rcases commit_outcome (.claim hactive hkey) h with ⟨rfl,ho⟩ | ⟨herr,ho⟩
      · exact ho
      · cases answer with
        | error => exact ho
        | ok => cases herr

theorem append_outcome {answer : Except String Unit} (h : s.append t r host = (answer,s')) :
    Outcome s (.append t r) answer.isOk s' := by
  unfold append at h
  split at h
  · cases h
    exact .refused
  · split at h
    · cases h
      exact .refused
    · rename_i hcas
      obtain ⟨current,hcur,hkey,hid⟩ := Ledger.cas_ok hcas
      rcases commit_outcome (.append hcur hkey hid) h with ⟨rfl,ho⟩ | ⟨herr,ho⟩
      · exact ho
      · exact herr ▸ ho

theorem escalateUncertain_outcome {reason : String} {answer : Except String ActionRecord}
    (h : s.escalateUncertain t r reason host = (answer,s')) :
    Outcome s (.escalateUncertain t r reason) answer.isOk s' := by
  unfold escalateUncertain at h
  split at h
  · cases h
    exact .refused
  · split at h
    · cases h
      exact .refused
    · rename_i hcas
      obtain ⟨current,hcur,hkey,hid⟩ := Ledger.cas_ok hcas
      rcases commit_outcome (.escalate hcur hkey hid) h with ⟨rfl,ho⟩ | ⟨herr,ho⟩
      · exact ho
      · exact herr ▸ ho

theorem perform_outcome (s : JsonActionStore) (host : HostOutcome) (c : StoreCall) :
    Outcome s c (c.perform s host).1 (c.perform s host).2 := by
  cases c with
  | claimPrepared => exact claimPrepared_outcome rfl
  | append => exact append_outcome rfl
  | escalateUncertain => exact escalateUncertain_outcome rfl

end JsonActionStore

namespace StoreCall
variable {c : StoreCall} {r : ActionRecord}

/-- The active record an accepted call leaves at its target. -/
def slot : StoreCall → Option ActionRecord
  | claimPrepared _ r => some r
  | append _ r => if r.phase.isTerminal then none else some r
  | escalateUncertain _ _ _ => none

theorem key_of_mem_records (h : r ∈ c.records) : r.idempotencyKey = c.key := by
  cases c with
  | claimPrepared => simp [records] at h; subst h; rfl
  | append => simp [records] at h; subst h; rfl
  | escalateUncertain =>
    simp only [records,List.mem_cons,List.not_mem_nil,or_false] at h
    rcases h with rfl | rfl <;> rfl

theorem slot_spec (hc : c.Admissible) (h : c.slot = some r) :
    r.phase.isTerminal = false ∧ c.records.getLast? = some r := by
  cases c with
  | claimPrepared => cases h; exact ⟨hc,rfl⟩
  | append t r' =>
    simp only [slot] at h
    split at h
    · cases h
    · cases h
      rename_i hterm
      exact ⟨by simpa using hterm,rfl⟩
  | escalateUncertain => cases h

theorem slot_of_terminal (hc : c.Admissible) (hr : r ∈ c.records)
    (hterm : r.phase.isTerminal = true) : c.slot = none := by
  cases c with
  | claimPrepared =>
    simp only [records,List.mem_singleton] at hr
    subst hr
    exact absurd hterm (by rw [hc]; decide)
  | append =>
    simp only [records,List.mem_singleton] at hr
    subst hr
    simp [slot,hterm]
  | escalateUncertain => rfl

end StoreCall

namespace Ledger
variable {L L' : Ledger} {t u : String} {c : StoreCall} {r : ActionRecord}

/-- The effect of an accepted call, whichever of the three it was. -/
structure Extends (L : Ledger) (c : StoreCall) (L' : Ledger) : Prop where
  audit_self : L'.auditOf c.target = L.auditOf c.target ++ c.records
  audit_other : ∀ u, u ≠ c.target → L'.auditOf u = L.auditOf u
  active_self : L'.activeOf c.target = c.slot
  active_other : ∀ u, u ≠ c.target → L'.activeOf u = L.activeOf u
  keys : ∀ k, k ∈ L'.idempotency ↔
    k ∈ L.idempotency ∨ (L.activeOf c.target = none ∧ k = c.key)
  owner : (L.activeOf c.target = none ∧ c.key ∉ L.idempotency) ∨
    ∃ current, L.activeOf c.target = some current ∧ current.idempotencyKey = c.key
  version : L'.version = L.version

theorem auditOf_push {rs : List ActionRecord} :
    (L.push t rs)[u]?.getD [] = if t = u then L.auditOf t ++ rs else L.auditOf u := by
  rw [push,StrMap.getElem?_insert]
  split <;> rfl

theorem Accepts.extends (h : L.Accepts c L') : Extends L c L' := by
  cases h with
  | @claim t r hfree hkey =>
    refine ⟨?_,?_,?_,?_,?_,.inl ⟨hfree,hkey⟩,rfl⟩
    · exact auditOf_push.trans (if_pos rfl)
    · exact fun u hu => auditOf_push.trans (if_neg (Ne.symm hu))
    · exact (StrMap.getElem?_insert ..).trans (if_pos rfl)
    · exact fun u hu => (StrMap.getElem?_insert ..).trans (if_neg (Ne.symm hu))
    · intro k
      simp only [Ledger.claim,StoreCall.target,StoreCall.key,StoreCall.record,hfree,true_and,
        Std.ExtTreeSet.mem_insert,Std.LawfulEqCmp.compare_eq_iff_eq]
      exact ⟨fun h => h.elim (fun h => .inr h.symm) .inl,fun h => h.elim .inr (fun h => .inl h.symm)⟩
  | @append t r current hcur hkey hid =>
    refine ⟨?_,?_,?_,?_,?_,.inr ⟨current,hcur,hkey⟩,rfl⟩
    · exact auditOf_push.trans (if_pos rfl)
    · exact fun u hu => auditOf_push.trans (if_neg (Ne.symm hu))
    · simp only [appended,StoreCall.target,StoreCall.slot]
      split
      · exact (StrMap.getElem?_erase ..).trans (if_pos rfl)
      · exact (StrMap.getElem?_insert ..).trans (if_pos rfl)
    · intro u hu
      simp only [appended]
      split
      · exact (StrMap.getElem?_erase ..).trans (if_neg (Ne.symm hu))
      · exact (StrMap.getElem?_insert ..).trans (if_neg (Ne.symm hu))
    · intro k
      simp [appended,StoreCall.target,hcur]
  | @escalate t r current reason hcur hkey hid =>
    refine ⟨?_,?_,?_,?_,?_,.inr ⟨current,hcur,hkey⟩,rfl⟩
    · exact auditOf_push.trans (if_pos rfl)
    · exact fun u hu => auditOf_push.trans (if_neg (Ne.symm hu))
    · exact (StrMap.getElem?_erase ..).trans (if_pos rfl)
    · exact fun u hu => (StrMap.getElem?_erase ..).trans (if_neg (Ne.symm hu))
    · intro k
      simp [escalated,StoreCall.target,hcur]

theorem Extends.audit_prefix (h : Extends L c L') (u : String) : L.auditOf u <+: L'.auditOf u := by
  by_cases hu : u = c.target
  · subst hu
    exact ⟨c.records,h.audit_self.symm⟩
  · exact (h.audit_other u hu).symm ▸ List.prefix_rfl

theorem Extends.mem_audit (h : Extends L c L') (hr : r ∈ L'.auditOf u) :
    r ∈ L.auditOf u ∨ (u = c.target ∧ r ∈ c.records) := by
  by_cases hu : u = c.target
  · subst hu
    rw [h.audit_self] at hr
    exact (List.mem_append.1 hr).imp_right (fun hr => ⟨rfl,hr⟩)
  · rw [h.audit_other u hu] at hr
    exact .inl hr

theorem Extends.key_mem (h : Extends L c L') {k : String} (hk : k ∈ L.idempotency) :
    k ∈ L'.idempotency :=
  (h.keys k).2 (.inl hk)

/-- What holds of every ledger a store can reach. -/
structure Valid (L : Ledger) : Prop where
  active_last : ∀ t r, L.activeOf t = some r →
    r.phase.isTerminal = false ∧ (L.auditOf t).getLast? = some r
  keys : ∀ t, ∀ r ∈ L.auditOf t, r.idempotencyKey ∈ L.idempotency
  active_unique : ∀ t u r r', L.activeOf t = some r → L.activeOf u = some r' →
    r.idempotencyKey = r'.idempotencyKey → t = u
  final : ∀ t, ∀ r ∈ L.auditOf t, r.phase.isTerminal = true →
    ∀ u r', L.activeOf u = some r' → r'.idempotencyKey ≠ r.idempotencyKey
  version : L.version = 1

theorem empty_valid : Valid empty := by
  have haudit : ∀ t, empty.auditOf t = [] := fun _ => rfl
  have hactive : ∀ t, empty.activeOf t = none := fun _ => rfl
  constructor
  · intro t r h
    rw [hactive] at h
    cases h
  · intro t r h
    rw [haudit] at h
    cases h
  · intro t u r r' h
    rw [hactive] at h
    cases h
  · intro t r h
    rw [haudit] at h
    cases h
  · rfl

theorem Valid.active_mem (hv : L.Valid) (h : L.activeOf t = some r) : r ∈ L.auditOf t :=
  List.mem_of_getLast? (hv.active_last t r h).2

theorem Valid.active_key (hv : L.Valid) (h : L.activeOf t = some r) :
    r.idempotencyKey ∈ L.idempotency :=
  hv.keys t r (hv.active_mem h)

theorem Valid.other_key (hv : L.Valid) (h : Extends L c L') (hu : u ≠ c.target)
    (hr : L.activeOf u = some r) : r.idempotencyKey ≠ c.key := by
  intro hkey
  rcases h.owner with ⟨-,hfresh⟩ | ⟨current,hcur,hck⟩
  · exact hfresh (hkey ▸ hv.active_key hr)
  · exact hu (hv.active_unique u c.target r current hr hcur (hkey.trans hck.symm))

theorem Valid.terminal_key (hv : L.Valid) (h : Extends L c L') (hr : r ∈ L.auditOf t)
    (hterm : r.phase.isTerminal = true) : r.idempotencyKey ≠ c.key := by
  intro hkey
  rcases h.owner with ⟨-,hfresh⟩ | ⟨current,hcur,hck⟩
  · exact hfresh (hkey ▸ hv.keys t r hr)
  · exact hv.final t r hr hterm c.target current hcur (hck.trans hkey.symm)

theorem Extends.active_cases (h : Extends L c L') (hr : L'.activeOf u = some r) :
    (u = c.target ∧ c.slot = some r) ∨ (u ≠ c.target ∧ L.activeOf u = some r) := by
  by_cases hu : u = c.target
  · subst hu
    exact .inl ⟨rfl,h.active_self ▸ hr⟩
  · exact .inr ⟨hu,h.active_other u hu ▸ hr⟩

theorem slot_key (hc : c.Admissible) (h : c.slot = some r) : r.idempotencyKey = c.key :=
  StoreCall.key_of_mem_records (List.mem_of_getLast? (StoreCall.slot_spec hc h).2)

theorem Valid.extends (hv : L.Valid) (hc : c.Admissible) (h : Extends L c L') : L'.Valid where
  active_last t r hr := by
    rcases h.active_cases hr with ⟨rfl,hslot⟩ | ⟨hne,hr⟩
    · obtain ⟨hterm,hlast⟩ := StoreCall.slot_spec hc hslot
      refine ⟨hterm,?_⟩
      rw [h.audit_self,List.getLast?_append,hlast]
      rfl
    · rw [h.audit_other t hne]
      exact hv.active_last t r hr
  keys t r hr := by
    rcases h.mem_audit hr with hr | ⟨-,hnew⟩
    · exact h.key_mem (hv.keys t r hr)
    · rw [StoreCall.key_of_mem_records hnew,h.keys]
      rcases h.owner with ⟨hfree,-⟩ | ⟨current,hcur,hck⟩
      · exact .inr ⟨hfree,rfl⟩
      · exact .inl (hck ▸ hv.active_key hcur)
  active_unique t u r r' hr hr' hkey := by
    rcases h.active_cases hr with ⟨rfl,hslot⟩ | ⟨hne,hr⟩
    · rcases h.active_cases hr' with ⟨rfl,-⟩ | ⟨hne',hr'⟩
      · rfl
      · exact absurd (hkey.symm.trans (slot_key hc hslot)) (hv.other_key h hne' hr')
    · rcases h.active_cases hr' with ⟨rfl,hslot'⟩ | ⟨-,hr'⟩
      · exact absurd (hkey.trans (slot_key hc hslot')) (hv.other_key h hne hr)
      · exact hv.active_unique t u r r' hr hr' hkey
  final t r hr hterm u r' hr' hkey := by
    rcases h.mem_audit hr with hr | ⟨-,hnew⟩
    · rcases h.active_cases hr' with ⟨rfl,hslot⟩ | ⟨-,hr'⟩
      · exact hv.terminal_key h hr hterm (hkey.symm.trans (slot_key hc hslot))
      · exact hv.final t r hr hterm u r' hr' hkey
    · rcases h.active_cases hr' with ⟨rfl,hslot⟩ | ⟨hne,hr'⟩
      · rw [StoreCall.slot_of_terminal hc hnew hterm] at hslot
        cases hslot
      · exact hv.other_key h hne hr' (hkey.trans (StoreCall.key_of_mem_records hnew))
  version := h.version.trans hv.version

end Ledger

namespace JsonActionStore
variable {s s' : JsonActionStore} {c : StoreCall} {ok : Bool} {log : List (StoreCall × Bool)}

def fresh : JsonActionStore := ⟨Ledger.empty,none⟩

/-- Both copies are valid and no key known to memory is missing on disk. -/
structure Sound (s : JsonActionStore) : Prop where
  state : s.state.Valid
  disk : ∀ d, s.disk = some d → d.Valid
  durable : ∀ k, k ∈ s.state.idempotency → ∃ d, s.disk = some d ∧ k ∈ d.idempotency

theorem fresh_sound : fresh.Sound where
  state := Ledger.empty_valid
  disk d h := by cases h
  durable k h := absurd h Std.ExtTreeSet.not_mem_empty

theorem Outcome.sound (hs : s.Sound) (hc : c.Admissible) (h : Outcome s c ok s') : s'.Sound := by
  cases h with
  | refused => exact hs
  | stored hL =>
    have hv := hs.state.extends hc hL.extends
    exact ⟨hv,fun d hd => by cases hd; exact hv,fun k hk => ⟨_,rfl,hk⟩⟩
  | landed hL =>
    exact ⟨hs.state,fun d hd => by cases hd; exact hs.state.extends hc hL.extends,
      fun k hk => ⟨_,rfl,hL.extends.key_mem hk⟩⟩

theorem Outcome.state_of_refused (h : Outcome s c false s') : s'.state = s.state := by
  cases h with
  | refused => rfl
  | landed => rfl

theorem Outcome.audit_prefix (h : Outcome s c ok s') (t : String) :
    s.state.auditOf t <+: s'.state.auditOf t := by
  cases h with
  | refused => exact List.prefix_rfl
  | stored hL => exact hL.extends.audit_prefix t
  | landed => exact List.prefix_rfl

theorem Outcome.key_mem (h : Outcome s c ok s') {k : String} (hk : k ∈ s.state.idempotency) :
    k ∈ s'.state.idempotency := by
  cases h with
  | refused => exact hk
  | stored hL => exact hL.extends.key_mem hk
  | landed => exact hk

theorem Outcome.claimed_key {t : String} {r : ActionRecord}
    (h : Outcome s (.claimPrepared t r) true s') :
    r.idempotencyKey ∉ s.state.idempotency ∧ r.idempotencyKey ∈ s'.state.idempotency := by
  cases h with
  | stored hL =>
    cases hL with
    | claim _ hkey => exact ⟨hkey,Std.ExtTreeSet.mem_insert_self⟩

theorem Outcome.accepted (h : Outcome s c true s') : s.state.Accepts c s'.state := by
  cases h with
  | stored hL => exact hL

theorem load_sound (hs : s.Sound) (h : load s.disk = .ok s') :
    s'.Sound ∧ ∀ k, k ∈ s.state.idempotency → k ∈ s'.state.idempotency := by
  unfold load at h
  split at h
  · rename_i hdisk
    cases h
    refine ⟨fresh_sound,fun k hk => ?_⟩
    obtain ⟨d,hd,-⟩ := hs.durable k hk
    rw [hdisk] at hd
    cases hd
  · rename_i L hdisk
    split at h
    · cases h
      have hv := hs.disk L hdisk
      refine ⟨⟨hv,fun d hd => by cases hd; exact hv,fun k hk => ⟨L,rfl,hk⟩⟩,fun k hk => ?_⟩
      obtain ⟨d,hd,hkd⟩ := hs.durable k hk
      rw [hdisk] at hd
      cases hd
      exact hkd
    · cases h

/-- A sequence of calls with arbitrary host outcomes, and which of them were accepted. -/
inductive Calls (start : JsonActionStore) : List (StoreCall × Bool) → JsonActionStore → Prop
  | nil : Calls start [] start
  | snoc {log : List (StoreCall × Bool)} {s : JsonActionStore} (c : StoreCall)
      (host : HostOutcome) : c.Admissible → Calls start log s →
      Calls start (log ++ [(c,(c.perform s host).1)]) (c.perform s host).2

def claimedKeys (log : List (StoreCall × Bool)) : List String :=
  log.filterMap fun
    | (.claimPrepared _ r,true) => some r.idempotencyKey
    | _ => none

theorem Calls.sound {start : JsonActionStore} (hs : start.Sound) (h : Calls start log s) :
    s.Sound := by
  induction h with
  | nil => exact hs
  | snoc c host hc _ ih => exact (perform_outcome _ host c).sound ih hc

theorem claimedKeys_snoc (log : List (StoreCall × Bool)) (c : StoreCall) (ok : Bool) :
    claimedKeys (log ++ [(c,ok)]) = claimedKeys log ∨
      (ok = true ∧ claimedKeys (log ++ [(c,ok)]) = claimedKeys log ++ [c.key] ∧
        ∃ t r, c = .claimPrepared t r) := by
  unfold claimedKeys
  rw [List.filterMap_append]
  cases c with
  | claimPrepared t r =>
    cases ok with
    | false => exact .inl (List.append_nil _)
    | true => exact .inr ⟨rfl,rfl,t,r,rfl⟩
  | append => exact .inl (List.append_nil _)
  | escalateUncertain => exact .inl (List.append_nil _)

theorem Calls.claimedKeys_nodup (h : Calls fresh log s) :
    (claimedKeys log).Nodup ∧ ∀ k ∈ claimedKeys log, k ∈ s.state.idempotency := by
  induction h with
  | nil => exact ⟨List.nodup_nil,by simp [claimedKeys]⟩
  | @snoc log s c host hc hcalls ih =>
    have ho := perform_outcome s host c
    have hold : ∀ k ∈ claimedKeys log, k ∈ (c.perform s host).2.state.idempotency :=
      fun k hk => ho.key_mem (ih.2 k hk)
    rcases claimedKeys_snoc log c (c.perform s host).1 with heq | ⟨hok,heq,t,r,hclaim⟩
    · rw [heq]
      exact ⟨ih.1,hold⟩
    · rw [hok] at ho heq
      have hkey : c.key ∉ s.state.idempotency ∧ c.key ∈ (c.perform s host).2.state.idempotency := by
        generalize (c.perform s host).2 = s' at ho
        subst hclaim
        exact ho.claimed_key
      rw [hok,heq]
      constructor
      · rw [List.nodup_append]
        refine ⟨ih.1,List.pairwise_singleton _ _,fun a ha b hb => ?_⟩
        rw [List.mem_singleton.1 hb]
        rintro rfl
        exact hkey.1 (ih.2 _ ha)
      · intro k hk
        rcases List.mem_append.1 hk with hk | hk
        · exact hold k hk
        · rw [List.mem_singleton.1 hk]
          exact hkey.2

theorem Calls.final {start : JsonActionStore} (hs : start.Sound) (h : Calls start log s) :
    (∀ t, start.state.auditOf t <+: s.state.auditOf t) ∧
      ∀ t, ∀ r ∈ start.state.auditOf t, r.phase.isTerminal = true →
        ∀ e ∈ log, e.2 = true → e.1.key ≠ r.idempotencyKey := by
  induction h with
  | nil => exact ⟨fun _ => List.prefix_rfl,by simp⟩
  | @snoc log s c host hc hcalls ih =>
    have ho := perform_outcome s host c
    constructor
    · exact fun t => (ih.1 t).trans (ho.audit_prefix t)
    · intro t r hr hterm e he hacc
      rcases List.mem_append.1 he with he | he
      · exact ih.2 t r hr hterm e he hacc
      · rw [List.mem_singleton.1 he] at hacc ⊢
        simp only at hacc
        rw [hacc] at ho
        exact ((hcalls.sound hs).state.terminal_key ho.accepted.extends
          ((ih.1 t).subset hr) hterm).symm

/-- In every ledger reached by any calls with any write failures: an active record is
not terminal and is its target's last; audited keys are known and claimed once; a
refused call changes nothing in memory; and over any further calls audit lists only
grow at their end, while a key with a terminal record accepts nothing more. -/
theorem ledger_invariant {s : JsonActionStore} {log : List (StoreCall × Bool)}
    (h : Calls fresh log s) :
    (∀ t r, s.state.activeOf t = some r →
      r.phase.isTerminal = false ∧ (s.state.auditOf t).getLast? = some r) ∧
    (∀ t, ∀ r ∈ s.state.auditOf t, r.idempotencyKey ∈ s.state.idempotency) ∧
    (claimedKeys log).Nodup ∧
    (∀ (c : StoreCall) (host : HostOutcome), (c.perform s host).1 = false →
      (c.perform s host).2.state = s.state) ∧
    ∀ later s', Calls s later s' →
      (∀ t, s.state.auditOf t <+: s'.state.auditOf t) ∧
      ∀ t, ∀ r ∈ s.state.auditOf t, r.phase.isTerminal = true →
        ∀ e ∈ later, e.2 = true → e.1.key ≠ r.idempotencyKey := by
  have hs := h.sound fresh_sound
  refine ⟨hs.state.active_last,hs.state.keys,h.claimedKeys_nodup.1,?_,?_⟩
  · intro c host hrefused
    exact (hrefused ▸ perform_outcome s host c).state_of_refused
  · intro later s' hlater
    exact hlater.final hs

theorem ledger_invariant_reclaimed :
    let r : ActionRecord := ⟨"resume","pane:resume:f0","pane","session","f0",⟨7,1,"n"⟩,
      5,30005,.prepared,"confirmed","snapshot",none⟩
    (claimedKeys [(.claimPrepared "pane" r,false),(.claimPrepared "pane" r,true)]).Nodup := by
  intro r
  have h := Calls.snoc (.claimPrepared "pane" r) .stored rfl
    (Calls.snoc (.claimPrepared "pane" r) (.landed "fsync failed") rfl (@Calls.nil fresh))
  exact (ledger_invariant h).2.2.1

end JsonActionStore

end WatchMe
