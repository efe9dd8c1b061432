import WatchMe.Daemon.Registry
import WatchMe.Recovery.Stale
import WatchMe.Text.Json

/-! # The size limit of the ledger

`JsonStore` refuses to write a file of more than 4 MiB, and the ledger keeps every record it was
ever given. A run whose claim fitted may therefore find no room for its outcome. On a host where
nothing else fails, this and a recovery of the run's own record are all that can keep a claimed
run from recording what it did.
-/
namespace WatchMe
open Effects Program Transaction Text
variable {r : ActionRecord} {reason : String} {s : JsonActionStore} {e : TxEvent} {c : Claim}

def ActionPhase.json : ActionPhase → String
  | prepared => jsonString "prepared"
  | begun => jsonString "begun"
  | sent => jsonString "sent"
  | verifying => jsonString "verifying"
  | succeeded => jsonString "succeeded"
  | failed => jsonString "failed"
  | uncertain => jsonString "uncertain"
  | humanRequired => jsonString "human_required"

def OwnerIdentity.json (owner : OwnerIdentity) : String :=
  jsonObject [("pid",toString owner.pid),
    ("process_start_time",toString owner.processStartTime),("nonce",jsonString owner.nonce)]

def ActionRecord.json (r : ActionRecord) : String :=
  jsonObject [("action_id",jsonString r.actionId),
    ("idempotency_key",jsonString r.idempotencyKey),("target",jsonString r.target),
    ("identity",jsonString r.identity),("fingerprint",jsonString r.fingerprint),
    ("owner",r.owner.json),("prepared_at_ms",toString r.preparedAtMs),
    ("lease_deadline_ms",toString r.leaseDeadlineMs),("phase",r.phase.json),
    ("reason",jsonString r.reason),("snapshot",jsonString r.snapshot),
    ("output",match r.output with
      | none => "null"
      | some output => jsonString output)]

/-- The bytes of a record apart from its target, key, phase, reason and output. -/
def ActionRecord.fixedSize (r : ActionRecord) : Nat :=
  159 + quotedSize r.actionId + quotedSize r.identity + quotedSize r.fingerprint +
    r.owner.json.utf8ByteSize + (toString r.preparedAtMs).utf8ByteSize +
    (toString r.leaseDeadlineMs).utf8ByteSize + quotedSize r.snapshot

theorem ActionRecord.json_size (r : ActionRecord) :
    r.json.utf8ByteSize = r.fixedSize + quotedSize r.idempotencyKey + quotedSize r.target +
      r.phase.json.utf8ByteSize + quotedSize r.reason +
      (r.output.elim "null" jsonString).utf8ByteSize := by
  have hnames : (jsonString "action_id").utf8ByteSize = 11 ∧
      (jsonString "idempotency_key").utf8ByteSize = 17 ∧ (jsonString "target").utf8ByteSize = 8 ∧
      (jsonString "identity").utf8ByteSize = 10 ∧ (jsonString "fingerprint").utf8ByteSize = 13 ∧
      (jsonString "owner").utf8ByteSize = 7 ∧ (jsonString "prepared_at_ms").utf8ByteSize = 16 ∧
      (jsonString "lease_deadline_ms").utf8ByteSize = 19 ∧ (jsonString "phase").utf8ByteSize = 7 ∧
      (jsonString "reason").utf8ByteSize = 8 ∧ (jsonString "snapshot").utf8ByteSize = 10 ∧
      (jsonString "output").utf8ByteSize = 8 := by
    decide
  have hmarks : ("\x7b").utf8ByteSize = 1 ∧ ("\x7d").utf8ByteSize = 1 ∧ (":").utf8ByteSize = 1 ∧
      (",").utf8ByteSize = 1 := by
    decide
  have houtput : (match r.output with
      | none => "null"
      | some output => jsonString output) = r.output.elim "null" jsonString := by
    cases r.output <;> rfl
  simp only [ActionRecord.json,houtput,jsonObject,List.map_cons,List.map_nil,separated,jsonField,
    String.utf8ByteSize_append]
  simp only [hnames,hmarks,fixedSize,quotedSize]
  omega

namespace Ledger

def auditJson (entry : String × List ActionRecord) : String × String :=
  (entry.1,jsonArray (entry.2.map ActionRecord.json))

def activeJson (entry : String × ActionRecord) : String × String := (entry.1,entry.2.json)

def json (L : Ledger) : String :=
  jsonObject [("version",toString L.version),
    ("audit",jsonObject (L.audit.toList.map auditJson)),
    ("active",jsonObject (L.active.toList.map activeJson)),
    ("idempotency",jsonArray (L.idempotency.toList.map jsonString))]

def Fits (L : Ledger) : Prop := L.json.utf8ByteSize ≤ maxStateBytes

instance (L : Ledger) : Decidable L.Fits := Nat.decLe _ _

def sizeError : String := "state path is unsafe: serialized state exceeds size limit"

def written (L : Ledger) : HostOutcome := if L.Fits then .stored else .lost sizeError

end Ledger

def sizedAnswers (s : JsonActionStore) : TxEvent → JsonActionStore → Prop
  | ⟨.claimPrepared t r,answer⟩, s' =>
    s.claimPrepared t r (s.state.claim t r).written = (answer,s')
  | ⟨.append t r,answer⟩, s' => s.append t r (s.state.appended t r).written = (answer,s')
  | ⟨.escalateUncertain t r reason,answer⟩, s' =>
    s.escalateUncertain t r reason (s.state.escalated t r reason).written = (answer,s')
  | ⟨.active t,answer⟩, s' => s.active t .stored = answer ∧ s' = s
  | _, s' => s' = s

/-- The recovery system on a host where only the size limit refuses a write. -/
def sizedWorld : World txSig JsonActionStore where
  Answers := sizedAnswers
  Restarts s s' := JsonActionStore.load s.disk = .ok s'

theorem sizedAnswers.answers {s' : JsonActionStore} (h : sizedAnswers s e s') :
    storeAnswers s e s' := by
  obtain ⟨op,answer⟩ := e
  cases op with
  | claimPrepared | append | escalateUncertain => exact ⟨_,h⟩
  | active => exact ⟨⟨_,h.1⟩,h.2⟩
  | _ => exact h

namespace Stage
variable [Chrono] [Render]

theorem Step.actionId {s s' : Stage} {c' : Claim} (hs : s.Step e s') (hc : s'.claim? = some c') :
    (∃ c, s.claim? = some c ∧ c'.record.actionId = c.record.actionId) ∨
      storeCall e = some (.claimPrepared c'.job.target c'.record,true) := by
  cases hs with
  | claim =>
    cases hc
    exact .inr rfl
  | recheckFailed | recheck | begin | call | callOk | callDoubtful | callFailed | sendFailed
  | unreceipted | sendUnverified | send | openFailed | verify | setDeadline | pollDoubtful
  | prove | unproven | timedOut | retry | wake =>
    cases hc
    exact .inl ⟨_,rfl,rfl⟩
  | _ => cases hc

theorem Step.record_actionId {s s' : Stage} {call : StoreCall} {ok : Bool} (hs : s.Step e s')
    (hc : s.claim? = some c) (hcall : storeCall e = some (call,ok)) :
    call.record.actionId = c.record.actionId := by
  cases hs with
  | beginFailed | begin | sendFailed | unreceipted | sendUnverified | send | closeFailed | close
  | openFailed | verify | succeedFailed | succeed | fail | escalate =>
    cases hc
    cases hcall
    rfl
  | claimFailed | duplicate | claim | reapFailed | reap => cases hc
  | _ => cases hcall

end Stage

section Seated
variable [Chrono] [Render] {P : Pool stageMachine JsonActionStore}
variable {σ' : Stage} {e : TxEvent}

def Ledger.Seats (L : Ledger) (c : Claim) : Prop :=
  ∃ r, L.activeOf c.job.target = some r ∧ r.idempotencyKey = c.record.idempotencyKey ∧
    r.actionId = c.record.actionId

def Seated (P : Pool stageMachine JsonActionStore) : Prop :=
  ∀ (i : Nat) (t : Thread stageMachine) (c : Claim), P.threads[i]? = some t →
    t.alive = true → t.state.claim? = some c → P.shared.state.Seats c

/-- No recovery appends under the key of a run that is still going on. -/
def unreaped : Discipline txSig TxCall TxResult JsonActionStore
  | V, .act i ⟨.append _ record,_⟩ =>
    ∀ v, V.threads[i]? = some v → (∀ job, v.call ≠ .run job) →
      ∀ w ∈ V.threads, w.Running → record.idempotencyKey ∉ claims w.history
  | _, _ => True

theorem seats_after {s' : JsonActionStore} {σ : Stage} {call : StoreCall} {ok : Bool}
    (hs : σ.Step e σ') (hcall : storeCall e = some (call,ok)) (hf : σ.Follows call ok σ')
    (ho : s.Outcome call ok s') (hc : σ'.claim? = some c)
    (hold : ∀ d, σ.claim? = some d → s.state.Seats d) : s'.state.Seats c := by
  obtain ⟨htarget,⟨r,hslot,hnames⟩,hback⟩ := hf c hc
  have hid := hs.actionId hc
  cases ho with
  | @stored L hL =>
    have hactive : L.activeOf c.job.target = some r :=
      htarget ▸ hL.extends.active_self.trans hslot
    have hrecord : r.actionId = call.record.actionId := by
      cases call with
      | claimPrepared => cases hslot; rfl
      | append =>
        simp only [StoreCall.slot] at hslot
        split at hslot <;> cases hslot
        rfl
      | escalateUncertain => cases hslot
    refine ⟨r,hactive,hnames.key,hrecord.trans ?_⟩
    rcases hid with ⟨d,hd,heq⟩ | hclaim
    · exact (hs.record_actionId hd hcall).trans heq.symm
    · cases hcall.symm.trans hclaim
      rfl
  | refused | landed =>
    -- the claim is the one from before the refused call
    obtain ⟨d,hd,hjob,hsame⟩ := hback.resolve_left (by simp)
    obtain ⟨r',hr',hkey,hid'⟩ := hold d hd
    have hkeys : d.record.idempotencyKey = c.record.idempotencyKey := (hsame _ d.names_self).key
    refine ⟨r',hjob ▸ hr',hkey.trans hkeys,hid'.trans ?_⟩
    rcases hid with ⟨d',hd',heq⟩ | hclaim
    · cases hd.symm.trans hd'
      exact heq.symm
    · cases hcall.symm.trans hclaim

theorem reaped_foreign {i j : Nat} {t u : Thread stageMachine} {target : String}
    {terminal : ActionRecord} (hcourse : OnCourse P) (hd : unreaped P.view (.act i e))
    (ht : P.threads[i]? = some t) (hs : t.state.Step e σ')
    (hstate : t.state = .reaping target r terminal) (hu : P.threads[j]? = some u)
    (hua : u.alive = true) (hc : u.state.claim? = some c) :
    terminal.idempotencyKey ≠ c.record.idempotencyKey := by
  intro heq
  have hview : P.view.threads[i]? = some t.view := by
    rw [Pool.view,List.getElem?_map,ht]
    rfl
  have hrecovery : ∀ job, t.view.call ≠ .run job := by
    intro job hcall
    have hc := hcourse i t ht
    rw [hstate,show t.call = .run job from hcall] at hc
    exact hc.elim
  have hmem : u.view ∈ P.view.threads := List.mem_map_of_mem (List.mem_of_getElem? hu)
  have hclaim := (hcourse j u hu).claim_mem hc
  rw [← heq] at hclaim
  rw [hstate] at hs
  cases hs with
  | reapFailed | reap =>
    exact hd _ hview hrecovery _ hmem ⟨hua,Stage.result_of_claim? hc⟩ hclaim

theorem reachable_seated {D : Discipline txSig TxCall TxResult JsonActionStore}
    (hD : ∀ V l, D V l → unreaped V l)
    (hr : Pool.Reachable stageMachine recoveryWorld D JsonActionStore.fresh P) : Seated P := by
  refine hr.invariant (fun i t c ht => by simp at ht) ?_
  intro P l P' hr hP hd hs j u c hu hua hc
  have hcourse := reachable_onCourse hr
  cases hs.change hu with
  | spawned =>
    rw [spawned_claim?] at hc
    cases hc
  | beside _ hu hshared => exact hshared ▸ hP j u c hu hua hc
  | @acts t _ _ ht hta hm hw =>
    rcases act_cases (hcourse j t ht) hm hw with ⟨hshared,-,hsame⟩ | ⟨call,ok,hcall,ho,-,-,hfollows⟩
    · exact hshared ▸ hP j t c ht hta (hsame.symm.trans hc)
    · exact seats_after hm hcall hfollows ho hc fun d hd => hP j t d ht hta hd
  | @waits _ t i _ _ hu hji ht hta hm hw =>
    have hseat := hP j u c hu hua hc
    rcases act_cases (hcourse i t ht) hm hw with ⟨hshared,-,-⟩ | ⟨call,ok,-,ho,-,hissues,-⟩
    · exact hshared ▸ hseat
    generalize P'.shared = shared at ho
    cases ho with
    | refused | landed => exact hseat
    | @stored L hL =>
      have hkey : call.key ≠ c.record.idempotencyKey := by
        refine foreign_key (reachable_claimed hr) hcourse ht hissues hL hu hc hji ?_
        exact fun _ _ _ hstate => reaped_foreign hcourse (hD _ _ hd) ht hm hstate hu hua hc
      obtain ⟨r,hr,hrkey,hrid⟩ := hseat
      exact ⟨r,hL.extends.active_keep hr (hrkey ▸ hkey.symm),hrkey,hrid⟩
  | killed => cases hua

end Seated

def Recorded : TxEvent → Prop
  | ⟨.append _ _,answer⟩ => answer.isOk = true
  | ⟨.escalateUncertain _ _ _,answer⟩ => answer.isOk = true
  | _ => True

def roomy : Discipline txSig TxCall TxResult JsonActionStore
  | V, .act i ⟨.append t r,_⟩ =>
    (∃ v job, V.threads[i]? = some v ∧ v.call = .run job) → (V.shared.state.appended t r).Fits
  | V, .act i ⟨.escalateUncertain t r reason,_⟩ =>
    (∃ v job, V.threads[i]? = some v ∧ v.call = .run job) →
      (V.shared.state.escalated t r reason).Fits
  | _, _ => True

theorem Ledger.Seats.cas {L : Ledger} (h : L.Seats c)
    (hkey : r.idempotencyKey = c.record.idempotencyKey) (hid : r.actionId = c.record.actionId) :
    L.cas c.job.target r = .ok () := by
  obtain ⟨current,hcur,hckey,hcid⟩ := h
  exact JsonActionStore.cas_stored hcur (hckey.trans hkey.symm) (hcid.trans hid.symm)

section Recording
variable [Chrono] [Render]

theorem recorded_of_seats {shared : JsonActionStore} {σ σ' : Stage} {job : Job} {h : List TxEvent}
    (hcourse : Course h σ (.run job)) (hs : σ.Step e σ') (hw : sizedAnswers s e shared)
    (hseat : ∀ c, σ.claim? = some c → s.state.Seats c)
    (happend : ∀ t r answer, e = ⟨.append t r,answer⟩ → (s.state.appended t r).Fits) (hescalate : ∀
      t r reason answer, e = ⟨.escalateUncertain t r reason,answer⟩ → (s.state.escalated t r
      reason).Fits) : Recorded e := by
  obtain ⟨op,answer⟩ := e
  rcases σ.step_cases hs with ⟨hnone,-⟩ | ⟨call,ok,hcall,hissues,-⟩
  · cases op with
    | claimPrepared | append | escalateUncertain => cases hnone
    | _ => trivial
  cases op with
  | append t r =>
    cases hcall
    have hstored : (s.state.appended t r).written = .stored := if_pos (happend t r answer rfl)
    cases hissues with
    | append hc hkey =>
      have hcas := (hseat _ hc).cas hkey (hs.record_actionId hc rfl)
      have hanswer : answer = .ok () := by
        simpa [sizedAnswers,JsonActionStore.append,hstored,hcas,JsonActionStore.commit]
          using congrArg Prod.fst hw.symm
      rw [hanswer]
      rfl
    | reap => exact hcourse.elim
  | escalateUncertain t r reason =>
    cases hcall
    have hstored : (s.state.escalated t r reason).written = .stored :=
      if_pos (hescalate t r reason answer rfl)
    cases hissues with
    | @escalate c =>
      have hcas := (hseat c rfl).cas rfl rfl
      have hanswer : answer = .ok (Ledger.humanRecord c.record reason) := by
        simpa [sizedAnswers,JsonActionStore.escalateUncertain,hstored,hcas,JsonActionStore.commit]
          using congrArg Prod.fst hw.symm
      rw [hanswer]
      rfl
  | _ => trivial

variable {P : Pool stageMachine JsonActionStore}

theorem reachable_recorded
    (hr : Pool.Reachable stageMachine sizedWorld (fun V l => unreaped V l ∧ roomy V l)
      JsonActionStore.fresh P) :
    ∀ t ∈ P.threads, ∀ job, t.call = .run job → ∀ e ∈ t.history, Recorded e := by
  refine hr.invariant (by simp) ?_
  intro P l P' hr hP hd hs
  have hr' : Pool.Reachable stageMachine recoveryWorld (fun V l => unreaped V l ∧ roomy V l)
      JsonActionStore.fresh P := by
    refine hr.weaken ?_ ?_
    · exact fun _ _ _ h => sizedAnswers.answers h
    · exact fun _ _ h => h
  refine hs.forall_thread hP (fun _ _ _ _ he => absurd he List.not_mem_nil) ?_ fun _ h => h
  rintro i t e σ' rfl ht hrecorded hta hm hw job hcall e' he'
  rcases List.mem_append.1 he' with he' | he'
  · exact hrecorded job hcall e' he'
  rw [List.mem_singleton.1 he']
  have hcourse := reachable_onCourse hr' i t ht
  rw [show t.call = .run job from hcall] at hcourse
  have hview : ∃ v job, P.view.threads[i]? = some v ∧ v.call = .run job := by
    refine ⟨t.view,job,?_,hcall⟩
    rw [Pool.view,List.getElem?_map,ht]
    rfl
  refine recorded_of_seats hcourse hm hw
    (fun c hc => reachable_seated (fun _ _ h => h.1) hr' i t c ht hta hc) ?_ ?_
  · rintro target r answer rfl
    exact hd.2 hview
  · rintro target r reason answer rfl
    exact hd.2 hview

end Recording

namespace Ledger
variable {k : String}

def auditItems (L : Ledger) : List String := L.audit.toList.map (jsonField ∘ auditJson)

def activeItems (L : Ledger) : List String := L.active.toList.map (jsonField ∘ activeJson)

def keyItems (L : Ledger) : List String := L.idempotency.toList.map jsonString

theorem json_size (L : Ledger) (hversion : L.version = 1) :
    L.json.utf8ByteSize = 53 + (listed L.auditItems - 1) + (listed L.activeItems - 1) +
      (listed L.keyItems - 1) := by
  have hnames : (jsonString "version").utf8ByteSize = 9 ∧ (jsonString "audit").utf8ByteSize = 7 ∧
      (jsonString "active").utf8ByteSize = 8 ∧ (jsonString "idempotency").utf8ByteSize = 13 := by
    decide
  have hmarks : ("\x7b").utf8ByteSize = 1 ∧ ("\x7d").utf8ByteSize = 1 ∧ ("[").utf8ByteSize = 1 ∧
      ("]").utf8ByteSize = 1 ∧ (":").utf8ByteSize = 1 ∧ (",").utf8ByteSize = 1 ∧
      (toString 1).utf8ByteSize = 1 := by
    decide
  simp only [json,hversion,jsonObject,jsonArray,List.map_cons,List.map_nil,List.map_map,separated,
    jsonField,String.utf8ByteSize_append,separated_size]
  simp only [hnames,hmarks]
  simp only [auditItems,activeItems,keyItems]
  omega

/-- A ledger without active records, after some calls of one run on a target of its own. -/
def opened (L : Ledger) (target : String) (records : List ActionRecord)
    (slot : Option ActionRecord) (key : String) : Ledger where
  version := L.version
  audit := L.audit.insert target records
  active := slot.elim ∅ fun r => (∅ : StrMap ActionRecord).insert target r
  idempotency := L.idempotency.insert key

theorem toList_insert_perm {β : Type} {m : StrMap β} {v : β} (h : m[k]? = none) :
    (m.insert k v).toList.Perm ((k,v) :: m.toList) := by
  have hnodup : ∀ m : StrMap β, m.toList.Nodup := fun m =>
    .of_map Prod.fst (by rw [Std.ExtTreeMap.map_fst_toList_eq_keys]; exact Std.ExtTreeMap.nodup_keys)
  have hnew : (k,v) ∉ m.toList := by
    rw [Std.ExtTreeMap.mem_toList_iff_getElem?_eq_some,h]
    exact nofun
  refine (List.perm_ext_iff_of_nodup (hnodup _) (List.nodup_cons.2 ⟨hnew,hnodup m⟩)).2 ?_
  rintro ⟨k',v'⟩
  rw [List.mem_cons,Std.ExtTreeMap.mem_toList_iff_getElem?_eq_some,
    Std.ExtTreeMap.mem_toList_iff_getElem?_eq_some,StrMap.getElem?_insert,Prod.mk.injEq]
  by_cases hk : k = k'
  · subst hk
    simp [h,eq_comm]
  · simp [hk,Ne.symm hk]

theorem keys_insert_perm {keys : Std.ExtTreeSet String} (h : k ∉ keys) :
    (keys.insert k).toList.Perm (k :: keys.toList) := by
  have hnodup : ∀ keys : Std.ExtTreeSet String, keys.toList.Nodup := fun keys =>
    Std.ExtTreeSet.distinct_toList.imp fun hne heq => hne (by rw [heq]; exact Std.ReflCmp.compare_self)
  have hnew : k ∉ keys.toList := by rwa [Std.ExtTreeSet.mem_toList]
  refine (List.perm_ext_iff_of_nodup (hnodup _) (List.nodup_cons.2 ⟨hnew,hnodup keys⟩)).2 ?_
  intro k'
  rw [Std.ExtTreeSet.mem_toList,Std.ExtTreeSet.mem_insert,Std.LawfulEqCmp.compare_eq_iff_eq,
    List.mem_cons,Std.ExtTreeSet.mem_toList,eq_comm]

theorem insert_insert {β : Type} (m : StrMap β) (k : String) (v w : β) :
    (m.insert k v).insert k w = m.insert k w := by
  refine Std.ExtTreeMap.ext_getElem? fun a => ?_
  simp only [StrMap.getElem?_insert]
  split <;> rfl

theorem erase_insert {β : Type} {m : StrMap β} (v : β) (h : m[k]? = none) :
    (m.insert k v).erase k = m := by
  refine Std.ExtTreeMap.ext_getElem? fun a => ?_
  simp only [StrMap.getElem?_erase,StrMap.getElem?_insert]
  split
  · rename_i heq
    rw [← heq,h]
  · rfl

section Opened
variable {L : Ledger} {target key : String} {records : List ActionRecord}
  {slot : Option ActionRecord}

def auditSize (target : String) (records : List ActionRecord) : Nat :=
  quotedSize target + 3 + (listed (records.map ActionRecord.json) - 1)

def slotSize (target : String) : Option ActionRecord → Nat
  | none => 0
  | some r => quotedSize target + 1 + r.json.utf8ByteSize

theorem auditJson_size :
    (jsonField (auditJson (target,records))).utf8ByteSize = auditSize target records := by
  have hmarks : (":").utf8ByteSize = 1 ∧ ("[").utf8ByteSize = 1 ∧ ("]").utf8ByteSize = 1 := by
    decide
  simp only [auditSize,quotedSize,jsonField,auditJson,jsonArray,String.utf8ByteSize_append,
    separated_size,hmarks]
  omega

theorem activeJson_size (r : ActionRecord) :
    (jsonField (activeJson (target,r))).utf8ByteSize = slotSize target (some r) := by
  have hcolon : (":").utf8ByteSize = 1 := by decide
  simp only [slotSize,quotedSize,jsonField,activeJson,String.utf8ByteSize_append,hcolon]

theorem opened_auditItems (htarget : L.audit[target]? = none) :
    listed (L.opened target records slot key).auditItems =
      auditSize target records + 1 + listed L.auditItems := by
  rw [← auditJson_size]
  exact listed_perm ((toList_insert_perm htarget).map _)

theorem opened_keyItems (hkey : key ∉ L.idempotency) :
    listed (L.opened target records slot key).keyItems = quotedSize key + 1 + listed L.keyItems :=
  listed_perm ((keys_insert_perm hkey).map _)

theorem opened_activeItems :
    listed (L.opened target records slot key).activeItems - 1 = slotSize target slot := by
  cases slot with
  | none => rfl
  | some r =>
    have hitems : (L.opened target records (some r) key).activeItems =
      [jsonField (activeJson (target,r))] := rfl
    rw [hitems,← activeJson_size]
    simp [listed]

theorem claim_opened {record : ActionRecord} (hactive : L.active = ∅)
    (htarget : L.audit[target]? = none) :
    L.claim target record = L.opened target [record] (some record) record.idempotencyKey := by
  simp [claim,opened,push,auditOf,hactive,htarget]

theorem opened_auditOf : (L.opened target records slot key).auditOf target = records := by
  simp [auditOf,opened]

theorem opened_erase : (L.opened target records slot key).active.erase target = ∅ := by
  cases slot with
  | none => rfl
  | some r => exact erase_insert r rfl

theorem opened_insert (r : ActionRecord) :
    (L.opened target records slot key).active.insert target r =
      (∅ : StrMap ActionRecord).insert target r := by
  cases slot with
  | none => rfl
  | some r' => exact insert_insert ∅ target r' r

theorem opened_push (more : List ActionRecord) :
    (L.opened target records slot key).push target more =
      L.audit.insert target (records ++ more) := by
  rw [push,opened_auditOf]
  exact insert_insert L.audit target records _

theorem appended_opened {record : ActionRecord} :
    (L.opened target records slot key).appended target record =
      L.opened target (records ++ [record]) (if record.phase.isTerminal then none else some record)
        key := by
  unfold appended
  rw [opened_push,opened_erase,opened_insert]
  cases record.phase.isTerminal <;> rfl

theorem escalated_opened {record : ActionRecord} :
    (L.opened target records slot key).escalated target record reason =
      L.opened target (records ++ [uncertainRecord record reason,humanRecord record reason]) none
        key := by
  unfold escalated
  rw [opened_push,opened_erase]
  rfl

end Opened

end Ledger

section Answers
variable {L : Ledger} {t : String} {r current : ActionRecord}

theorem sized_claim (hs : s.state = L) (hfree : L.activeOf t = none)
    (hkey : r.idempotencyKey ∉ L.idempotency) (hfits : (L.claim t r).Fits) :
    sizedAnswers s ⟨.claimPrepared t r,.ok true⟩ (.holding (L.claim t r)) := by
  subst hs
  have hwritten : (s.state.claim t r).written = .stored := if_pos hfits
  simp only [sizedAnswers,hwritten]
  exact JsonActionStore.claimPrepared_stored hfree hkey

theorem sized_append (hcur : L.activeOf t = some current)
    (hkey : current.idempotencyKey = r.idempotencyKey) (hid : current.actionId = r.actionId)
    (hfits : (L.appended t r).Fits) :
    sizedAnswers (.holding L) ⟨.append t r,.ok ()⟩ (.holding (L.appended t r)) := by
  have hwritten : (L.appended t r).written = .stored := if_pos hfits
  simp only [sizedAnswers,JsonActionStore.holding,hwritten]
  exact JsonActionStore.append_stored hcur hkey hid

end Answers

namespace Sample
variable {n m : Nat}

def digit (n : Nat) : Char := Char.ofNat (48 + n % 10)

def pane (n : Nat) : String :=
  String.ofList ['p','a','n','e',digit (n / 1000),digit (n / 100),digit (n / 10),digit n]

def resumeIn (n : Nat) : Job := { resume with target := pane n }

def keyIn (n : Nat) : String := (resumeIn n).key prelude.baseline

def preparedIn (n : Nat) : ActionRecord := prelude.record (resumeIn n)

def failedIn (n : Nat) : ActionRecord :=
  (preparedIn n).next .failed (TransactionError.revalidation "human intervention").text

def disturbed : List Nat → Ledger
  | [] => .empty
  | n :: ns => (disturbed ns).opened (pane n) [preparedIn n,failedIn n] none (keyIn n)

theorem digit_injective (h : digit n = digit m) : n % 10 = m % 10 := by
  have hall : ∀ a b : Fin 10, Char.ofNat (48 + a.val) = Char.ofNat (48 + b.val) → a = b := by
    decide
  exact congrArg Fin.val
    (hall ⟨n % 10,Nat.mod_lt n (by decide)⟩ ⟨m % 10,Nat.mod_lt m (by decide)⟩ h)

theorem pane_injective (hn : n < 10000) (hm : m < 10000) (h : pane n = pane m) : n = m := by
  have hdigits := String.ofList_injective h
  simp only [List.cons.injEq,true_and,and_true] at hdigits
  obtain ⟨h₃,h₂,h₁,h₀⟩ := hdigits
  have h₃ := digit_injective h₃
  have h₂ := digit_injective h₂
  have h₁ := digit_injective h₁
  have h₀ := digit_injective h₀
  omega

theorem keyIn_injective (hn : n < 10000) (hm : m < 10000) (h : keyIn n = keyIn m) : n = m := by
  have htexts := congrArg String.toList h
  simp only [keyIn,Job.key,idempotencyKey,resumeIn,String.toList_append] at htexts
  exact pane_injective hn hm (String.toList_injective (by simpa using htexts))

/-! The panes have names of one length, so that every run takes up the same room. -/

theorem pane_size (n : Nat) : quotedSize (pane n) = 10 := by
  have hdigit : ∀ n, (jsonEscape (digit n)).utf8ByteSize = 1 := by
    have hall : ∀ a : Fin 10, (jsonEscape (Char.ofNat (48 + a.val))).utf8ByteSize = 1 := by
      decide
    exact fun n => hall ⟨n % 10,Nat.mod_lt n (by decide)⟩
  have hrest : ("\"").utf8ByteSize = 1 ∧ (jsonEscape 'p').utf8ByteSize = 1 ∧
      (jsonEscape 'a').utf8ByteSize = 1 ∧ (jsonEscape 'n').utf8ByteSize = 1 ∧
      (jsonEscape 'e').utf8ByteSize = 1 ∧ ("").utf8ByteSize = 0 := by
    decide
  simp only [quotedSize,jsonString,pane,String.toList_ofList,jsonEscaped,
    String.utf8ByteSize_append,hdigit,hrest]

theorem key_size (n : Nat) : quotedSize (keyIn n) = 50 := by
  have hrest : quotedSize (":" ++ ("resume" ++ (":" ++ fingerprint))) = 42 := by decide
  have hkey : keyIn n = pane n ++ (":" ++ ("resume" ++ (":" ++ fingerprint))) := by
    change pane n ++ ":" ++ "resume" ++ ":" ++ fingerprint = _
    simp only [String.append_assoc]
  have hsum := quotedSize_append (pane n) (":" ++ ("resume" ++ (":" ++ fingerprint)))
  rw [hrest,pane_size,← hkey] at hsum
  omega

theorem record_size (n : Nat) (phase : ActionPhase) (reason : String) (output : Option String) :
    ({ preparedIn n with phase, reason, output } : ActionRecord).json.utf8ByteSize =
      338 + phase.json.utf8ByteSize + quotedSize reason +
        (output.elim "null" jsonString).utf8ByteSize := by
  have hfixed : ({ preparedIn n with phase, reason, output } : ActionRecord).fixedSize = 278 := by
    simp only [ActionRecord.fixedSize,preparedIn,Prelude.record,Job.prepared,resumeIn]
    decide
  have hkey : quotedSize (preparedIn n).idempotencyKey = 50 := key_size n
  have htarget : quotedSize (preparedIn n).target = 10 := pane_size n
  rw [ActionRecord.json_size,hfixed,hkey,htarget]

def begunIn (n : Nat) : ActionRecord := (preparedIn n).next .begun beginReason

def returnedIn (n : Nat) : ActionRecord := { begunIn n with output := some "output" }

def sentIn (n : Nat) : ActionRecord := (returnedIn n).next .sent sentReason

def unrecordedReason : String :=
  "could not durably record a possible side effect: " ++
    (TransactionError.store Ledger.sizeError).text

theorem record_sizes (n : Nat) : (preparedIn n).json.utf8ByteSize = 408 ∧
    (failedIn n).json.utf8ByteSize = 390 ∧ (begunIn n).json.utf8ByteSize = 374 ∧
    (sentIn n).json.utf8ByteSize = 384 ∧
    (Ledger.uncertainRecord (returnedIn n) unrecordedReason).json.utf8ByteSize = 487 ∧
    (Ledger.humanRecord (returnedIn n) unrecordedReason).json.utf8ByteSize = 536 := by
  have hsize := record_size n
  refine ⟨(hsize .prepared (preparedIn 0).reason none).trans ?_,
    (hsize .failed (failedIn 0).reason none).trans ?_,(hsize .begun beginReason none).trans ?_,
    (hsize .sent sentReason (some "output")).trans ?_,
    (hsize .uncertain unrecordedReason (some "output")).trans ?_,
    (hsize .humanRequired ("possible side effect requires human review: " ++ unrecordedReason)
      (some "output")).trans ?_⟩ <;> decide +kernel

theorem disturbed_idle (ns : List Nat) :
    (disturbed ns).version = 1 ∧ (disturbed ns).active = ∅ := by
  induction ns with
  | nil => exact ⟨rfl,rfl⟩
  | cons n ns ih => exact ⟨ih.1,rfl⟩

section History
variable {ns : List Nat} {n : Nat} {records : List ActionRecord} {slot : Option ActionRecord}

theorem disturbed_fresh (hlt : n < 10000) (hall : ∀ m ∈ ns, m < 10000) (hn : n ∉ ns) :
    (disturbed ns).audit[pane n]? = none ∧ keyIn n ∉ (disturbed ns).idempotency := by
  induction ns with
  | nil => exact ⟨rfl,Std.ExtTreeSet.not_mem_empty⟩
  | cons m ns ih =>
    have hm := hall m List.mem_cons_self
    rw [List.mem_cons,not_or] at hn
    obtain ⟨haudit,hkey⟩ := ih (fun k hk => hall k (List.mem_cons_of_mem _ hk)) hn.2
    constructor
    · have hpane : ¬ pane m = pane n := fun h => hn.1 (pane_injective hlt hm h.symm)
      exact (StrMap.getElem?_insert ..).trans ((if_neg hpane).trans haudit)
    · have hkeys : keyIn m ≠ keyIn n := fun h => hn.1 (keyIn_injective hlt hm h.symm)
      simp only [disturbed,Ledger.opened,Std.ExtTreeSet.mem_insert,
        Std.LawfulEqCmp.compare_eq_iff_eq]
      exact not_or.2 ⟨hkeys,hkey⟩

theorem disturbed_listed (hns : ns.Nodup) (hall : ∀ m ∈ ns, m < 10000) :
    listed (disturbed ns).auditItems + listed (disturbed ns).keyItems = 864 * ns.length := by
  induction ns with
  | nil => rfl
  | cons n ns ih =>
    obtain ⟨hlt,hall⟩ := List.forall_mem_cons.1 hall
    obtain ⟨hn,hns⟩ := List.nodup_cons.1 hns
    obtain ⟨haudit,hkey⟩ := disturbed_fresh hlt hall hn
    have hrest := ih hns hall
    rw [disturbed,Ledger.opened_auditItems haudit,Ledger.opened_keyItems hkey,List.length_cons,
      Ledger.auditSize,key_size,pane_size]
    simp only [listed,List.map_cons,List.map_nil,List.sum_cons,List.sum_nil,record_sizes]
    simp only [listed] at hrest
    omega

theorem disturbed_size (hns : (n :: ns).Nodup) (hall : ∀ m ∈ n :: ns, m < 10000) :
    ((disturbed ns).opened (pane n) records slot (keyIn n)).json.utf8ByteSize =
      116 + 864 * ns.length + (listed (records.map ActionRecord.json) - 1) +
        Ledger.slotSize (pane n) slot := by
  obtain ⟨hn,hns⟩ := List.nodup_cons.1 hns
  obtain ⟨hlt,hall⟩ := List.forall_mem_cons.1 hall
  obtain ⟨haudit,hkey⟩ := disturbed_fresh hlt hall hn
  have hlisted := disturbed_listed hns hall
  rw [Ledger.json_size (Ledger.opened ..) (disturbed_idle ns).1,Ledger.opened_auditItems haudit,
    Ledger.opened_keyItems hkey,Ledger.opened_activeItems,Ledger.auditSize,key_size,pane_size]
  omega

def runningIn (ns : List Nat) (n : Nat) (records : List ActionRecord) (last : ActionRecord) :
    Ledger :=
  (disturbed ns).opened (pane n) (records ++ [last]) (some last) (keyIn n)

theorem runningIn_active {last : ActionRecord} :
    (runningIn ns n records last).activeOf (pane n) = some last := by
  simp [runningIn,Ledger.opened,Ledger.activeOf]

theorem runningIn_appended {last next : ActionRecord} (hnext : next.phase.isTerminal = false) :
    (runningIn ns n records last).appended (pane n) next =
      runningIn ns n (records ++ [last]) next := by
  simp [runningIn,Ledger.appended_opened,hnext]

theorem claimed_in (hs : s.state = disturbed ns) (hns : (n :: ns).Nodup)
    (hall : ∀ m ∈ n :: ns, m < 10000) (hlen : ns.length ≤ 4853) :
    sizedWorld.Answered s ((prelude.events (resumeIn n) beginReason).take 5)
      (.holding (runningIn ns n [] (preparedIn n))) := by
  obtain ⟨hlt,hall'⟩ := List.forall_mem_cons.1 hall
  obtain ⟨haudit,hkey⟩ := disturbed_fresh hlt hall' (List.nodup_cons.1 hns).1
  have hopened : (disturbed ns).claim (pane n) (preparedIn n) = runningIn ns n [] (preparedIn n) :=
    Ledger.claim_opened (disturbed_idle ns).2 haudit
  have hfits : (runningIn ns n [] (preparedIn n)).Fits := by
    rw [Ledger.Fits,runningIn,disturbed_size hns hall,Ledger.slotSize,pane_size]
    simp [listed,record_sizes,maxStateBytes]
    omega
  have hfree : (disturbed ns).activeOf (pane n) = none := by
    rw [Ledger.activeOf,(disturbed_idle ns).2]
    rfl
  rw [← hopened] at hfits ⊢
  exact .cons rfl (.cons rfl (.cons rfl (.cons rfl
    (.cons (sized_claim hs hfree hkey hfits) (.nil _)))))

theorem closed_in (hns : (n :: ns).Nodup) (hall : ∀ m ∈ n :: ns, m < 10000)
    (hlen : ns.length ≤ 4853) :
    (disturbed (n :: ns)).Fits ∧ sizedWorld.Answers (.holding (runningIn ns n [] (preparedIn n)))
      ⟨.append (pane n) (failedIn n),.ok ()⟩ (.holding (disturbed (n :: ns))) := by
  have hclosed : (runningIn ns n [] (preparedIn n)).appended (pane n) (failedIn n) =
      disturbed (n :: ns) := Ledger.appended_opened
  have hfits : (disturbed (n :: ns)).Fits := by
    rw [Ledger.Fits,disturbed,disturbed_size hns hall,Ledger.slotSize]
    simp [listed,record_sizes,maxStateBytes]
    omega
  refine ⟨hfits,?_⟩
  rw [← hclosed] at hfits ⊢
  exact sized_append runningIn_active rfl rfl hfits

theorem begun_in (hns : (n :: ns).Nodup) (hall : ∀ m ∈ n :: ns, m < 10000)
    (hlen : ns.length ≤ 4853) :
    sizedWorld.Answers (.holding (runningIn ns n [] (preparedIn n)))
      ⟨.append (pane n) (begunIn n),.ok ()⟩
      (.holding (runningIn ns n [preparedIn n] (begunIn n))) := by
  have happended : (runningIn ns n [] (preparedIn n)).appended (pane n) (begunIn n) =
      runningIn ns n [preparedIn n] (begunIn n) := runningIn_appended rfl
  have hfits : (runningIn ns n [preparedIn n] (begunIn n)).Fits := by
    rw [Ledger.Fits,runningIn,disturbed_size hns hall,Ledger.slotSize,pane_size]
    simp [listed,record_sizes,maxStateBytes]
    omega
  rw [← happended] at hfits ⊢
  exact sized_append runningIn_active rfl rfl hfits

theorem full_in (hns : (n :: ns).Nodup) (hall : ∀ m ∈ n :: ns, m < 10000)
    (hlen : ns.length = 4853) :
    sizedWorld.Answered (.holding (runningIn ns n [preparedIn n] (begunIn n)))
      [⟨.append (pane n) (sentIn n),.error Ledger.sizeError⟩,
        ⟨.escalateUncertain (pane n) (returnedIn n) unrecordedReason,.error Ledger.sizeError⟩]
      (.holding (runningIn ns n [preparedIn n] (begunIn n))) := by
  have hsent : ¬ ((runningIn ns n [preparedIn n] (begunIn n)).appended (pane n) (sentIn n)).Fits := by
    rw [runningIn_appended rfl,Ledger.Fits,runningIn,disturbed_size hns hall,Ledger.slotSize,
      pane_size]
    simp [listed,record_sizes,maxStateBytes,hlen]
  have hescalated : ¬ ((runningIn ns n [preparedIn n] (begunIn n)).escalated (pane n)
      (returnedIn n) unrecordedReason).Fits := by
    rw [runningIn,Ledger.escalated_opened,Ledger.Fits,disturbed_size hns hall,Ledger.slotSize]
    simp [listed,record_sizes,maxStateBytes,hlen]
  -- the store checks a record against the active one before it comes to the size
  have hcas : ∀ {r : ActionRecord}, r.idempotencyKey = keyIn n → r.actionId = _ →
      (runningIn ns n [preparedIn n] (begunIn n)).cas (pane n) r = .ok () := fun hkey hid =>
    JsonActionStore.cas_stored runningIn_active hkey.symm hid.symm
  refine .cons ?_ (.cons (s := .holding (runningIn ns n [preparedIn n] (begunIn n))) ?_ (.nil _))
  · simp [sizedWorld,sizedAnswers,JsonActionStore.holding,Ledger.written,hsent,
      JsonActionStore.append,hcas (r := sentIn n) rfl rfl,JsonActionStore.commit]
  · simp [sizedWorld,sizedAnswers,JsonActionStore.holding,Ledger.written,hescalated,
      JsonActionStore.escalateUncertain,hcas (r := returnedIn n) rfl rfl,JsonActionStore.commit]

theorem passedIn (n : Nat) : @Prelude.Passed chrono render prelude (resumeIn n) :=
  let _ := chrono
  let _ := render
  let h := resume_passed
  ⟨h.valid,h.baseline,h.authorized,h.again,h.rendered,h.recheck⟩

def intervened : LiveEvidence := { paused with humanIntervened := true }

theorem disturbed_trace (n : Nat) :
    let _ := chrono
    let _ := render
    Traces (TxCall.main (.run (resumeIn n))) ((prelude.events (resumeIn n) beginReason).take 5 ++
        [⟨.read,.ok intervened⟩,⟨.append (pane n) (failedIn n),.ok ()⟩])
      (TxCall.returned (.error (.revalidation "human intervention"))) := by
  intro _ _
  have hlive : revalidationRefusal (resumeIn n).action (some prelude.again) intervened =
      some "human intervention" := by rfl
  have hrefused : Traces (revalidate (resumeIn n).action (some prelude.again)).run
      [⟨.read,.ok intervened⟩] (.error (.revalidation "human intervention")) := by
    refine traces_askThen ?_
    refine (traces_orThrow rfl).run_bind (k := []) ?_
    simp only [hlive]
    exact .done _
  refine traces_main ((traces_prepare (passedIn n)).run_bind ?_)
  refine Traces.run_bind_error ?_
  refine hrefused.run_lift.run_bind ?_
  refine traces_askThen ?_
  exact (traces_orThrow rfl).run_bind (k := []) (.done _)

theorem reachable_disturbed (hns : ns.Nodup) (hall : ∀ m ∈ ns, m < 10000)
    (hlen : ns.length ≤ 4853) :
    let _ := chrono
    let _ := render
    ∃ P : Pool txMachine JsonActionStore,
      Pool.Reachable txMachine sizedWorld (fun _ _ => True) JsonActionStore.fresh P ∧
      P.shared.state = disturbed ns ∧ ∀ u ∈ P.threads, ∃ job, u.call = .run job := by
  intro _ _
  induction ns with
  | nil => exact ⟨_,.init,rfl,by simp⟩
  | cons n ns ih =>
    have hlen' : ns.length ≤ 4853 := by
      rw [List.length_cons] at hlen
      omega
    obtain ⟨P,hr,hstate,hruns⟩ := ih (List.nodup_cons.1 hns).2 (List.forall_mem_cons.1 hall).2 hlen'
    have hanswers : sizedWorld.Answered P.shared
        ((prelude.events (resumeIn n) beginReason).take 5 ++ [⟨.read,.ok intervened⟩,
          ⟨.append (pane n) (failedIn n),.ok ()⟩]) (.holding (disturbed (n :: ns))) :=
      (claimed_in hstate hns hall hlen').append
        (.cons rfl (.cons (closed_in hns hall hlen').2 (.nil _)))
    have htrace := disturbed_trace n
    rw [← List.append_nil (_ ++ _)] at htrace
    obtain ⟨q,P',-,rfl,hpath⟩ := Pool.Path.call (W := sizedWorld) htrace hanswers
    refine ⟨_,hpath.reachable (fun _ _ _ => trivial) hr,rfl,?_⟩
    exact List.forall_mem_append.2 ⟨hruns,List.forall_mem_singleton.2 ⟨_,rfl⟩⟩

end History

end Sample

/-- On a host where only the size limit refuses a write, and in every schedule in which there is
room for every record of a run and no recovery appends under the key of a run that is still
going on: whatever a run asks to be recorded after its claim is recorded. -/
theorem claimed_outcome_recorded [Chrono] [Render] {P : Pool txMachine JsonActionStore}
    (hr : Pool.Reachable txMachine sizedWorld (fun V l => unreaped V l ∧ roomy V l)
      JsonActionStore.fresh P)
    {t : Thread txMachine} {job : Job} {target : String} {record : ActionRecord}
    {h k : List TxEvent} (ht : t ∈ P.threads) (hcall : t.call = .run job)
    (hclaim : t.history = h ++ ⟨.claimPrepared target record,.ok true⟩ :: k) :
    ∀ e ∈ k, Recorded e := by
  obtain ⟨R,hsim⟩ := txMachine_simulates
  obtain ⟨Q,hQ,hPQ⟩ := hr.similar hsim
  obtain ⟨i,hi⟩ := List.mem_iff_getElem?.1 ht
  obtain ⟨t',ht',-,htc,hth⟩ := hPQ.thread hi
  intro e he
  refine reachable_recorded hQ t' (List.mem_of_getElem? ht') job (htc.trans hcall) e ?_
  rw [hth,hclaim]
  simp [he]

theorem claimed_outcome_recorded_disturbed :
    let _ := Sample.chrono
    let _ := Sample.render
    ∃ (P : Pool txMachine JsonActionStore) (t : Thread txMachine),
      Pool.Reachable txMachine sizedWorld (fun V l => unreaped V l ∧ roomy V l)
        JsonActionStore.fresh P ∧ P.threads = [t] ∧ t.call = .run (Sample.resumeIn 0) ∧
      ∀ e ∈ [⟨.read,.ok Sample.intervened⟩,
        (⟨.append (Sample.pane 0) (Sample.failedIn 0),.ok ()⟩ : TxEvent)], Recorded e := by
  intro _ _
  have hns : (0 :: ([] : List Nat)).Nodup := by simp
  have hall : ∀ m ∈ 0 :: ([] : List Nat), m < 10000 := by simp
  obtain ⟨hfits,hclosed⟩ := Sample.closed_in hns hall (Nat.zero_le _)
  have hanswers : sizedWorld.Answered JsonActionStore.fresh
      ((Sample.prelude.events (Sample.resumeIn 0) beginReason).take 5 ++
        [⟨.read,.ok Sample.intervened⟩])
      (.holding (Sample.runningIn [] 0 [] (Sample.preparedIn 0))) :=
    (Sample.claimed_in rfl hns hall (Nat.zero_le _)).append (.cons rfl (.nil _))
  have htrace := Sample.disturbed_trace 0
  rw [← List.singleton_append,← List.append_assoc] at htrace
  obtain ⟨q,P,hq,hP,hpath⟩ := Pool.Path.call (P := (⟨.fresh,[]⟩ : Pool txMachine JsonActionStore))
    htrace hanswers
  have hclaimed := hpath.reachable (D := fun V l => unreaped V l ∧ roomy V l) (by
    intro V l hl
    simp only [Prelude.events,List.take_succ_cons,List.take_zero,List.cons_append,List.nil_append,
      List.map_cons,List.map_nil,List.mem_cons,List.not_mem_nil,or_false] at hl
    rcases hl with rfl | rfl | rfl | rfl | rfl | rfl | rfl <;> exact ⟨trivial,trivial⟩) .init
  obtain ⟨q',P',-,rfl,hstep⟩ := Pool.Step.follow (congrArg (·.threads[0]?) hP) rfl rfl hq
    (by rw [hP]; exact hclosed)
  subst hP
  have happended : (Sample.runningIn [] 0 [] (Sample.preparedIn 0)).appended (Sample.pane 0)
      (Sample.failedIn 0) = Sample.disturbed [0] := Ledger.appended_opened
  have hr := hclaimed.step (by
    refine ⟨fun v hv hcall => ?_,fun _ => happended ▸ hfits⟩
    cases hv
    exact (hcall _ rfl).elim) hstep
  refine ⟨_,_,hr,rfl,rfl,?_⟩
  exact claimed_outcome_recorded hr (List.mem_singleton.2 rfl) rfl
    (h := (Sample.prelude.events (Sample.resumeIn 0) beginReason).take 4) rfl

/-- After 4853 disturbed runs, a further one is granted its claim, records `Begun` and types its
input; neither the outcome nor its escalation fits into the file. -/
theorem outcome_refused_by_size :
    let _ := Sample.chrono
    let _ := Sample.render
    ∃ (P : Pool txMachine JsonActionStore) (t : Thread txMachine) (h : List TxEvent),
      Pool.Reachable txMachine sizedWorld (fun _ _ => True) JsonActionStore.fresh P ∧
      t ∈ P.threads ∧ (∀ u ∈ P.threads, ∃ job, u.call = .run job) ∧
      t.history = h ++ [⟨.claimPrepared (Sample.pane 4853) (Sample.preparedIn 4853),.ok true⟩,
        ⟨.read,.ok Sample.paused⟩,⟨.append (Sample.pane 4853) (Sample.begunIn 4853),.ok ()⟩,
        ⟨.execute Sample.resume.action,()⟩,⟨.executeReturns Sample.resume.action,.ok .committed⟩,
        ⟨.append (Sample.pane 4853) (Sample.sentIn 4853),.error Ledger.sizeError⟩,
        ⟨.escalateUncertain (Sample.pane 4853) (Sample.returnedIn 4853) Sample.unrecordedReason,
          .error Ledger.sizeError⟩] := by
  intro _ _
  have hns : (4853 :: List.range 4853).Nodup := by simp [List.nodup_range]
  have hall : ∀ m ∈ 4853 :: List.range 4853, m < 10000 := by
    intro m hm
    simp only [List.mem_cons,List.mem_range] at hm
    omega
  have hlen : (List.range 4853).length = 4853 := List.length_range
  obtain ⟨P,hr,hstate,hruns⟩ := Sample.reachable_disturbed (List.nodup_cons.1 hns).2
    (List.forall_mem_cons.1 hall).2 (Nat.le_of_eq hlen)
  have hsettle : Traces (settle (Sample.prelude.begun (Sample.resumeIn 4853)) .committed).run
      [⟨.append (Sample.pane 4853) (Sample.sentIn 4853),.error Ledger.sizeError⟩,
        ⟨.escalateUncertain (Sample.pane 4853) (Sample.returnedIn 4853) Sample.unrecordedReason,
          .error Ledger.sizeError⟩] (.error (.store Ledger.sizeError)) := by
    have hpersist : Traces (persist (Sample.pane 4853) (Sample.returnedIn 4853) .sent
        sentReason).run [⟨.append (Sample.pane 4853) (Sample.sentIn 4853),.error Ledger.sizeError⟩]
        (.error (.store Ledger.sizeError)) := traces_askThen (.done _)
    refine Traces.run_bind_error (hpersist.run_lift.run_bind ?_)
    refine traces_askThen ?_
    exact Traces.run_bind_error (.done _)
  have htrace := traces_main (traces_run (Sample.passedIn 4853) hsettle)
  have hanswers : sizedWorld.Answered P.shared
      (Sample.prelude.events (Sample.resumeIn 4853) beginReason ++
        [⟨.execute Sample.resume.action,()⟩,⟨.executeReturns Sample.resume.action,.ok .committed⟩,
          ⟨.append (Sample.pane 4853) (Sample.sentIn 4853),.error Ledger.sizeError⟩,
          ⟨.escalateUncertain (Sample.pane 4853) (Sample.returnedIn 4853) Sample.unrecordedReason,
            .error Ledger.sizeError⟩])
      (.holding (Sample.runningIn (List.range 4853) 4853 [Sample.preparedIn 4853]
        (Sample.begunIn 4853))) :=
    (Sample.claimed_in hstate hns hall (Nat.le_of_eq hlen)).append
      (.cons rfl (.cons (Sample.begun_in hns hall (Nat.le_of_eq hlen))
        (.cons rfl (.cons rfl (Sample.full_in hns hall hlen)))))
  rw [← List.append_nil (_ ++ _)] at htrace
  obtain ⟨q,P',-,rfl,hpath⟩ := Pool.Path.call (W := sizedWorld) htrace hanswers
  refine ⟨_,_,(Sample.prelude.events (Sample.resumeIn 4853) beginReason).take 4,
    hpath.reachable (fun _ _ _ => trivial) hr,List.mem_append_right _ (List.mem_singleton.2 rfl),
    List.forall_mem_append.2 ⟨hruns,List.forall_mem_singleton.2 ⟨_,rfl⟩⟩,rfl⟩

end WatchMe
