import WatchMe.Audit.Stages
import WatchMe.Effects.Play

/-! # Retention and appends

A retention works on what it has read: what is appended between its read and its last write is
lost. If appends and other retentions wait for it, and none of its writes fails, then no event is
lost that is within the window of every retention and fits with its successors.
-/
namespace WatchMe
open Effects Program Text

def Rewriting (v : ThreadView auditSig AuditCall (Except String Unit)) : Prop :=
  v.result = none ∧ v.history.any hasRead = true

/-- Appends and retentions wait for the retention that rewrites the file, and its writes do not
fail. -/
def Guarded : Discipline auditSig AuditCall (Except String Unit) AuditFile := fun V l =>
  match l with
  | .act _ ⟨.append _,.ok ()⟩ | .act _ ⟨.read,.ok _⟩ | .act _ ⟨.pathExists,false⟩ =>
    ∀ v ∈ V.threads, ¬ Rewriting v
  | .act _ ⟨.write _ _,.error _⟩ => False
  | _ => True

section Invariant
variable [AuditText]
variable {D : Discipline auditSig AuditCall (Except String Unit) AuditFile}
  {Q : Pool stagedLog AuditFile}

def rulesOf (V : PoolView auditSig AuditCall (Except String Unit) AuditFile) :
    Set (Logs.Rule AuditEvent) :=
  {rule | ∃ v ∈ V.threads, ∃ policy text now, v.call = .applyRetention policy text ∧
    Resolves text v.history now ∧ rule = policy.rule now}

def AuditStage.Busy : AuditStage → Prop
  | found _ _ _ | truncated _ | writing _ _ _ => True
  | _ => False

/-- What a retention has in hand while the log is to hold the given events. -/
def AuditStage.Holds (bytes : List UInt8) (stored : List AuditEvent) : AuditStage → Prop
  | found _ _ events => bytes = linesOf stored ∧ events = stored.map AuditEvent.redact
  | truncated rest => bytes = [] ∧ rest = stored
  | writing offset event rest =>
    offset = bytes.length ∧ bytes ++ linesOf (event :: rest) = linesOf stored
  | _ => True

theorem AuditStage.holds_of_not_busy {s : AuditStage} (h : ¬ s.Busy) (bytes : List UInt8)
    (stored : List AuditEvent) : s.Holds bytes stored := by
  cases s with
  | found | truncated | writing => exact (h trivial).elim
  | opening | restricting | appending | waiting | locating | reading | returned => trivial

/-- The events that the file holds, or will hold when the retention that rewrites it is done. -/
structure LogHolds (Q : Pool stagedLog AuditFile) (stored : List AuditEvent) : Prop where
  retains : Logs.Retains AuditEvent.encodedSize AuditEvent.redact (rulesOf Q.view)
    Q.shared.journal stored
  origin : ∀ event ∈ stored, ∃ first ∈ Q.shared.journal,
    Logs.Rewritten AuditEvent.redact first event
  calm : (∀ t ∈ Q.threads, ¬ AuditStage.Busy t.state) → Q.shared.bytes = linesOf stored
  single : ∀ (i j : Nat) (t u : Thread stagedLog), Q.threads[i]? = some t →
    Q.threads[j]? = some u → AuditStage.Busy t.state → AuditStage.Busy u.state → i = j
  holds : ∀ t ∈ Q.threads, AuditStage.Holds Q.shared.bytes stored t.state

section Steps
variable {Q : Pool stagedLog AuditFile} {stored stored' : List AuditEvent} {i : Nat}
  {t : Thread stagedLog} {e : LogEvent} {s : stagedLog.State} {shared : AuditFile}
  {Q' : Pool stagedLog AuditFile} {l : Label auditSig AuditCall}

theorem rulesOf_step (hs : Pool.Step auditWorld Q l Q') : rulesOf Q.view ⊆ rulesOf Q'.view := by
  rintro rule ⟨v,hv,policy,text,now,hcall,hnow,rfl⟩
  obtain ⟨t,ht,rfl⟩ := List.mem_map.1 hv
  obtain ⟨i,hi⟩ := List.mem_iff_getElem?.1 ht
  obtain ⟨u,hu,huc,huh⟩ := hs.history hi
  refine ⟨u.view,List.mem_map_of_mem (List.mem_of_getElem? hu),policy,text,now,huc.trans hcall,?_,
    rfl⟩
  rw [show u.view.history = _ from huh]
  exact hnow.append _

theorem spawned_not_busy (c : AuditCall) :
    ¬ AuditStage.Busy (Thread.spawned stagedLog c).state := by
  cases c with
  | append => exact id
  | applyRetention policy now =>
    change ¬ (AuditStage.startAt policy (systemTimeOf now)).Busy
    cases systemTimeOf now <;> exact id

theorem LogHolds.quiet (h : LogHolds Q stored) (hs : Pool.Step auditWorld Q l Q')
    (hshared : Q'.shared = Q.shared)
    (hold : ∀ {j : Nat} {u : Thread stagedLog}, Q'.threads[j]? = some u →
      AuditStage.Busy u.state → Q.threads[j]? = some u)
    (hkept : ∀ {j : Nat} {t : Thread stagedLog}, Q.threads[j]? = some t →
      AuditStage.Busy t.state → Q'.threads[j]? = some t) : LogHolds Q' stored := by
  refine ⟨hshared ▸ h.retains.mono (rulesOf_step hs),hshared ▸ h.origin,fun hcalm => ?_,?_,?_⟩
  · rw [hshared]
    refine h.calm fun u hu hbusy => ?_
    obtain ⟨j,hj⟩ := List.mem_iff_getElem?.1 hu
    exact hcalm u (List.mem_of_getElem? (hkept hj hbusy)) hbusy
  · intro j k u v hu hv hbusy hbusy'
    exact h.single j k u v (hold hu hbusy) (hold hv hbusy') hbusy hbusy'
  · intro u hu
    rw [hshared]
    by_cases hbusy : AuditStage.Busy u.state
    · obtain ⟨j,hj⟩ := List.mem_iff_getElem?.1 hu
      exact h.holds u (List.mem_of_getElem? (hold hj hbusy))
    · exact AuditStage.holds_of_not_busy hbusy _ _

theorem LogHolds.moved (hs : Pool.Step auditWorld Q (.act i e) Q')
    (hself : Q'.threads[i]? = some (t.advance e s))
    (hothers : ∀ (j : Nat) (u : Thread stagedLog), Q.threads[j]? = some u → j ≠ i →
      ¬ AuditStage.Busy u.state)
    (hretains : Logs.Retains AuditEvent.encodedSize AuditEvent.redact (rulesOf Q.view)
      Q'.shared.journal stored')
    (horigin : ∀ event ∈ stored', ∃ first ∈ Q'.shared.journal,
      Logs.Rewritten AuditEvent.redact first event)
    (hholds : AuditStage.Holds Q'.shared.bytes stored' s)
    (hcalm : ¬ AuditStage.Busy s → Q'.shared.bytes = linesOf stored') : LogHolds Q' stored' := by
  have hown : ∀ {j : Nat} {u : Thread stagedLog}, Q'.threads[j]? = some u →
      AuditStage.Busy u.state → j = i := by
    intro j u hu hbusy
    cases hs.change hu with
    | acts => rfl
    | waits hu hj => exact (hothers j u hu hj hbusy).elim
  refine ⟨hretains.mono (rulesOf_step hs),horigin,fun hnone => hcalm ?_,?_,?_⟩
  · exact hnone _ (List.mem_of_getElem? hself)
  · intro j k u v hu hv hbusy hbusy'
    exact (hown hu hbusy).trans (hown hv hbusy').symm
  · intro u hu
    obtain ⟨j,hj⟩ := List.mem_iff_getElem?.1 hu
    by_cases hbusy : AuditStage.Busy u.state
    · obtain rfl := hown hj hbusy
      obtain rfl := Option.some.inj (hself.symm.trans hj)
      exact hholds
    · exact AuditStage.holds_of_not_busy hbusy _ _

theorem LogHolds.append (h : LogHolds Q stored) (hs : Pool.Step auditWorld Q (.act i e) Q')
    (hself : Q'.threads[i]? = some (t.advance e s)) {event : AuditEvent}
    (hshared : Q'.shared = ⟨Q.shared.bytes ++ event.line,Q.shared.journal ++ [event]⟩)
    (hfree : ∀ u ∈ Q.threads, ¬ AuditStage.Busy u.state) (hafter : ¬ AuditStage.Busy s) :
    LogHolds Q' (stored ++ [event]) := by
  refine .moved hs hself (fun _ u hu _ => hfree u (List.mem_of_getElem? hu)) ?_ ?_
    (AuditStage.holds_of_not_busy hafter _ _) fun _ => ?_
  · exact hshared ▸ h.retains.append event
  · rw [hshared]
    intro later hlater
    rcases List.mem_append.1 hlater with hlater | hlater
    · obtain ⟨first,hfirst,hrewritten⟩ := h.origin later hlater
      exact ⟨first,List.mem_append_left _ hfirst,hrewritten⟩
    · exact ⟨event,by simp,List.mem_singleton.1 hlater ▸ .refl⟩
  · rw [hshared,h.calm hfree]
    simp [linesOf]

theorem LogHolds.others (h : LogHolds Q stored) (ht : Q.threads[i]? = some t)
    (hbusy : AuditStage.Busy t.state) (j : Nat) (u : Thread stagedLog) (hu : Q.threads[j]? = some u)
    (hj : j ≠ i) : ¬ AuditStage.Busy u.state :=
  fun hu' => hj (h.single j i u t hu ht hu' hbusy)

theorem LogHolds.lines (h : LogHolds Q stored) (hs : Pool.Step auditWorld Q (.act i e) Q')
    {bytes : List UInt8} {rest : List AuditEvent} {offset : Nat} (ht : Q.threads[i]? = some t)
    (hself : Q'.threads[i]? = some (t.advance e (AuditStage.writingFrom offset rest)))
    (hoffset : offset = bytes.length) (hbusy : AuditStage.Busy t.state)
    (hshared : Q'.shared = ⟨bytes,Q.shared.journal⟩)
    (hlines : bytes ++ linesOf rest = linesOf stored) : LogHolds Q' stored := by
  refine .moved hs hself (h.others ht hbusy) (hshared ▸ h.retains) (hshared ▸ h.origin) ?_ ?_ <;>
    rw [hshared]
  · cases rest with
    | nil => trivial
    | cons => exact ⟨hoffset,hlines⟩
  · intro hcalm
    cases rest with
    | nil => simpa [linesOf] using hlines
    | cons => exact (hcalm trivial).elim

end Steps

abbrev AuditReach (M : Machine auditSig AuditCall (Except String Unit))
    (D : Discipline auditSig AuditCall (Except String Unit) AuditFile) (P : Pool M AuditFile) :
    Prop :=
  Pool.Reachable M auditWorld D ⟨[],[]⟩ P

theorem busy_rewriting (hr : AuditReach stagedLog D Q) {t : Thread stagedLog} (ht : t ∈ Q.threads)
    (hbusy : AuditStage.Busy t.state) : Rewriting t.view := by
  have htells := stagedLog_tells (hr.runs t ht)
  obtain ⟨c,s,h,alive⟩ := t
  change AuditStage at s
  cases s with
  | found => exact ⟨rfl,htells.2⟩
  | truncated | writing => exact ⟨rfl,htells.2⟩
  | opening | restricting | appending | waiting | locating | reading | returned => exact hbusy.elim

theorem free_of_guarded (hr : AuditReach stagedLog D Q) (hd : ∀ v ∈ Q.view.threads, ¬ Rewriting v) :
    ∀ u ∈ Q.threads, ¬ AuditStage.Busy u.state :=
  fun u hu hbusy => hd u.view (List.mem_map_of_mem hu) (busy_rewriting hr hu hbusy)

omit [AuditText] in
theorem journal_subset {s s' : AuditFile} {e : LogEvent} (hw : auditWorld.Answers s e s') :
    s.journal ⊆ s'.journal := by
  simp only [auditWorld] at hw
  split at hw
  · rw [hw]
    exact List.subset_append_left _ _
  all_goals simp [hw]

theorem AuditReach.stored (hr : AuditReach stagedLog Guarded Q) :
    (∀ event ∈ Q.shared.journal, event.Readable) → ∃ stored, LogHolds Q stored := by
  refine Pool.Reachable.invariant
   
    (fun _ => ⟨[],.nil,by simp,fun _ => rfl,by simp,by simp⟩) ?_ hr
  intro Q l Q' hr ih hd hs hreadable
  have hstep := hs
  cases hs with
  | spawn c =>
    obtain ⟨stored,h⟩ := ih hreadable
    refine ⟨stored,h.quiet hstep rfl (fun hu hbusy => ?_) fun ht _ => ?_⟩
    · cases hstep.change hu with
      | spawned => exact (spawned_not_busy c hbusy).elim
      | beside _ hu => exact hu
    · exact (List.getElem?_append_left (List.getElem?_eq_some_iff.1 ht).1).trans ht
  | crash shared hrestart => exact hrestart.elim
  | act i t e s shared ht ha hm hw =>
    have htells := stagedLog_tells (hr.runs_at ht)
    obtain ⟨stored,h⟩ := ih fun event hevent => hreadable event (journal_subset hw hevent)
    have hself : (Q.threads.set i (t.advance e s))[i]? = some (t.advance e s) :=
      List.getElem?_set_self (List.getElem?_eq_some_iff.1 ht).1
    have hquiet : shared = Q.shared → ¬ AuditStage.Busy t.state → ¬ AuditStage.Busy s →
        ∃ stored, LogHolds (⟨shared,Q.threads.set i (t.advance e s)⟩ : Pool _ _) stored := by
      intro hshared hbefore hafter
      refine ⟨stored,h.quiet hstep hshared (fun {j u} hu hbusy => ?_) fun {j u} hu hbusy => ?_⟩
      · rcases Pool.getElem?_act ht hu with ⟨-,rfl⟩ | ⟨-,hu⟩
        · exact (hafter hbusy).elim
        · exact hu
      · have hij : i ≠ j := by
          rintro rfl
          obtain rfl := Option.some.inj (hu.symm.trans ht)
          exact hbefore hbusy
        exact (List.getElem?_set_ne hij).trans hu
    have hseen : ∀ (policy : RetentionPolicy) (now : Int), shared = Q.shared →
        s = AuditStage.found policy now (stored.map AuditEvent.redact) →
        (∀ u ∈ Q.threads, ¬ AuditStage.Busy u.state) →
        ∃ stored, LogHolds (⟨shared,Q.threads.set i (t.advance e s)⟩ : Pool _ _) stored := by
      rintro policy now rfl rfl hfree
      exact ⟨stored,.moved hstep hself (fun _ u hu _ => hfree u (List.mem_of_getElem? hu)) h.retains
        h.origin ⟨h.calm hfree,rfl⟩ fun hcalm => (hcalm trivial).elim⟩
    obtain ⟨c,state,history,alive⟩ := t
    change AuditStage at state
    cases hm with
    | opens | unopened | restricts | unappended | clock | unread => exact hquiet hw id id
    | unreadable | present => exact hquiet hw.1 id id
    | @appends event => exact ⟨_,h.append hstep hself hw (free_of_guarded hr hd) id⟩
    | absent =>
      have hfree := free_of_guarded hr hd
      have hnil : stored = [] := linesOf_eq_nil.1 ((h.calm hfree).symm.trans (hw.2 rfl))
      exact hseen _ _ hw.1 (by rw [hnil]; rfl) hfree
    | @reads policy now bytes events hread =>
      obtain ⟨hshared,rfl⟩ : shared = Q.shared ∧ bytes = Q.shared.bytes := hw
      have hfree := free_of_guarded hr hd
      rw [h.calm hfree,readAll_linesOf fun event hevent => ?_] at hread
      · exact hseen policy now hshared (by rw [Except.ok.inj hread]) hfree
      · obtain ⟨first,hfirst,hrewritten⟩ := h.origin event hevent
        exact hreadable first (hshared ▸ hfirst) event hrewritten
    | @truncates policy now events =>
      obtain rfl : shared = ⟨[],Q.shared.journal⟩ := hw
      obtain ⟨⟨text,hcall,hnow⟩,-⟩ := htells
      obtain ⟨-,rfl⟩ := h.holds _ (List.mem_of_getElem? ht)
      have hrule : policy.rule now ∈ rulesOf Q.view :=
        ⟨_,List.mem_map_of_mem (List.mem_of_getElem? ht),policy,text,now,hcall,hnow,rfl⟩
      refine ⟨_,.moved hstep hself (h.others ht trivial) (h.retains.map.prune hrule fun _ => rfl)
        (fun event hevent => ?_) ⟨rfl,rfl⟩ fun hcalm => (hcalm trivial).elim⟩
      -- What is written back was read, and redacted twice on the way.
      obtain ⟨read,hread,rfl⟩ := List.mem_map.1 ((Logs.dropOldest_sublist _ _).subset hevent)
      obtain ⟨old,hold,rfl⟩ := List.mem_map.1 (List.mem_filter.1 hread).1
      obtain ⟨first,hfirst,hrewritten⟩ := h.origin old hold
      exact ⟨first,hfirst,hrewritten.again.again⟩
    | untruncated =>
      obtain rfl : shared = Q.shared := hw
      obtain ⟨hbytes,-⟩ := h.holds _ (List.mem_of_getElem? ht)
      exact ⟨stored,.moved hstep hself (h.others ht trivial) h.retains h.origin trivial
        fun _ => hbytes⟩
    | @begins rest r =>
      obtain rfl : shared = Q.shared := hw
      obtain ⟨hbytes,rfl⟩ := h.holds _ (List.mem_of_getElem? ht)
      exact ⟨rest,h.lines hstep ht hself (by rw [hbytes,List.length_nil]) trivial rfl
        (by rw [hbytes,List.nil_append])⟩
    | @writes offset event rest =>
      obtain ⟨rfl,hlines⟩ := h.holds _ (List.mem_of_getElem? ht)
      have hshared : shared = ⟨Q.shared.bytes ++ event.line,Q.shared.journal⟩ :=
        (show shared = _ from hw).trans (by rw [writeAt_length])
      refine ⟨stored,h.lines hstep ht hself List.length_append.symm trivial hshared ?_⟩
      · rw [List.append_assoc,← linesOf_cons]
        exact hlines
    | unwritten => exact hd.elim

theorem AuditStage.Step.returns {s s' : AuditStage} {e : LogEvent} (hs : Step s e s')
    (h : s' = returned (.ok ())) : (∃ event, s = appending event ∧ e = ⟨.append event,.ok ()⟩) ∨
      (∃ rest, s = truncated rest) ∨ ∃ offset event rest, s = writing offset event rest := by
  cases hs with
  | appends => exact .inl ⟨_,rfl,rfl⟩
  | begins => exact .inr (.inl ⟨_,rfl⟩)
  | writes => exact .inr (.inr ⟨_,_,_,rfl⟩)
  | opens | unopened | restricts | unappended | clock | absent | present | reads | unreadable
  | unread | truncates | untruncated | unwritten => cases h

theorem AuditReach.journaled (hr : AuditReach stagedLog D Q) :
    ∀ t ∈ Q.threads, ∀ event, t.call = .append event →
      t.state = AuditStage.returned (.ok ()) → event.redact ∈ Q.shared.journal := by
  refine Pool.Reachable.invariant (by simp) ?_ hr
  intro Q l Q' hr ih hd hs t ht event hcall hstate
  obtain ⟨j,hj⟩ := List.mem_iff_getElem?.1 ht
  cases hs.change hj with
  | spawned c =>
    obtain rfl : c = .append event := hcall
    cases hstate
  | beside _ ht hshared => exact hshared ▸ ih t (List.mem_of_getElem? ht) event hcall hstate
  | waits ht _ _ _ _ hw => exact journal_subset hw (ih t (List.mem_of_getElem? ht) event hcall hstate)
  | @acts u _ _ hu _ hm hw =>
    have htells := stagedLog_tells (hr.runs_at hu)
    obtain ⟨c,state,history,alive⟩ := u
    obtain rfl : c = .append event := hcall
    rcases AuditStage.Step.returns hm hstate with ⟨appended,rfl,rfl⟩ | ⟨rest,rfl⟩ | ⟨_,_,_,rfl⟩
    · obtain ⟨given,hgiven,rfl⟩ := htells
      cases hgiven
      rw [show Q'.shared = _ from hw]
      exact List.mem_append_right _ (List.mem_singleton_self _)
    · obtain ⟨⟨policy,text,hc⟩,-⟩ := htells
      cases hc
    · obtain ⟨⟨policy,text,hc⟩,-⟩ := htells
      cases hc
  | killed _ hrestart => exact hrestart.elim

end Invariant

section Theorem
variable [AuditText]

/-- The event was appended, is within the window of every retention of the run, and fits into its
limit with everything within the window that was appended later. -/
def LiveIn (P : Pool auditMachine AuditFile) (event : AuditEvent) : Prop :=
  ∃ before after, P.shared.journal = before ++ event.redact :: after ∧
    Logs.Live AuditEvent.encodedSize AuditEvent.redact (rulesOf P.view) event.redact after

/-- The log is read with the event in it, perhaps redacted more than once. -/
def Present (bytes : List UInt8) (event : AuditEvent) : Prop :=
  ∃ events, readAll bytes = .ok events ∧
    ∃ event' ∈ events, Logs.Rewritten AuditEvent.redact event event'

theorem returned_of_result {t : Thread stagedLog} {result : Except String Unit}
    (h : t.view.result = some result) : t.state = AuditStage.returned result := by
  obtain ⟨c,state,history,alive⟩ := t
  change AuditStage at state
  cases state with
  | returned => exact congrArg AuditStage.returned (Option.some.inj h)
  | opening | restricting | appending | waiting | locating | reading | found | truncated
  | writing => cases h

/-- In a run in which appends and retentions wait for the retention that rewrites the file, every
append that returned without an error was written, and no live event is lost. -/
theorem live_events_present {P : Pool auditMachine AuditFile}
    (hr : AuditReach auditMachine Guarded P)
    (hdone : ∀ t ∈ P.threads, t.view.result ≠ none)
    (hreadable : ∀ event ∈ P.shared.journal, event.Readable) :
    (∀ t ∈ P.threads, ∀ event, t.call = .append event → t.view.result = some (.ok ()) →
      event.redact ∈ P.shared.journal) ∧
    ∀ event, LiveIn P event → Present P.shared.bytes event := by
  obtain ⟨R,hsim⟩ := stagedLog_simulates
  obtain ⟨Q,hQ,hsimilar⟩ := hr.similar hsim
  have hview := hsimilar.view
  have hshared : P.shared = Q.shared := hsimilar.shared
  refine ⟨fun t ht event hcall hresult => ?_,fun event hlive => ?_⟩
  · obtain ⟨i,hi⟩ := List.mem_iff_getElem?.1 ht
    obtain ⟨u,hu,huview,hcall',-⟩ := hsimilar.thread hi
    rw [← huview] at hresult
    rw [hshared]
    exact AuditReach.journaled hQ u (List.mem_of_getElem? hu) event (hcall'.trans hcall)
      (returned_of_result hresult)
  · obtain ⟨before,after,hjournal,hlive⟩ := hlive
    rw [hshared] at hjournal hreadable ⊢
    rw [hview] at hlive
    obtain ⟨stored,h⟩ := AuditReach.stored hQ hreadable
    have hcalm : ∀ u ∈ Q.threads, ¬ AuditStage.Busy u.state := by
      refine free_of_guarded hQ fun v hv hrewriting => ?_
      rw [← hview] at hv
      obtain ⟨t,ht,rfl⟩ := List.mem_map.1 hv
      exact hdone t ht hrewriting.1
    obtain ⟨front,event',back,hstored,hrewritten,-⟩ := h.retains before _ after hjournal hlive
    have hread := readAll_linesOf fun event hevent => by
      obtain ⟨first,hfirst,hrewritten⟩ := h.origin event hevent
      exact hreadable first hfirst event hrewritten
    rw [h.calm hcalm]
    refine ⟨_,hread,event'.redact,List.mem_map_of_mem (by simp [hstored]),?_⟩
    obtain ⟨n,rfl⟩ := hrewritten
    exact ⟨n + 2,by rw [Function.iterate_succ_apply',Function.iterate_succ_apply]⟩

end Theorem

deriving instance DecidableEq for RetentionPolicy, AuditCall, AuditFile

def auditHost : Host auditWorld where
  answer s
    | .openAppend | .setPermissions => (.ok (),s)
    | .append event => (.ok (),⟨s.bytes ++ event.line,s.journal ++ [event]⟩)
    | .systemTime => (0,s)
    | .pathExists => (true,s)
    | .read => (.ok s.bytes,s)
    | .openTruncate => (.ok (),⟨[],s.journal⟩)
    | .write offset event => (.ok (),⟨writeAt s.bytes offset event.line,s.journal⟩)
  answers s op _ := by
    cases op with
    | pathExists => exact ⟨rfl,nofun⟩
    | read => exact ⟨rfl,rfl⟩
    | _ => rfl

def auditActs (i steps : Nat) : List (Move auditWorld AuditCall) :=
  List.replicate steps (.act i auditHost)

section Reached
variable [AuditText] {event : AuditEvent} {policy : RetentionPolicy} {now : String} {time : Int}

def unguarded (P : Pool auditMachine AuditFile) : Bool :=
  P.threads.all fun t => t.view.result.isSome || !t.history.any hasRead

def guarded (P : Pool auditMachine AuditFile) : Label auditSig AuditCall → Bool
  | .act _ ⟨.append _,_⟩ | .act _ ⟨.read,_⟩ | .act _ ⟨.pathExists,_⟩ => unguarded P
  | .act _ ⟨.write _ _,.error _⟩ => false
  | _ => true

theorem guarded_of_guarded (P : Pool auditMachine AuditFile) (l : Label auditSig AuditCall)
    (h : guarded P l = true) : Guarded P.view l := by
  have hfree : unguarded P = true → ∀ v ∈ P.view.threads, ¬ Rewriting v := by
    rintro hall v hv ⟨hresult,hread⟩
    obtain ⟨t,ht,rfl⟩ := List.mem_map.1 hv
    have htest := List.all_eq_true.1 hall t ht
    rw [hresult,show t.history.any hasRead = true from hread] at htest
    cases htest
  unfold Guarded
  split
  · exact hfree h
  · exact hfree h
  · exact hfree h
  · cases h
  · trivial

theorem live_last {rules : Set (Logs.Rule AuditEvent)}
    (hstable : ∀ event', Logs.Rewritten AuditEvent.redact event event' → event' = event)
    (h : ∀ rule ∈ rules, rule.keep event = true ∧ event.encodedSize ≤ rule.limit) :
    Logs.Live AuditEvent.encodedSize AuditEvent.redact rules event [] := by
  intro rule hrule
  obtain ⟨hkeep,hsize⟩ := h rule hrule
  refine ⟨hkeep,fun log hlog => ?_⟩
  rw [List.filter_cons_of_pos hkeep] at hlog
  cases hlog with
  | nil => exact Nat.zero_le _
  | cons hhead htail =>
    cases htail
    rw [hstable _ hhead]
    simpa [Logs.total] using hsize
  | cons_right htail =>
    cases htail
    exact Nat.zero_le _

end Reached

namespace Sample

def auditEvent : AuditEvent :=
  ⟨"1.0","2026-01-01T00:00:00Z",some "watcher-1","lifecycle",none,none,some "observing",none,none,
    none,"watcher registered"⟩

@[reducible] def auditText : AuditText where
  parseFromRfc3339 text := if text = "2026-01-01T00:00:00Z" then some 1767225600000000000 else none
  redactText text := text
  eventOfStr text := if text = auditEvent.json then some auditEvent else none

def retentionPolicy : RetentionPolicy := ⟨14,30,10485760⟩

theorem rewritten_auditEvent :
    let _ := auditText
    ∀ event, Logs.Rewritten AuditEvent.redact auditEvent event → event = auditEvent := by
  intro _ event ⟨n,hn⟩
  rw [hn,Function.iterate_fixed (f := AuditEvent.redact) (x := auditEvent) rfl]

theorem auditEvent_readable :
    let _ := auditText
    auditEvent.Readable := by
  intro _ event hevent
  rw [rewritten_auditEvent event hevent]
  exact if_pos rfl

def retains (t : Thread (@auditMachine auditText)) : Bool :=
  match t.call with
  | .applyRetention policy now => decide (policy = retentionPolicy ∧ now = "2026-01-01T00:00:00Z")
  | .append _ => true

theorem auditEvent_live {P : Pool (@auditMachine auditText) AuditFile}
    (hjournal : P.shared.journal = [auditEvent])
    (h : P.threads.all retains = true) :
    @LiveIn auditText P auditEvent := by
  let _ := auditText
  refine ⟨[],[],hjournal,live_last rewritten_auditEvent fun rule hrule => ?_⟩
  have htime : systemTimeOf "2026-01-01T00:00:00Z" = some 1767225600000000000 := by decide +kernel
  obtain ⟨v,hv,policy,text,now,hcall,hnow,rfl⟩ := hrule
  obtain ⟨t,ht,rfl⟩ := List.mem_map.1 hv
  have htest := List.all_eq_true.1 h t ht
  rw [retains,show t.call = _ from hcall] at htest
  obtain ⟨rfl,rfl⟩ := of_decide_eq_true htest
  rcases hnow with hnow | ⟨hnow,-⟩ <;> cases htime.symm.trans hnow
  exact (by decide +kernel : (retentionPolicy.rule 1767225600000000000).keep auditEvent = true ∧
    auditEvent.encodedSize ≤ 10485760)

def emptyLog : Pool (@auditMachine auditText) AuditFile := ⟨⟨[],[]⟩,[]⟩

/-- A retention after an append, and one whose work the append falls into. -/
def keptMoves : List (Move auditWorld AuditCall) :=
  .spawn (.append auditEvent) :: auditActs 0 3 ++
    .spawn (.applyRetention retentionPolicy "2026-01-01T00:00:00Z") :: auditActs 1 5

def keptLog : Pool (@auditMachine auditText) AuditFile := emptyLog.play keptMoves

def lostLog : Pool (@auditMachine auditText) AuditFile :=
  emptyLog.play (.spawn (.applyRetention retentionPolicy "2026-01-01T00:00:00Z") ::
    auditActs 0 2 ++ .spawn (.append auditEvent) :: auditActs 1 3 ++ auditActs 0 2)

end Sample

attribute [local instance] Sample.auditText

theorem live_event_present :
    let _ := Sample.auditText
    ∃ P : Pool auditMachine AuditFile, AuditReach auditMachine Guarded P ∧
      LiveIn P Sample.auditEvent ∧ Present P.shared.bytes Sample.auditEvent := by
  obtain ⟨hallows,hjournal,hdone,hcalls⟩ : Sample.emptyLog.allows guarded Sample.keptMoves = true ∧
      Sample.keptLog.shared.journal = [Sample.auditEvent] ∧
      (Sample.keptLog.threads.all fun t => t.view.result.isSome) = true ∧
      Sample.keptLog.threads.all Sample.retains = true := by
    decide +kernel
  have hreach : AuditReach auditMachine Guarded Sample.keptLog :=
    Pool.Reachable.init.play_at guarded _ guarded_of_guarded hallows
  have hlive := Sample.auditEvent_live hjournal hcalls
  refine ⟨_,hreach,hlive,(live_events_present hreach (fun t ht => ?_) ?_).2 _ hlive⟩
  · exact Option.isSome_iff_ne_none.1 (List.all_eq_true.1 hdone t ht)
  · rw [hjournal]
    exact List.forall_mem_singleton.2 Sample.auditEvent_readable

/-- The event that is appended between the read and the truncation is lost, though it is live. -/
theorem live_event_lost :
    let _ := Sample.auditText
    ∃ P : Pool auditMachine AuditFile, AuditReach auditMachine (fun _ _ => True) P ∧
      (∀ t ∈ P.threads, t.view.result = some (.ok ())) ∧
      (∃ t ∈ P.threads, t.call = .append Sample.auditEvent) ∧
      (∀ event ∈ P.shared.journal, event.Readable) ∧ LiveIn P Sample.auditEvent ∧
      ¬ Present P.shared.bytes Sample.auditEvent := by
  have hreach : AuditReach auditMachine (fun _ _ => True) Sample.lostLog :=
    Pool.Reachable.init.play _ fun _ _ _ => trivial
  have hshared : Sample.lostLog.shared = ⟨[],[Sample.auditEvent]⟩ := by decide +kernel
  obtain ⟨t,u,hthreads,htest⟩ := Pool.exists_threads (l := Sample.lostLog.threads)
    (fun t u => decide (t.view.result = some (.ok ()) ∧ u.view.result = some (.ok ()) ∧
      u.call = .append Sample.auditEvent)) (by decide)
  obtain ⟨ht,hu,hcall⟩ := of_decide_eq_true htest
  refine ⟨_,hreach,?_,⟨u,by simp [hthreads],hcall⟩,?_,
    Sample.auditEvent_live (by rw [hshared]) (by decide +kernel),?_⟩
  · simp [hthreads,ht,hu]
  · rw [hshared]
    exact List.forall_mem_singleton.2 Sample.auditEvent_readable
  · rw [hshared]
    rintro ⟨events,hread,event,hevent,-⟩
    cases hread
    cases hevent

end WatchMe
