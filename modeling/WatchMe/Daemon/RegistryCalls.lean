import WatchMe.Daemon.Registry
import WatchMe.Effects.Path

/-! # What a registry call can do

`perform_performed` says it once for all methods: a call is refused, leaves everything as
it is, stores one edited or added watcher, or fails after its file was written. The
revision discipline, the keys of the map and what can be loaded again are read off from it.
-/
namespace WatchMe
open Effects

inductive RegistryCall where
  | register (watcher : WatcherState)
  | transition (id : String) (lifecycle : WatcherLifecycle) (now : Nat)
  | retargetProcess (id : String) (process : ProcessIdentity) (now : Nat)
  | persistRecovery (id : String) (recovery : RecoveryMachine) (now : Nat)
  | applyRecoveryTransition (id : String) (command : RecoveryCommand) (now : Nat)
  | persistObservationSchedule (id : String) (schedule : ObservationSchedule) (now : Nat)
  | persistObservationEvent (id : String) (event : Event) (now : Nat)
  | completeObservation (id : String) (event : Option Event) (now : Nat)
  | commitObservation (id : String) (schedule : ObservationSchedule) (event : Option Event)
      (now : Nat)
  | wakeObservation (id fingerprint : String) (now : Nat)

inductive RegistryReply where
  | done
  | registered (outcome : RegistrationOutcome)
  | moved (state : RecoveryState)

def Registry.Keyed (R : Registry) : Prop :=
  ∀ (id : String) (w : WatcherState), R.watchers[id]? = some w → w.watcherId = id

def Registry.resolves (R : Registry) (watcher : WatcherState) : Option String :=
  match R.watchers[watcher.watcherId]? with
  | some existing =>
    if stableTargetEq existing.target watcher.target then some existing.watcherId else none
  | none =>
    match R.find (fun existing => stableTargetEq existing.target watcher.target) with
    | some existing => some existing.watcherId
    | none =>
      match R.find (fun existing => exactProcessEq existing.target watcher.target) with
      | some existing =>
        if isRicherTarget existing.target watcher.target
            || isRicherTarget watcher.target existing.target then some existing.watcherId
        else none
      | none => none

def revalidates (refresh : Registry.Refresh) : Bool :=
  refresh.processPromotion || refresh.attachmentUpgrade || refresh.replayRevalidated

namespace RegistryCall
variable {answer : Except RegistryError RegistryReply × Registry} {id : String}
variable {w w' : WatcherState} {now : Nat} {c : RegistryCall} {R : Registry}

/-- The watcher a call is about. A registration is answered with the watcher that was
added or that already watches the target. -/
def named : RegistryCall → RegistryReply → String
  | register _, .registered outcome => outcome.id
  | register watcher, _ => watcher.watcherId
  | transition id _ _, _ | retargetProcess id _ _, _ | persistRecovery id _ _, _
  | applyRecoveryTransition id _ _, _ | persistObservationSchedule id _ _, _
  | persistObservationEvent id _ _, _ | completeObservation id _ _, _
  | commitObservation id _ _ _, _ | wakeObservation id _ _, _ => id

/-- A registration of a known target and a wake that is already pending succeed without a
change. -/
def mayRest : RegistryCall → Bool
  | register _ | wakeObservation _ _ _ => true
  | _ => false

def event : RegistryCall → Option Event
  | persistObservationEvent _ event _ => some event
  | completeObservation _ event _ | commitObservation _ _ event _ => event
  | _ => none

def recovery : RegistryCall → Option RecoveryMachine
  | register watcher => watcher.recovery
  | persistRecovery _ machine _ => some machine
  | _ => none

def replied {β : Type} (reply : β → RegistryReply)
    (answer : Except RegistryError β × Registry) :
    Except RegistryError RegistryReply × Registry :=
  (answer.1.map reply,answer.2)

def perform [JsonText] (R : Registry) (host : WriteOutcome) :
    RegistryCall → Except RegistryError RegistryReply × Registry
  | register watcher => replied .registered (R.register watcher host)
  | transition id lifecycle now => replied (fun _ => .done) (R.transition id lifecycle now host)
  | retargetProcess id process now =>
    replied (fun _ => .done) (R.retargetProcess id process now host)
  | persistRecovery id machine now =>
    replied (fun _ => .done) (R.persistRecovery id machine now host)
  | applyRecoveryTransition id command now =>
    replied .moved (R.applyRecoveryTransition id command now host)
  | persistObservationSchedule id schedule now =>
    replied (fun _ => .done) (R.persistObservationSchedule id schedule now host)
  | persistObservationEvent id event now =>
    replied (fun _ => .done) (R.persistObservationEvent id event now host)
  | completeObservation id event now =>
    replied (fun _ => .done) (R.completeObservation id event now host)
  | commitObservation id schedule event now =>
    replied (fun _ => .done) (R.commitObservation id schedule event now host)
  | wakeObservation id fingerprint now =>
    replied (fun _ => .done) (R.wakeObservation id fingerprint now host)

def about (R : Registry) : RegistryCall → Option String
  | register watcher => R.resolves watcher
  | transition id _ _ | retargetProcess id _ _ | persistRecovery id _ _
  | applyRecoveryTransition id _ _ | persistObservationSchedule id _ _
  | persistObservationEvent id _ _ | completeObservation id _ _
  | commitObservation id _ _ _ | wakeObservation id _ _ => some id

/-- The edit of a watcher that the call makes, before the revision is counted. -/
def Edit (w w' : WatcherState) : RegistryCall → Prop
  | register fresh => w' = Registry.refreshed (Registry.refreshOf w fresh) w fresh
  | transition _ lifecycle _ => w' = { w with lifecycle }
  | retargetProcess _ process _ => w' = { w with target := w.target.withProcess process }
  | persistRecovery _ machine _ => w' = { w with recovery := some machine }
  | applyRecoveryTransition _ command _ => ∃ m m', w.recovery = some m ∧
      m.applied command = .ok m' ∧ w' = { w with recovery := some m' }
  | persistObservationSchedule _ schedule _ => w' = { w with observationSchedule := schedule }
  | persistObservationEvent _ event _ => w' = { w with lastObservation := some event }
  | completeObservation _ event now => w' = { w with
      lastObservation := event.orElse fun _ => w.lastObservation
      observationSchedule := Registry.served w.observationSchedule now }
  | commitObservation _ schedule event now => Registry.observed schedule event now w = .ok w'
  | wakeObservation _ fingerprint _ => w' = { w with
      observationSchedule := { w.observationSchedule with
        eventWakePending := true, lastWakeFingerprint := some fingerprint } }

inductive Entry (c : RegistryCall) (R : Registry) : String → WatcherState → Prop
  | added (watcher : WatcherState) : c = .register watcher →
      R.watchers[watcher.watcherId]? = none →
      R.find (fun existing => exactProcessEq existing.target watcher.target) = none →
      Entry c R watcher.watcherId watcher
  | edited (id : String) (w w' : WatcherState) (now : Nat) : R.watchers[id]? = some w →
      Edit w w' c → c.about R = some id → w'.revision < revisionMax →
      Entry c R id { w' with revision := w'.revision + 1, updatedAtUnixMs := now }

section Perform
variable [JsonText]

inductive Performed (c : RegistryCall) (R : Registry) :
    Except RegistryError RegistryReply × Registry → Prop
  | refused (error : RegistryError) : Performed c R (.error error,R)
  | rested (reply : RegistryReply) : c.mayRest = true → Performed c R (.ok reply,R)
  | stored (reply : RegistryReply) (w : WatcherState) (next : StrMap WatcherState) :
      next = R.watchers.insert (c.named reply) w → Entry c R (c.named reply) w →
      JsonText.registryBytes (Registry.encoded next) ≤ maxStateBytes →
      Performed c R (.ok reply,⟨next,some (Registry.encoded next)⟩)
  | landed (error : RegistryError) (id : String) (w : WatcherState)
      (next : StrMap WatcherState) : next = R.watchers.insert id w → Entry c R id w →
      JsonText.registryBytes (Registry.encoded next) ≤ maxStateBytes →
      Performed c R (.error error,⟨R.watchers,some (Registry.encoded next)⟩)

theorem persistWatchers_performed {β : Type} {value : β} {reply : β → RegistryReply}
    (host : WriteOutcome) (hw : Entry c R id w) (hid : c.named (reply value) = id) :
    Performed c R (replied reply (R.persistWatchers (R.watchers.insert id w) value host)) := by
  unfold Registry.persistWatchers
  subst hid
  split
  · exact .refused _
  · next hsize =>
    cases host with
    | stored => exact .stored _ w _ rfl hw (Nat.le_of_not_lt hsize)
    | lost => exact .refused _
    | landed => exact .landed _ _ w _ rfl hw (Nat.le_of_not_lt hsize)

theorem mutate_performed {β : Type}
    {edit : WatcherState → Except RegistryError (WatcherState × β)} {reply : β → RegistryReply}
    (host : WriteOutcome) (habout : c.about R = some id) (hedit : ∀ w w' v, R.watchers[id]? = some w
      → edit w = .ok (w',v) → Edit w w' c ∧ c.named (reply v) = id) :
    Performed c R (replied reply (R.mutate id now edit host)) := by
  unfold Registry.mutate
  cases hw : R.watchers[id]? with
  | none => exact .refused _
  | some w =>
    cases hv : edit w with
    | error error =>
      simp only [hv]
      exact .refused error
    | ok result =>
      obtain ⟨w',v⟩ := result
      obtain ⟨hedits,hid⟩ := hedit w w' v hw hv
      by_cases hrev : w'.revision < revisionMax
      · simp only [hv,nextRevision,if_pos hrev]
        exact persistWatchers_performed host (.edited id w w' now hw hedits habout hrev) hid
      · simp only [hv,nextRevision,if_neg hrev]
        exact .refused _

theorem update_performed {edit : WatcherState → WatcherState} (host : WriteOutcome)
    (hedit : ∀ w, R.watchers[id]? = some w → Edit w (edit w) c) (habout : c.about R = some id)
    (hid : c.named .done = id) :
    Performed c R (replied (fun _ => .done) (R.update id now edit host)) := by
  refine mutate_performed host habout fun w w' v hw hv => ?_
  cases hv
  exact ⟨hedit w hw,hid⟩

theorem register_cases (R : Registry) (fresh : WatcherState) (host : WriteOutcome) :
    (∃ id, R.resolves fresh = some id ∧ (R.register fresh host = R.refreshExisting id fresh host ∨
      R.register fresh host = (.ok (.existing id),R) ∧
        ∃ existing, R.find (fun existing => exactProcessEq existing.target fresh.target) =
            some existing ∧ existing.watcherId = id ∧
          isRicherTarget fresh.target existing.target = true)) ∨
    R.resolves fresh = none ∧ ((∃ error, R.register fresh host = (.error error,R)) ∨
      R.watchers[fresh.watcherId]? = none ∧
      R.find (fun existing => exactProcessEq existing.target fresh.target) = none ∧
      R.register fresh host = R.persistWatchers (R.watchers.insert fresh.watcherId fresh)
        (.added fresh.watcherId) host) := by
  unfold Registry.resolves Registry.register
  cases hw : R.watchers[fresh.watcherId]? with
  | some existing =>
    dsimp only
    cases stableTargetEq existing.target fresh.target with
    | true => exact .inl ⟨_,rfl,.inl rfl⟩
    | false => exact .inr ⟨rfl,.inl ⟨_,rfl⟩⟩
  | none =>
    dsimp only
    cases R.find fun existing => stableTargetEq existing.target fresh.target with
    | some => exact .inl ⟨_,rfl,.inl rfl⟩
    | none =>
      cases R.find fun existing => exactProcessEq existing.target fresh.target with
      | none => exact .inr ⟨rfl,.inr ⟨rfl,rfl,rfl⟩⟩
      | some existing =>
        dsimp only
        cases isRicherTarget existing.target fresh.target with
        | true => exact .inl ⟨_,rfl,.inl rfl⟩
        | false =>
          cases hpoorer : isRicherTarget fresh.target existing.target with
          | true => exact .inl ⟨_,rfl,.inr ⟨rfl,_,rfl,rfl,hpoorer⟩⟩
          | false => exact .inr ⟨rfl,.inl ⟨_,rfl⟩⟩

theorem refreshExisting_cases (R : Registry) (id : String) (fresh : WatcherState)
    (host : WriteOutcome) : (∃ error, R.refreshExisting id fresh host = (.error error,R)) ∨
    R.refreshExisting id fresh host = (.ok (.existing id),R) ∨
    ∃ w, R.watchers[id]? = some w ∧ (revalidates (Registry.refreshOf w fresh) = true ∨
        (Registry.refreshOf w fresh).targetUpgraded = true) ∧
      R.refreshExisting id fresh host = R.mutate id fresh.updatedAtUnixMs
        (fun watcher => .ok (Registry.refreshed (Registry.refreshOf w fresh) watcher fresh,
          if revalidates (Registry.refreshOf w fresh) then .revalidated id else .existing id))
        host := by
  unfold Registry.refreshExisting
  cases hw : R.watchers[id]? with
  | none => exact .inl ⟨_,rfl⟩
  | some w =>
    dsimp only
    split
    · exact .inl ⟨_,rfl⟩
    · split
      · exact .inr (.inl rfl)
      · next hcause =>
        refine .inr (.inr ⟨w,rfl,?_,rfl⟩)
        unfold revalidates
        revert hcause
        generalize Registry.refreshOf w fresh = refresh
        obtain ⟨promotion,upgraded,replay,attachment⟩ := refresh
        cases promotion <;> cases upgraded <;> cases replay <;> cases attachment <;> decide

theorem refreshExisting_performed (R : Registry) (id : String) (fresh : WatcherState)
    (host : WriteOutcome) (hid : R.resolves fresh = some id) :
    Performed (.register fresh) R (replied .registered (R.refreshExisting id fresh host)) := by
  rcases refreshExisting_cases R id fresh host with ⟨error,h⟩ | h | ⟨w,hw,-,h⟩ <;> rw [h]
  · exact .refused error
  · exact .rested _ rfl
  · refine mutate_performed host hid fun v w' o hv ho => ?_
    obtain rfl := Option.some.inj (hw.symm.trans hv)
    cases ho
    refine ⟨rfl,?_⟩
    split <;> rfl

theorem register_performed (R : Registry) (watcher : WatcherState) (host : WriteOutcome) :
    Performed (.register watcher) R (replied .registered (R.register watcher host)) := by
  rcases register_cases R watcher host with
    ⟨id,hid,h | ⟨h,-⟩⟩ | ⟨-,⟨error,h⟩ | ⟨hw,hexact,h⟩⟩ <;> rw [h]
  · exact refreshExisting_performed R id watcher host hid
  · exact .rested _ rfl
  · exact .refused error
  · exact persistWatchers_performed host (.added watcher rfl hw hexact) rfl

theorem wakeObservation_performed (R : Registry) (id fingerprint : String) (now : Nat)
    (host : WriteOutcome) : Performed (.wakeObservation id fingerprint now) R
      (replied (fun _ => .done) (R.wakeObservation id fingerprint now host)) := by
  unfold Registry.wakeObservation
  split
  · exact .refused _
  · cases hw : R.watchers[id]? with
    | none => exact .refused _
    | some =>
      dsimp only
      split
      · exact .rested _ rfl
      · refine update_performed host (fun v hv => ?_) rfl rfl
        obtain rfl := Option.some.inj (hw.symm.trans hv)
        rfl

omit [JsonText] in
theorem applied_of_applyCommand {m m' : RecoveryMachine} {command : RecoveryCommand}
    (h : applyCommand m command = .ok m') : m.applied command = .ok m' := by
  unfold applyCommand at h
  cases happ : m.applied command with
  | error =>
    rw [happ] at h
    cases h
  | ok =>
    rw [happ] at h
    cases h
    rfl

theorem perform_performed (c : RegistryCall) (R : Registry) (host : WriteOutcome) :
    Performed c R (c.perform R host) := by
  cases c with
  | register watcher => exact register_performed R watcher host
  | wakeObservation id fingerprint now =>
    exact wakeObservation_performed R id fingerprint now host
  | transition | retargetProcess | persistObservationSchedule | persistRecovery
  | persistObservationEvent | completeObservation =>
    exact update_performed host (fun _ _ => rfl) rfl rfl
  | applyRecoveryTransition =>
    refine mutate_performed host rfl fun w w' v _ hv => ⟨?_,rfl⟩
    cases hrec : w.recovery with
    | none =>
      simp only [hrec] at hv
      cases hv
    | some machine =>
      simp only [hrec] at hv
      obtain ⟨m₁,h₁,hv⟩ := bind_ok_iff.1 hv
      cases hv
      exact ⟨machine,m₁,hrec,applied_of_applyCommand h₁,rfl⟩
  | commitObservation =>
    refine mutate_performed host rfl fun w w' v _ hv => ⟨?_,rfl⟩
    obtain ⟨w₁,h₁,heq⟩ := map_ok_iff.1 hv
    cases heq
    exact h₁

theorem Performed.stored_edit {R' : Registry} {reply : RegistryReply}
    (h : Performed c R (.ok reply,R')) (hrest : c.mayRest = false) (habout : c.about R = some id) :
    ∃ w w' now, R.watchers[id]? = some w ∧ Edit w w' c ∧ R'.watchers =
      R.watchers.insert id { w' with revision := w'.revision + 1, updatedAtUnixMs := now } := by
  cases h with
  | rested _ h =>
    rw [hrest] at h
    cases h
  | stored _ w next hnext hentry =>
    generalize c.named reply = id' at hnext hentry
    cases hentry with
    | added _ hc =>
      subst hc
      cases hrest
    | edited _ v v' now hv hedit hsame =>
      obtain rfl := Option.some.inj (hsame.symm.trans habout)
      exact ⟨v,v',now,hv,hedit,hnext⟩

theorem Performed.entry {R' : Registry} {answer : Except RegistryError RegistryReply}
    (h : Performed c R (answer,R')) (id : String) :
    R'.watchers[id]? = R.watchers[id]? ∨ ∃ reply w, answer = .ok reply ∧
      R'.watchers[id]? = some w ∧ Entry c R id w := by
  cases h with
  | refused | rested | landed => exact .inl rfl
  | stored reply w next hnext hentry =>
    simp only [hnext,StrMap.getElem?_insert]
    by_cases hid : c.named reply = id
    · exact .inr ⟨reply,w,rfl,if_pos hid,hid ▸ hentry⟩
    · exact .inl (if_neg hid)

end Perform

/-- What an edit of the call makes of a watcher, before the revision is counted. -/
structure Edits (c : RegistryCall) (w w' : WatcherState) : Prop where
  watcherId : w'.watcherId = w.watcherId
  revision : w'.revision = w.revision
  observation : w'.lastObservation = w.lastObservation ∨ w'.lastObservation = c.event
  recovery : ∀ m', w'.recovery = some m' →
    ∃ m, (w.recovery = some m ∨ c.recovery = some m) ∧ m'.fixedPart = m.fixedPart

theorem Edits.plain (hid : w'.watcherId = w.watcherId) (hrev : w'.revision = w.revision)
    (hobs : w'.lastObservation = w.lastObservation) (hrec : w'.recovery = w.recovery) :
    Edits c w w' :=
  ⟨hid,hrev,.inl hobs,fun m' h => ⟨m',.inl (hrec ▸ h),rfl⟩⟩

theorem applyIf_fixedPart {m m' : RecoveryMachine} {command : RecoveryCommand} {b : Bool}
    (h : applyIf b m command = .ok m') : m'.fixedPart = m.fixedPart := by
  unfold applyIf at h
  split at h
  · exact RecoveryMachine.applied_fixedPart (applied_of_applyCommand h)
  · cases h
    rfl

theorem edits_refreshed (refresh : Registry.Refresh) (w fresh : WatcherState) :
    Edits (.register fresh) w (Registry.refreshed refresh w fresh) := by
  unfold Registry.refreshed
  split
  · exact ⟨rfl,rfl,.inr rfl,fun _ h => by cases h⟩
  · split
    · exact ⟨rfl,rfl,.inl rfl,fun m' h => ⟨m',.inr h,rfl⟩⟩
    · exact .plain rfl rfl rfl rfl

theorem observedBy_eq {machine : RecoveryMachine} {event : Event}
    (h : Registry.observedBy w machine event = .ok w') :
    ∃ lifecycle m', w' = { w with lifecycle, recovery := some m' } ∧
      m'.fixedPart = machine.fixedPart := by
  unfold Registry.observedBy at h
  obtain ⟨m₁,h₁,h⟩ := bind_ok_iff.1 h
  obtain ⟨m₂,h₂,h⟩ := bind_ok_iff.1 h
  obtain ⟨m₃,h₃,h⟩ := bind_ok_iff.1 h
  cases h
  exact ⟨_,m₃,rfl,(applyIf_fixedPart h₃).trans
    ((applyIf_fixedPart h₂).trans (applyIf_fixedPart h₁))⟩

theorem edits_observed {schedule : ObservationSchedule} {event : Option Event}
    (h : Registry.observed schedule event now w = .ok w') :
    Edits (.commitObservation id schedule event now) w w' := by
  unfold Registry.observed at h
  cases event with
  | none =>
    cases h
    exact .plain rfl rfl rfl rfl
  | some =>
    unfold Registry.observedMachine at h
    cases hrec : w.recovery with
    | none =>
      simp only [hrec] at h
      cases h
      exact ⟨rfl,rfl,.inr rfl,fun m' hm => by cases hm⟩
    | some machine =>
      simp only [hrec] at h
      obtain ⟨w₁,h₁,rfl⟩ := map_ok_iff.1 h
      obtain ⟨lifecycle,m₁,rfl,hfixed⟩ := observedBy_eq h₁
      refine ⟨rfl,rfl,.inr rfl,fun m' hm => ⟨machine,.inl hrec,?_⟩⟩
      cases hm
      exact hfixed

theorem Edit.edits (h : Edit w w' c) : Edits c w w' := by
  cases c with
  | register fresh =>
    cases h
    exact edits_refreshed _ w fresh
  | transition | retargetProcess | persistObservationSchedule | wakeObservation =>
    cases h
    exact .plain rfl rfl rfl rfl
  | persistRecovery =>
    cases h
    exact ⟨rfl,rfl,.inl rfl,fun m' hm => ⟨m',.inr hm,rfl⟩⟩
  | persistObservationEvent =>
    cases h
    exact ⟨rfl,rfl,.inr rfl,fun m' hm => ⟨m',.inl hm,rfl⟩⟩
  | completeObservation id event =>
    cases h
    refine ⟨rfl,rfl,?_,fun m' hm => ⟨m',.inl hm,rfl⟩⟩
    cases event with
    | none => exact .inl rfl
    | some => exact .inr rfl
  | applyRecoveryTransition =>
    obtain ⟨m,m₁,hrec,happlied,rfl⟩ := h
    refine ⟨rfl,rfl,.inl rfl,fun m' hm => ⟨m,.inl hrec,?_⟩⟩
    cases hm
    exact RecoveryMachine.applied_fixedPart happlied
  | commitObservation => exact edits_observed h

variable [JsonText]

omit [JsonText] in
theorem Entry.watcherId (h : Entry c R id w) (hkeyed : R.Keyed) :
    w.watcherId = id := by
  cases h with
  | added => rfl
  | edited _ w w' now hw hedit => exact hedit.edits.watcherId.trans (hkeyed id w hw)

omit [JsonText] in
theorem Entry.keyed_insert (h : Entry c R id w) (hkeyed : R.Keyed) (i : String)
    (v : WatcherState) (hv : (R.watchers.insert id w)[i]? = some v) : v.watcherId = i := by
  rw [StrMap.getElem?_insert] at hv
  split at hv
  · next heq =>
    cases hv
    exact (h.watcherId hkeyed).trans heq
  · exact hkeyed i v hv

theorem Performed.keyed (h : Performed c R answer) (hkeyed : R.Keyed) : answer.2.Keyed := by
  cases h with
  | refused | rested | landed => exact hkeyed
  | stored reply w next hnext hw =>
    subst hnext
    exact hw.keyed_insert hkeyed

/-- A successful call changes at most the watcher it names, and counts its revision up; a
failed one changes no watcher. -/
structure Disciplined (c : RegistryCall) (R : Registry)
    (answer : Except RegistryError RegistryReply × Registry) : Prop where
  failed : ∀ error, answer.1 = .error error → answer.2.watchers = R.watchers
  others : ∀ reply, answer.1 = .ok reply → ∀ id, id ≠ c.named reply →
    answer.2.watchers[id]? = R.watchers[id]?
  named : ∀ reply, answer.1 = .ok reply →
    (c.mayRest = true ∧ answer.2.watchers = R.watchers) ∨
    (∃ w, c = .register w ∧ R.watchers[c.named reply]? = none ∧
      answer.2.watchers[c.named reply]? = some w) ∨
    ∃ w w', R.watchers[c.named reply]? = some w ∧
      answer.2.watchers[c.named reply]? = some w' ∧ w.revision < w'.revision

theorem Performed.disciplined (h : Performed c R answer) : Disciplined c R answer := by
  cases h with
  | refused | landed => exact ⟨fun _ _ => rfl,nofun,nofun⟩
  | rested reply hrest => exact ⟨nofun,fun _ _ _ _ => rfl,fun _ _ => .inl ⟨hrest,rfl⟩⟩
  | stored reply w next hnext hw =>
    have hself : next[c.named reply]? = some w := by
      rw [hnext,StrMap.getElem?_insert,if_pos rfl]
    refine ⟨nofun,?_,?_⟩
    · rintro _ ⟨⟩ id hid
      simp only [hnext,StrMap.getElem?_insert,if_neg (Ne.symm hid)]
    · rintro _ ⟨⟩
      right
      generalize c.named reply = id at hw hself
      cases hw with
      | added _ hc hnone => exact .inl ⟨w,hc,hnone,hself⟩
      | edited _ v w' now hv hedit =>
        refine .inr ⟨v,_,hv,hself,?_⟩
        simp only [hedit.edits.revision]
        omega

omit [JsonText] in
theorem Disciplined.advances
    (h : Disciplined c R answer) : Advances WatcherState.revision R.get answer.2.get := by
  intro id w hw
  obtain ⟨error | reply,R'⟩ := answer
  · exact ⟨w,(congrArg (·[id]?) (h.failed _ rfl)).trans hw,.inl rfl⟩
  · by_cases hid : id = c.named reply
    · subst hid
      rcases h.named _ rfl with ⟨-,heq⟩ | ⟨v,-,hnone,-⟩ | ⟨v,w',hv,hw',hlt⟩
      · exact ⟨w,(congrArg (·[c.named reply]?) heq).trans hw,.inl rfl⟩
      · cases hnone.symm.trans hw
      · obtain rfl := Option.some.inj (hv.symm.trans hw)
        exact ⟨w',hw',.inr hlt⟩
    · exact ⟨w,(h.others _ rfl id hid).trans hw,.inl rfl⟩

end RegistryCall

end WatchMe
