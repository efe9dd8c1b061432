import WatchMe.Daemon.JobTraces
import WatchMe.Effects.Ensures

/-! # A wait is two writes

`DaemonRuntimeServices::schedule` stores the schedule of the watcher and then its lifecycle.
An error means to the transaction that nothing happened. It is so unless the first write
reached the file: then the watcher is left postponed, in the file or in memory too, and not
waiting.
-/
namespace WatchMe
open Effects Program

abbrev Wait := ObservationSchedule × WatcherLifecycle

def WatcherState.wait (w : WatcherState) : Wait := (w.observationSchedule,w.lifecycle)

def WatcherWire.wait (wire : WatcherWire) : Wait := (wire.observationSchedule,wire.lifecycle)

namespace Registry
variable {R : Registry} {w : WatcherState}

def fileWaits (R : Registry) (id : String) : Set Wait :=
  {wait | ∃ saved, R.disk = some saved ∧
    ∃ wire ∈ saved.watchers, wire.watcherId = id ∧ wire.wait = wait}

/-- The watcher has the schedule and the lifecycle it had, in memory and in the file. -/
structure Untouched (id : String) (R R' : Registry) : Prop where
  memory : (R'.get id).map WatcherState.wait = (R.get id).map WatcherState.wait
  file : R'.fileWaits id = R.fileWaits id

theorem Untouched.refl (id : String) (R : Registry) : Untouched id R R := ⟨rfl,rfl⟩

theorem fileWaits_encoded {m : StrMap WatcherState} {id : String}
    (hdisk : R.disk = some (encoded m))
    (hkeyed : ∀ (i : String) (v : WatcherState), m[i]? = some v → v.watcherId = i)
    (hw : m[id]? = some w) : R.fileWaits id = {w.wait} := by
  ext wait
  constructor
  · rintro ⟨saved,hsaved,wire,hwire,hid,rfl⟩
    cases hdisk.symm.trans hsaved
    obtain ⟨entry,hentry,rfl⟩ := List.mem_map.1 hwire
    have hv := Std.ExtTreeMap.mem_toList_iff_getElem?_eq_some.1 hentry
    obtain rfl : entry.1 = id := (hkeyed _ _ hv).symm.trans hid
    cases hw.symm.trans hv
    rfl
  · rintro rfl
    exact ⟨_,hdisk,w.encode,List.mem_map.2
      ⟨(id,w),Std.ExtTreeMap.mem_toList_iff_getElem?_eq_some.2 hw,rfl⟩,hkeyed id w hw,rfl⟩

def postponed (w : WatcherState) (untilMs now : Nat) : WatcherState :=
  { w with
    observationSchedule := { w.observationSchedule with
      nextDueWallMs := untilMs, eventWakePending := false }
    revision := w.revision + 1
    updatedAtUnixMs := now }

/-- The registry whose file has the new watcher and whose memory has not. -/
def landed (R : Registry) (id : String) (w : WatcherState) : Registry :=
  { R with disk := some (encoded (R.watchers.insert id w)) }

theorem keyed_insert {id : String} (hkeyed : R.Keyed) (hid : w.watcherId = id) (i : String)
    (v : WatcherState) (hv : (R.watchers.insert id w)[i]? = some v) : v.watcherId = i :=
  have hall : AllOf (fun _ _ => True) R.watchers := fun i v hv => ⟨hkeyed i v hv,trivial⟩
  (hall.insert hid trivial i v hv).1

theorem keyed_put {id : String} (hkeyed : R.Keyed) (hid : w.watcherId = id) : (R.put id w).Keyed :=
  keyed_insert hkeyed hid

theorem fileWaits_put {id : String} (hkeyed : R.Keyed) (hid : w.watcherId = id) :
    (R.put id w).fileWaits id = {w.wait} :=
  fileWaits_encoded rfl (keyed_insert hkeyed hid) (by rw [StrMap.getElem?_insert,if_pos rfl])

theorem fileWaits_landed {id : String} (hkeyed : R.Keyed) (hid : w.watcherId = id) :
    (R.landed id w).fileWaits id = {w.wait} :=
  fileWaits_put hkeyed hid

section Untouched
variable {R : Registry} {id : String} {w u v : WatcherState} (hkeyed : R.Keyed)
include hkeyed

theorem untouched_landed (hid : v.watcherId = id) :
    Untouched id R (R.landed id v) ↔ R.fileWaits id = {v.wait} := by
  constructor
  · intro h
    rw [← h.file,fileWaits_landed hkeyed hid]
  · intro h
    exact ⟨rfl,by rw [h,fileWaits_landed hkeyed hid]⟩

theorem untouched_put_landed (hw : R.get id = some w) (hv : v.watcherId = id)
    (hu : u.watcherId = id) :
    Untouched id R ((R.put id v).landed id u) ↔ v.wait = w.wait ∧ R.fileWaits id = {u.wait} := by
  have hfile : ((R.put id v).landed id u).fileWaits id = {u.wait} :=
    fileWaits_landed (keyed_put hkeyed hv) hu
  have hmemory : ((R.put id v).landed id u).get id = some v := get_put R id v
  constructor
  · intro h
    have hwait := h.memory
    rw [hmemory,hw] at hwait
    exact ⟨Option.some.inj hwait,by rw [← h.file,hfile]⟩
  · rintro ⟨hwait,h⟩
    exact ⟨by rw [hmemory,hw,Option.map_some,hwait]; rfl,by rw [h,hfile]⟩

theorem untouched_put (hw : R.get id = some w) (hv : v.watcherId = id) :
    Untouched id R (R.put id v) ↔ v.wait = w.wait ∧ R.fileWaits id = {v.wait} := by
  have hfile : ((R.put id v).landed id v).fileWaits id = (R.put id v).fileWaits id :=
    (fileWaits_landed (keyed_put hkeyed hv) hv).trans (fileWaits_put hkeyed hv).symm
  rw [← untouched_put_landed hkeyed hw hv hv]
  exact ⟨fun h => ⟨h.memory,hfile.trans h.file⟩,fun h => ⟨h.memory,hfile.symm.trans h.file⟩⟩

end Untouched

section Writes
variable [JsonText] {R : Registry} {id : String} {w : WatcherState}

/-- The registry accepts that a watcher is replaced by the next version of it. -/
def Accepts (R : Registry) (id : String) (w w' : WatcherState) : Prop :=
  w.revision < revisionMax ∧
    JsonText.registryBytes (encoded (R.watchers.insert id w')) ≤ maxStateBytes

def Loses (host : WriteOutcome) : Prop := ∃ reason, host = .lost reason

section Update
variable {now : Nat} {g : WatcherState → WatcherState} {v : WatcherState}
  (hw : R.get id = some w) (hrev : (g w).revision = w.revision)
  (hv : { g w with revision := w.revision + 1, updatedAtUnixMs := now } = v)
include hw hrev hv

theorem update_accepted (haccepts : R.Accepts id w v) (host : WriteOutcome) :
    R.update id now g host = match host with
      | .stored => (.ok (),R.put id v)
      | .lost error => (.error (.store error),R)
      | .landed error => (.error (.store error),R.landed id v) := by
  rw [get] at hw
  simp only [update,mutate,hw,nextRevision,hrev,if_pos haccepts.1,hv,persistWatchers,
    if_neg (Nat.not_lt.2 haccepts.2)]
  rfl

theorem update_refused {host : WriteOutcome} (h : ¬ R.Accepts id w v ∨ Loses host) :
    ∃ error, R.update id now g host = (.error error,R) := by
  by_cases haccepts : R.Accepts id w v
  · obtain ⟨reason,rfl⟩ := h.resolve_left (not_not_intro haccepts)
    exact ⟨_,update_accepted hw hrev hv haccepts _⟩
  · rw [get] at hw
    by_cases hmax : w.revision < revisionMax
    · have hsize : maxStateBytes <
          JsonText.registryBytes (encoded (R.watchers.insert id v)) :=
        Nat.not_le.1 fun h => haccepts ⟨hmax,h⟩
      refine ⟨.store "state path is unsafe: serialized state exceeds size limit",?_⟩
      simp only [update,mutate,hw,nextRevision,hrev,if_pos hmax,hv,persistWatchers,
        if_pos hsize]
    · refine ⟨.revisionOverflow (g w).watcherId,?_⟩
      simp only [update,mutate,hw,nextRevision,hrev,if_neg hmax]

end Update

end Writes

section Schedule
variable [Chrono] [JsonText]

/-- `DaemonRuntimeServices::schedule`, with the outcomes of its two writes. -/
def schedule (R : Registry) (id deadline : String) (now : Nat) (host host' : WriteOutcome) :
    Except String Unit × Registry :=
  match Executor.parseWaitDeadline deadline now with
  | .error reason => (.error reason,R)
  | .ok untilMs => R.scheduleWait id untilMs now host host'

end Schedule

section Outcomes
variable [JsonText] {R : Registry} {id : String} {w : WatcherState} {untilMs now : Nat}
  {host host' : WriteOutcome}

def AcceptsSecond (R : Registry) (id : String) (w : WatcherState) (untilMs now : Nat) : Prop :=
  (R.put id (postponed w untilMs now)).Accepts id (postponed w untilMs now)
    (waitingUntil w untilMs now)

theorem scheduleWait_unknown (hw : R.get id = none) :
    ∃ error, R.scheduleWait id untilMs now host host' = (.error error,R) :=
  ⟨_,by simp only [scheduleWait,hw]; rfl⟩

variable (hw : R.get id = some w)
include hw

theorem scheduleWait_eq :
    R.scheduleWait id untilMs now host host' =
      match R.update id now (fun v => { v with
          observationSchedule := (postponed w untilMs now).observationSchedule }) host with
      | (.error error,R₁) => (.error error.text,R₁)
      | (.ok (),R₁) =>
        let called := R₁.transition id (.waiting untilMs "recovery wait scheduled") now host'
        (called.1.mapError RegistryError.text,called.2) := by
  simp only [scheduleWait,hw]
  rfl

theorem scheduleWait_refused (h : ¬ R.Accepts id w (postponed w untilMs now) ∨ Loses host) :
    ∃ error, R.scheduleWait id untilMs now host host' = (.error error,R) := by
  obtain ⟨error,hcall⟩ := update_refused (g := fun v => { v with
    observationSchedule := (postponed w untilMs now).observationSchedule }) hw rfl rfl h
  exact ⟨error.text,by rw [scheduleWait_eq hw,hcall]⟩

theorem scheduleWait_landed (h : R.Accepts id w (postponed w untilMs now)) (reason : String) :
    ∃ error, R.scheduleWait id untilMs now (.landed reason) host' =
      (.error error,R.landed id (postponed w untilMs now)) :=
  ⟨_,by rw [scheduleWait_eq hw,update_accepted (v := postponed w untilMs now) hw rfl rfl h]⟩

theorem scheduleWait_stored (h : R.Accepts id w (postponed w untilMs now)) :
    R.scheduleWait id untilMs now .stored host' =
      let called := (R.put id (postponed w untilMs now)).transition id
        (.waiting untilMs "recovery wait scheduled") now host'
      (called.1.mapError RegistryError.text,called.2) := by
  rw [scheduleWait_eq hw,update_accepted (v := postponed w untilMs now) hw rfl rfl h]

theorem scheduleWait_between (h : R.Accepts id w (postponed w untilMs now))
    (h' : ¬ AcceptsSecond R id w untilMs now ∨ Loses host') :
    ∃ error, R.scheduleWait id untilMs now .stored host' =
      (.error error,R.put id (postponed w untilMs now)) := by
  obtain ⟨error,hcall⟩ := update_refused (g := fun v => { v with
    lifecycle := .waiting untilMs "recovery wait scheduled" }) (get_put ..) rfl rfl h'
  exact ⟨error.text,by rw [scheduleWait_stored hw h,transition,hcall]; rfl⟩

theorem scheduleWait_second (h : R.Accepts id w (postponed w untilMs now))
    (h' : AcceptsSecond R id w untilMs now) (reason : String) :
    ∃ error, R.scheduleWait id untilMs now .stored (.landed reason) =
      (.error error,(R.put id (postponed w untilMs now)).landed id (waitingUntil w untilMs now)) :=
  ⟨_,by rw [scheduleWait_stored hw h,transition,
    update_accepted (v := waitingUntil w untilMs now) (get_put ..) rfl rfl h']; rfl⟩

end Outcomes

section Fails
variable [Chrono] [JsonText]

/-- The ways in which a call that fails leaves a part of its wait behind. -/
inductive HalfApplied (R : Registry) (id deadline : String) (now : Nat) :
    WriteOutcome → WriteOutcome → Prop
  /-- The first write fails after its file was put in place. -/
  | atFirst (untilMs : Nat) (w : WatcherState) (reason : String) (host' : WriteOutcome) :
      Executor.parseWaitDeadline deadline now = .ok untilMs → R.get id = some w →
      R.Accepts id w (postponed w untilMs now) →
      R.fileWaits id ≠ {(postponed w untilMs now).wait} →
      HalfApplied R id deadline now (.landed reason) host'
  /-- The first write is stored and the second one refused or lost. -/
  | between (untilMs : Nat) (w : WatcherState) (host' : WriteOutcome) :
      Executor.parseWaitDeadline deadline now = .ok untilMs → R.get id = some w →
      R.Accepts id w (postponed w untilMs now) →
      (¬ AcceptsSecond R id w untilMs now ∨ Loses host') →
      ¬ ((postponed w untilMs now).wait = w.wait ∧
        R.fileWaits id = {(postponed w untilMs now).wait}) →
      HalfApplied R id deadline now .stored host'
  /-- The first write is stored and the second one fails after its file was put in place. -/
  | atSecond (untilMs : Nat) (w : WatcherState) (reason : String) :
      Executor.parseWaitDeadline deadline now = .ok untilMs → R.get id = some w →
      R.Accepts id w (postponed w untilMs now) → AcceptsSecond R id w untilMs now →
      ¬ ((postponed w untilMs now).wait = w.wait ∧
        R.fileWaits id = {(waitingUntil w untilMs now).wait}) →
      HalfApplied R id deadline now .stored (.landed reason)

variable {R : Registry} {id deadline : String} {now : Nat} {host host' : WriteOutcome}
  (hkeyed : R.Keyed)
include hkeyed

theorem HalfApplied.touches (h : HalfApplied R id deadline now host host') :
    ∃ error R', R.schedule id deadline now host host' = (.error error,R') ∧
      ¬ Untouched id R R' := by
  unfold schedule
  cases h with
  | atFirst untilMs w reason _ hparse hw hfirst hfile =>
    obtain ⟨error,hcall⟩ := scheduleWait_landed hw hfirst reason
    have hid : (postponed w untilMs now).watcherId = id := hkeyed id w hw
    rw [hparse]
    exact ⟨error,_,hcall,fun h => hfile ((untouched_landed hkeyed hid).1 h)⟩
  | between untilMs w _ hparse hw hfirst hsecond hwaits =>
    obtain ⟨error,hcall⟩ := scheduleWait_between hw hfirst hsecond
    have hid : (postponed w untilMs now).watcherId = id := hkeyed id w hw
    rw [hparse]
    exact ⟨error,_,hcall,fun h => hwaits ((untouched_put hkeyed hw hid).1 h)⟩
  | atSecond untilMs w reason hparse hw hfirst hsecond hwaits =>
    obtain ⟨error,hcall⟩ := scheduleWait_second hw hfirst hsecond reason
    have hid : (postponed w untilMs now).watcherId = id := hkeyed id w hw
    have hid' : (waitingUntil w untilMs now).watcherId = id := hid
    rw [hparse]
    exact ⟨error,_,hcall,fun h => hwaits ((untouched_put_landed hkeyed hw hid hid').1 h)⟩

theorem untouched_of_fails {error : String} {R' : Registry}
    (hhalf : ¬ HalfApplied R id deadline now host host')
    (h : R.schedule id deadline now host host' = (.error error,R')) : Untouched id R R' := by
  -- An answer that leaves the registry as it was.
  have hsame : ∀ {answer : Except String Unit × Registry}, answer = (.error error,R') →
      (∃ e, answer = (.error e,R)) → Untouched id R R' := by
    rintro _ rfl ⟨e,heq⟩
    cases heq
    exact .refl id R
  unfold schedule at h
  cases hparse : Executor.parseWaitDeadline deadline now with
  | error reason => exact hsame (by rw [hparse] at h; exact h) ⟨reason,rfl⟩
  | ok untilMs =>
    rw [hparse] at h
    cases hw : R.get id with
    | none => exact hsame h (scheduleWait_unknown hw)
    | some w =>
      have hid : (postponed w untilMs now).watcherId = id := hkeyed id w hw
      have hid' : (waitingUntil w untilMs now).watcherId = id := hid
      by_cases hfirst : R.Accepts id w (postponed w untilMs now)
      · cases host with
        | lost reason => exact hsame h (scheduleWait_refused hw (.inr ⟨reason,rfl⟩))
        | landed reason =>
          obtain ⟨e,hcall⟩ := scheduleWait_landed hw hfirst reason
          cases hcall.symm.trans h
          exact (untouched_landed hkeyed hid).2
            (not_not.1 fun hfile => hhalf (.atFirst untilMs w reason _ hparse hw hfirst hfile))
        | stored =>
          by_cases hsecond : AcceptsSecond R id w untilMs now ∧ ¬ Loses host'
          · cases host' with
            | lost reason => exact (hsecond.2 ⟨reason,rfl⟩).elim
            | stored =>
              dsimp only at h
              rw [scheduleWait_stored hw hfirst,transition,
                update_accepted (v := waitingUntil w untilMs now) (get_put ..) rfl rfl hsecond.1] at h
              cases h
            | landed reason =>
              obtain ⟨e,hcall⟩ := scheduleWait_second hw hfirst hsecond.1 reason
              cases hcall.symm.trans h
              exact (untouched_put_landed hkeyed hw hid hid').2 (not_not.1 fun hwaits =>
                hhalf (.atSecond untilMs w reason hparse hw hfirst hsecond.1 hwaits))
          · have hstopped : ¬ AcceptsSecond R id w untilMs now ∨ Loses host' := by
              rwa [not_and_or,not_not] at hsecond
            obtain ⟨e,hcall⟩ := scheduleWait_between hw hfirst hstopped
            cases hcall.symm.trans h
            exact (untouched_put hkeyed hw hid).2 (not_not.1 fun hwaits =>
              hhalf (.between untilMs w host' hparse hw hfirst hstopped hwaits))
      · exact hsame h (scheduleWait_refused hw (.inl hfirst))

/-- A wait that fails leaves the watcher untouched exactly when it was not half applied. -/
theorem schedule_fails_untouched_iff :
    (∀ error R', R.schedule id deadline now host host' = (.error error,R') →
      Untouched id R R') ↔ ¬ HalfApplied R id deadline now host host' := by
  constructor
  · intro h hhalf
    obtain ⟨error,R',hcall,htouched⟩ := hhalf.touches hkeyed
    exact htouched (h error R' hcall)
  · intro hhalf error R' hcall
    exact untouched_of_fails hkeyed hhalf hcall

end Fails

end Registry

namespace Sample
open Registry

def full : WriteOutcome := .lost "no space left on device"

theorem snapshot_get : (single snapshot).get "watcher-1" = some snapshot := single_get snapshot

theorem ninety_seconds :
    let _ := chrono
    Executor.parseWaitDeadline "monotonic+90s" 1000 = .ok 91000 := by
  decide +kernel

theorem snapshot_accepts :
    let _ := jsonText
    (single snapshot).Accepts "watcher-1" snapshot (postponed snapshot 91000 1000) :=
  ⟨by decide,Nat.zero_le _⟩

end Sample

theorem schedule_fails_untouched_first :
    let _ := Sample.chrono
    let _ := Sample.jsonText
    (∃ error, (Registry.single Sample.snapshot).schedule "watcher-1" "monotonic+90s" 1000
      Sample.full .stored = (.error error,Registry.single Sample.snapshot)) ∧
    ∀ error R', (Registry.single Sample.snapshot).schedule "watcher-1" "monotonic+90s" 1000
      Sample.full .stored = (.error error,R') →
        Registry.Untouched "watcher-1" (Registry.single Sample.snapshot) R' := by
  intro _ _
  refine ⟨?_,(Registry.schedule_fails_untouched_iff (Registry.single_keyed Sample.snapshot)).2
    nofun⟩
  rw [Registry.schedule,Sample.ninety_seconds]
  exact Registry.scheduleWait_refused Sample.snapshot_get (.inr ⟨_,rfl⟩)

/-- The second write is lost: the wait fails, and the watcher is due in ninety seconds in
memory and in the file, but does not wait. -/
theorem schedule_fails_postponed :
    let _ := Sample.chrono
    let _ := Sample.jsonText
    ∃ error R', (Registry.single Sample.snapshot).schedule "watcher-1" "monotonic+90s" 1000
        .stored Sample.full = (.error error,R') ∧
      (R'.get "watcher-1").map (fun w => (w.observationSchedule.nextDueWallMs,w.lifecycle)) =
        some (91000,.observing) ∧
      Sample.snapshot.observationSchedule.nextDueWallMs = 0 ∧
      ¬ Registry.Untouched "watcher-1" (Registry.single Sample.snapshot) R' := by
  intro _ _
  have hlost : Registry.Loses Sample.full := ⟨_,rfl⟩
  obtain ⟨error,hcall⟩ :=
    Registry.scheduleWait_between Sample.snapshot_get Sample.snapshot_accepts (.inr hlost)
  refine ⟨error,_,by rw [Registry.schedule,Sample.ninety_seconds]; exact hcall,?_,rfl,?_⟩
  · rw [Registry.get_put]
    rfl
  · intro h
    have hwait := ((Registry.untouched_put (Registry.single_keyed Sample.snapshot)
      Sample.snapshot_get rfl).1 h).1
    have hdue : (91000 : Nat) = 0 := congrArg (fun wait => wait.1.nextDueWallMs) hwait
    cases hdue

end WatchMe
