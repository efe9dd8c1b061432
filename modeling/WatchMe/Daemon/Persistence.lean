import WatchMe.Daemon.Commit
import WatchMe.Daemon.Observer

/-! # Whatever is written can be loaded

A load decodes every watcher of the file, checks the schema of its machine and counts its
revision up. The registry checks none of this when it writes, so the file can be loaded again
as far as the calls brought in events and machines that pass.
-/
namespace WatchMe
namespace Registry

def empty : Registry := ⟨∅,none⟩

structure Reloadable [Chrono] (w : WatcherState) : Prop where
  decodable : w.Decodable
  schema : ∀ m, w.recovery = some m → m.schemaVersion = 1

theorem Reloadable.afterRestart [Chrono] {w : WatcherState} (h : Reloadable w) :
    Reloadable (afterRestart w) where
  decodable := h.decodable
  schema m hm := by
    obtain ⟨m₀,hm₀,rfl⟩ := Option.map_eq_some_iff.1 hm
    exact (machineAtRestart_schema w).2 h.schema m₀ hm₀

end Registry

/-- What a call brings into the registry passes the checks of a later load. -/
structure RegistryCall.Decodable [Chrono] (c : RegistryCall) : Prop where
  event : ∀ e, c.event = some e → e.validate = .ok ()
  recovery : ∀ m, c.recovery = some m → m.schemaVersion = 1
  registered : ∀ w, c = .register w → w.Decodable

namespace Registry
variable [Chrono]
variable {c : RegistryCall} {R R' : Registry} {w : WatcherState} {h : List RegistryEvent}

theorem reloadable_entry {id : String} (hR : R.Holds fun _ => Reloadable) (hc : c.Decodable)
    (h : RegistryCall.Entry c R id w) : Reloadable w := by
  cases h with
  | added _ hregister =>
    subst hregister
    exact ⟨hc.registered w rfl,hc.recovery⟩
  | edited _ v v' now hv hedit =>
    have hold := (hR.memory id v hv).2
    have hedits := hedit.edits
    refine ⟨?_,fun m' hm' => ?_⟩
    · change decodeObservation v'.lastObservation = .ok ()
      rcases hedits.observation with hsame | hevent
      · rw [hsame]
        exact hold.decodable
      · cases hcalled : c.event with
        | none =>
          rw [hevent,hcalled]
          rfl
        | some event =>
          rw [hevent,hcalled]
          exact hc.event event hcalled
    · obtain ⟨m,hor,hfixed⟩ := hedits.recovery m' hm'
      have hschema : m'.schemaVersion = m.schemaVersion := congrArg Prod.fst hfixed
      rw [hschema]
      rcases hor with hm | hm
      · exact hold.schema m hm
      · exact hc.recovery m hm

variable [JsonText]

def Fits (R : Registry) : Prop :=
  ∀ saved, R.disk = some saved → JsonText.registryBytes saved ≤ maxStateBytes

/-- The file holds what is in memory; there is none before the first write. -/
def Synced (R : Registry) : Prop := R.disk.getD (encoded ∅) = encoded R.watchers

omit [Chrono] in
theorem Fits.performed {answer : Except RegistryError RegistryReply × Registry} (h : R.Fits)
    (hp : RegistryCall.Performed c R answer) : answer.2.Fits := by
  cases hp with
  | refused | rested => exact h
  | stored _ _ _ _ _ hsize | landed _ _ _ _ _ _ hsize =>
    intro saved hsaved
    cases hsaved
    exact hsize

theorem load_fits {disk : Option PersistedRegistry} (host : LoadHost)
    (h : ∀ saved, disk = some saved → JsonText.registryBytes saved ≤ maxStateBytes) :
    ∀ saved, (load disk host).2 = some saved → JsonText.registryBytes saved ≤ maxStateBytes := by
  have hl := load_loaded disk host
  generalize load disk host = answer at hl ⊢
  cases hl with
  | failed | kept => exact h
  | written m m' _ _ _ hsize =>
    rintro saved ⟨⟩
    exact hsize

theorem Fits.reloads (h : R.Fits) (hr : Reloads R.disk R') : R'.Fits := by
  unfold Fits at h
  generalize R.disk = disk at h hr
  induction hr with
  | @loaded disk host R' hload =>
    intro saved hsaved
    rw [(load_disk disk host).2 R' hload] at hsaved
    exact load_fits host h saved hsaved
  | @retried disk host R' _ ih => exact ih (load_fits host h)

omit [Chrono] [JsonText] in
theorem afterRestart_eq (h : transits w = false) : afterRestart w = w := by
  simp only [transits,Bool.or_eq_false_iff,Option.isSome_eq_false_iff,Option.isNone_iff_eq_none,
    Bool.not_eq_false'] at h
  have hrecovery : restoredRecovery w = w.recovery := by
    rw [restoredRecovery,h.1,machineAtRestart_none h.1]
    rfl
  simp [afterRestart,hrecovery,h.2]

theorem load_synced {disk : Option PersistedRegistry} {host : LoadHost}
    {φ : String → WatcherState → Prop}
    (hfile : ∀ saved, disk = some saved → ∃ m, saved = encoded m ∧ AllOf φ m)
    (h : (load disk host).1 = .ok R) : R.Synced := by
  have hl := load_loaded disk host
  generalize load disk host = answer at hl h
  cases hl with
  | failed => cases h
  | written _ _ _ _ _ _ hR =>
    cases hR R h
    rfl
  | kept m m' hload hm' hquiet =>
    cases h
    -- nothing was replayed, so the watchers are those of the file
    have hsame : m' = m := by
      rw [hm']
      refine Std.ExtTreeMap.ext_getElem? fun id => ?_
      rw [Std.ExtTreeMap.getElem?_map]
      cases hw : m[id]? with
      | none => rfl
      | some w =>
        simp only [List.any_eq_false,Bool.not_eq_true] at hquiet
        exact congrArg some (afterRestart_eq
          (hquiet (id,w) (Std.ExtTreeMap.mem_toList_iff_getElem?_eq_some.2 hw)))
    unfold Synced
    rw [hsame]
    cases disk with
    | none =>
      rw [loadWatchers_none hload]
      rfl
    | some saved =>
      obtain ⟨m₀,rfl,hm₀⟩ := hfile saved rfl
      rw [loadWatchers_eq (fun id w hw => (hm₀ id w hw).1) hload]
      rfl

structure Durable (h : List RegistryEvent) (R : Registry) : Prop where
  holds : R.Holds fun _ => Reloadable
  fits : R.Fits
  synced : (∀ c error, RegistryCall.answered c (.error error) ∉ h) → R.Synced

theorem Durable.call {answer : Except RegistryError RegistryReply} (hd : Durable h R)
    (hp : RegistryCall.Performed c R (answer,R')) (hc : c.Decodable) :
    Durable (h ++ [c.answered answer]) R' where
  holds := hd.holds.performed hp fun _ _ => reloadable_entry hd.holds hc
  fits := hd.fits.performed hp
  synced hok := by
    have hold := hd.synced fun c error hmem => hok c error (List.mem_append_left _ hmem)
    cases hp with
    | refused | rested => exact hold
    | stored => rfl
    | landed error => exact (hok c error (by simp)).elim

theorem Durable.reloads {e : RegistryEvent} (hd : Durable h R) (hr : Reloads R.disk R') :
    Durable (h ++ [e]) R' where
  holds := hd.holds.reloads (fun _ _ hw => hw.afterRestart) hr
  fits := hd.fits.reloads hr
  synced _ := by
    have hfile := hd.holds.file
    generalize R.disk = disk at hfile hr
    induction hr with
    | loaded hload => exact load_synced hfile hload
    | @retried disk host R' _ ih =>
      have hrestarts : Restarts (AllOf fun _ => Reloadable) :=
        AllOf.restarts fun _ _ hw => hw.afterRestart
      exact ih (Saves.load hrestarts hfile host)

end Registry

namespace Sample

def rolloutBinding : CodexRolloutBinding := ⟨1,2,20,3⟩

def codexWatcher : WatcherState :=
  { WatcherState.new "watcher-1" (.process (.new 7 1)) .registered 0 0 with
    codexSession := some
      ⟨"thread-1","/work/rollout.jsonl",1,"/work",none,some rolloutBinding,none,none⟩ }

def goalRecord : Json :=
  .object [("thread_id",.string "thread-1"),("goal",.object [("status",.string "blocked")]),
    ("last_error",.object [("category",.string "capacity")])]

def blockedGoal : CodexGoalSnapshot :=
  ⟨"thread-1",some "blocked",none,none,[],some "capacity",false,none⟩

@[reducible] def texts : Texts where
  parseFromRfc3339 _ := some 0
  fromStr _ := some goalRecord
  toRfc3339 _ := "2026-01-01T00:00:00Z"

@[reducible] def snapshotBytes : SnapshotBytes := ⟨fun _ => []⟩

def rolloutHost : CodexHost :=
  ⟨none,true,some,fun _ => some rolloutBinding,fun _ => some "goal\n",0⟩

end Sample

namespace Registry
variable [Chrono] [JsonText]

end Registry

section Registered
attribute [local instance] Sample.chrono Sample.jsonText

end Registered

namespace Sample
attribute [local instance] texts digest snapshotBytes jsonText

def registered : Registry := called Registry.empty (.register codexWatcher)

end Sample

attribute [local instance] Sample.texts Sample.digest Sample.snapshotBytes Sample.jsonText

end WatchMe
