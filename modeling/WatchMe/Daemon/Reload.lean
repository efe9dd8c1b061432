import WatchMe.Daemon.RegistryCalls

/-! # Loading what was written

A restart decodes the file, moves every watcher to its state after a restart and writes
the result back. -/
namespace WatchMe
namespace Registry
variable {w : WatcherState} {transitioned : Bool} {m : StrMap WatcherState} {host : LoadHost}
  {disk : Option PersistedRegistry} {R : Registry}

def restoredRecovery (w : WatcherState) : Option RecoveryMachine :=
  (machineAtRestart w).map fun m =>
    m.moved .needsRevalidation "restart requires live revalidation"

/-- The documented restart of a watcher: its machine asks for revalidation, and unless it
had ended it is handed to a human under the next revision. -/
def afterRestart (w : WatcherState) : WatcherState :=
  { w with
    recovery := restoredRecovery w
    lifecycle :=
      if endsAtRestart w.lifecycle then w.lifecycle else .humanRequired restartRevalidationReason
    revision := if endsAtRestart w.lifecycle then w.revision else w.revision + 1 }

/-- Whether the restart counts as a transition, so that the file is written again. -/
def transits (w : WatcherState) : Bool :=
  (machineAtRestart w).isSome || !endsAtRestart w.lifecycle

structure Restartable (w : WatcherState) : Prop where
  schema : ∀ m, w.recovery = some m → m.schemaVersion = 1
  revision : endsAtRestart w.lifecycle = false → w.revision < revisionMax

theorem machineAtRestart_schema (w : WatcherState) :
    (∀ m, machineAtRestart w = some m → m.schemaVersion = 1) ↔
      ∀ m, w.recovery = some m → m.schemaVersion = 1 := by
  unfold machineAtRestart
  split
  · next h =>
    simp only [Bool.and_eq_true,Option.isNone_iff_eq_none] at h
    simp [h.2,RecoveryMachine.new]
  · rfl

theorem machineAtRestart_none (h : machineAtRestart w = none) : w.recovery = none := by
  unfold machineAtRestart at h
  split at h
  · cases h
  · exact h

theorem restoredMachine_ok_iff {w' : WatcherState} :
    restoredMachine w = .ok (w',transitioned) ↔
      (∀ m, w.recovery = some m → m.schemaVersion = 1) ∧
      { w with recovery := restoredRecovery w } = w' ∧
      (machineAtRestart w).isSome = transitioned := by
  rw [← machineAtRestart_schema]
  unfold restoredMachine restoredRecovery
  cases hm : machineAtRestart w with
  | none =>
    have hsame : { w with recovery := none } = w := by
      rw [← machineAtRestart_none hm]
    simp [hsame]
  | some m =>
    by_cases hv : m.schemaVersion = 1
    · simp [RecoveryMachine.restoreForRestart,hv,Except.map,Except.mapError]
    · simp [RecoveryMachine.restoreForRestart,hv,Except.map,Except.mapError]

theorem restarted_ok_iff {w' : WatcherState} :
    restarted w = .ok (w',transitioned) ↔ Restartable w ∧ w' = afterRestart w ∧
      transitioned = transits w := by
  have hsplit : restarted w = .ok (w',transitioned) ↔
      (∀ m, w.recovery = some m → m.schemaVersion = 1) ∧
      restoredLifecycle { w with recovery := restoredRecovery w } (machineAtRestart w).isSome =
        .ok (w',transitioned) := by
    unfold restarted
    rw [bind_ok_iff]
    constructor
    · rintro ⟨⟨w₁,t₁⟩,h₁,h₂⟩
      obtain ⟨hschema,rfl,rfl⟩ := restoredMachine_ok_iff.1 h₁
      exact ⟨hschema,h₂⟩
    · rintro ⟨hschema,h₂⟩
      exact ⟨_,restoredMachine_ok_iff.2 ⟨hschema,rfl,rfl⟩,h₂⟩
  rw [hsplit]
  unfold restoredLifecycle afterRestart transits
  by_cases hend : endsAtRestart w.lifecycle = true
  · constructor
    · rintro ⟨hschema,h⟩
      simp only [hend,if_true] at h
      cases h
      exact ⟨⟨hschema,by simp [hend]⟩,by simp [hend],by simp [hend]⟩
    · rintro ⟨hr,rfl,rfl⟩
      exact ⟨hr.schema,by simp [hend]⟩
  · simp only [Bool.not_eq_true] at hend
    constructor
    · rintro ⟨hschema,h⟩
      simp only [hend,Bool.false_eq_true,if_false] at h
      obtain ⟨revision,hrev,heq⟩ := map_ok_iff.1 h
      unfold nextRevision at hrev
      split at hrev
      · next hlt =>
        cases hrev
        cases heq
        exact ⟨⟨hschema,fun _ => hlt⟩,by simp [hend],by simp [hend]⟩
      · cases hrev
    · rintro ⟨hr,rfl,rfl⟩
      refine ⟨hr.schema,?_⟩
      simp [hend,nextRevision,hr.revision hend,Except.map]

theorem restartedEntry_ok_iff {entry : String × WatcherState}
    {e : (String × WatcherState) × Bool} : restartedEntry entry = .ok e ↔
      Restartable entry.2 ∧ e = ((entry.1,afterRestart entry.2),transits entry.2) := by
  unfold restartedEntry
  rw [map_ok_iff]
  constructor
  · rintro ⟨⟨w',t⟩,h,rfl⟩
    obtain ⟨hr,rfl,rfl⟩ := restarted_ok_iff.1 h
    exact ⟨hr,rfl⟩
  · rintro ⟨hr,rfl⟩
    exact ⟨_,restarted_ok_iff.2 ⟨hr,rfl,rfl⟩,rfl⟩

theorem replay_ok_iff {m' : StrMap WatcherState} :
    replay m = .ok (m',transitioned) ↔
      (∀ (id : String) (w : WatcherState), m[id]? = some w → Restartable w) ∧
      m' = m.map (fun _ w => afterRestart w) ∧
      transitioned = m.toList.any (fun entry => transits entry.2) := by
  have hmap : Std.ExtTreeMap.ofList (m.toList.map fun entry => (entry.1,afterRestart entry.2)) =
      m.map fun _ w => afterRestart w := by
    rw [← StrMap.ofList_toList (m.map _),Std.ExtTreeMap.toList_map]
  unfold replay
  simp only [bind_ok_iff,mapM_ok_iff fun _ _ => restartedEntry_ok_iff]
  constructor
  · rintro ⟨entries,⟨hall,rfl⟩,h⟩
    cases h
    refine ⟨fun id w hw => ?_,?_,by simp [List.any_map,Function.comp_def]⟩
    · exact hall (id,w) (Std.ExtTreeMap.mem_toList_iff_getElem?_eq_some.2 hw)
    · rw [← hmap,List.map_map]
      rfl
  · rintro ⟨hall,rfl,rfl⟩
    refine ⟨_,⟨fun entry he => ?_,rfl⟩,?_⟩
    · exact hall entry.1 entry.2 (Std.ExtTreeMap.mem_toList_iff_getElem?_eq_some.1 he)
    · rw [← hmap,List.map_map]
      simp [List.any_map,Function.comp_def,pure,Except.pure]

theorem collected_keyed {watchers : List WatcherState} {id : String}
    (h : (collected watchers)[id]? = some w) : w.watcherId = id := by
  obtain ⟨v,-,heq⟩ := List.mem_map.1 (StrMap.mem_of_getElem?_ofList h)
  cases heq
  rfl

theorem afterRestart_keyed {id : String}
    (hkeyed : ∀ (id : String) (w : WatcherState), m[id]? = some w → w.watcherId = id)
    (h : (m.map fun _ w => afterRestart w)[id]? = some w) : w.watcherId = id := by
  rw [Std.ExtTreeMap.getElem?_map,Option.map_eq_some_iff] at h
  obtain ⟨v,hv,rfl⟩ := h
  exact hkeyed id v hv

variable [Chrono] [JsonText]

theorem loadWatchers_some {saved : PersistedRegistry} (h : loadWatchers (some saved) host = .ok m) :
    ∃ watchers, saved.watchers.mapM WatcherWire.decode = .ok watchers ∧ m = collected watchers := by
  unfold loadWatchers at h
  obtain ⟨outcome,hstore,h⟩ := bind_ok_iff.1 h
  unfold readStore at hstore
  have hquarantine : ∀ quarantine : Except String String,
      (quarantine.mapError RegistryError.store).map LoadOutcome.corrupt ≠ .ok outcome := by
    rintro (error | text) heq
    · cases heq
    · cases heq
      cases h
  cases hread : host.readError with
  | some =>
    simp only [hread] at hstore
    cases hstore
  | none =>
    simp only [hread] at hstore
    split at hstore
    · exact (hquarantine _ hstore).elim
    · cases hdecode : saved.watchers.mapM WatcherWire.decode with
      | error =>
        simp only [hdecode] at hstore
        exact (hquarantine _ hstore).elim
      | ok watchers =>
        simp only [hdecode] at hstore
        cases hstore
        dsimp only at h
        split at h
        · cases h
          exact ⟨watchers,rfl,rfl⟩
        · cases h

theorem loadWatchers_none (h : loadWatchers none host = .ok m) : m = ∅ := by
  unfold loadWatchers readStore at h
  cases hread : host.readError with
  | some =>
    simp only [hread] at h
    cases h
  | none =>
    simp only [hread] at h
    cases h
    rfl

theorem loadWatchers_keyed (h : loadWatchers disk host = .ok m) (id : String) (w : WatcherState)
    (hw : m[id]? = some w) : w.watcherId = id := by
  cases disk with
  | none =>
    rw [loadWatchers_none h] at hw
    simp at hw
  | some =>
    obtain ⟨watchers,-,rfl⟩ := loadWatchers_some h
    exact collected_keyed hw

/-- How a load ends: it fails, finds nothing to write, or writes the restarted watchers. -/
inductive Loaded (disk : Option PersistedRegistry) (host : LoadHost) :
    Except RegistryError Registry × Option PersistedRegistry → Prop
  | failed (error : RegistryError) : Loaded disk host (.error error,disk)
  | kept (m m' : StrMap WatcherState) : loadWatchers disk host = .ok m →
      m' = m.map (fun _ w => afterRestart w) →
      m.toList.any (fun entry => transits entry.2) = false → Loaded disk host (.ok ⟨m',disk⟩,disk)
  | written (m m' : StrMap WatcherState) (answer : Except RegistryError Registry) :
      loadWatchers disk host = .ok m → m' = m.map (fun _ w => afterRestart w) →
      JsonText.registryBytes (encoded m') ≤ maxStateBytes →
      (∀ R, answer = .ok R → R = ⟨m',some (encoded m')⟩) →
      Loaded disk host (answer,some (encoded m'))

theorem load_loaded (disk : Option PersistedRegistry) (host : LoadHost) :
    Loaded disk host (load disk host) := by
  unfold load
  cases hm : loadWatchers disk host >>= replay with
  | error error => exact .failed error
  | ok result =>
    obtain ⟨m,hload,hreplay⟩ := bind_ok_iff.1 hm
    obtain ⟨m',transitioned⟩ := result
    obtain ⟨-,hm',htransits⟩ := replay_ok_iff.1 hreplay
    cases transitioned with
    | false => exact .kept m m' hload hm' htransits.symm
    | true =>
      unfold persistWatchers
      simp only [if_true]
      split
      · exact .failed _
      · next hsize =>
        have hsize := Nat.le_of_not_lt hsize
        cases host.write with
        | stored => exact .written m m' _ hload hm' hsize fun R h => by cases h; rfl
        | lost => exact .failed _
        | landed => exact .written m m' _ hload hm' hsize nofun

theorem load_watchers (h : (load disk host).1 = .ok R) : ∃ m, loadWatchers disk host = .ok m ∧
      R.watchers = m.map fun _ w => afterRestart w := by
  have hl := load_loaded disk host
  generalize load disk host = answer at hl h
  cases hl with
  | failed => cases h
  | kept m m' hm hm' =>
    cases h
    exact ⟨m,hm,hm'⟩
  | written m m' _ hm hm' _ hR =>
    cases hR R h
    exact ⟨m,hm,hm'⟩

theorem load_keyed (h : (load disk host).1 = .ok R) : R.Keyed := by
  intro id w hw
  obtain ⟨m,hload,heq⟩ := load_watchers h
  rw [heq] at hw
  exact afterRestart_keyed (loadWatchers_keyed hload) hw

/-- A restart, after any number of loads that failed. -/
inductive Reloads : Option PersistedRegistry → Registry → Prop
  | loaded {disk : Option PersistedRegistry} {host : LoadHost} {R : Registry} :
      (load disk host).1 = .ok R → Reloads disk R
  | retried {disk : Option PersistedRegistry} (host : LoadHost) {R : Registry} :
      Reloads (load disk host).2 R → Reloads disk R

theorem Reloads.keyed (h : Reloads disk R) : R.Keyed := by
  induction h with
  | loaded h => exact load_keyed h
  | retried _ _ ih => exact ih

omit [Chrono] [JsonText] in
theorem collected_values
    (hkeyed : ∀ (id : String) (w : WatcherState), m[id]? = some w → w.watcherId = id) :
    collected (m.toList.map (·.2)) = m := by
  have hentries : (m.toList.map (·.2)).map (fun w => (w.watcherId,w)) = m.toList := by
    rw [List.map_map]
    refine (List.map_congr_left fun entry he => ?_).trans (List.map_id _)
    have hw := Std.ExtTreeMap.mem_toList_iff_getElem?_eq_some.1 he
    exact Prod.ext (hkeyed entry.1 entry.2 hw) rfl
  rw [collected,hentries,StrMap.ofList_toList]

structure LoadHost.Sound (host : LoadHost) : Prop where
  readable : host.readError = none
  durable : host.write = .stored

end Registry
end WatchMe
