import WatchMe.Daemon.Reload

/-! # Runs of the registry

A run is any sequence of calls and restarts, with any outcome of the writes. `Holds φ` is
the form of its invariants: a failed write may leave the new file while memory keeps the old
watcher, so a fact that has to survive a restart is about the watchers of both.
-/
namespace WatchMe
open Effects

namespace RecoveryCoordinator

def beginAction (id fingerprint : String) (clock : ClockSnapshot) (now : Nat) : RegistryCall :=
  .applyRecoveryTransition id (.beginAction fingerprint clock) now

def actionFailed (id fingerprint : String) (wait : Nat) (clock : ClockSnapshot) (now : Nat) :
    RegistryCall :=
  .applyRecoveryTransition id (.actionFailed fingerprint wait clock) now

def actionSucceeded (id fingerprint : String) (now : Nat) : RegistryCall :=
  .applyRecoveryTransition id (.actionSucceeded fingerprint) now

def plannerConsulted (id : String) (now : Nat) : RegistryCall :=
  .applyRecoveryTransition id .reservePlanner now

end RecoveryCoordinator

inductive RegistryOp where
  | call (call : RegistryCall)
  | restart

@[reducible] def RegistryOp.Answer : RegistryOp → Type
  | call _ => Except RegistryError RegistryReply
  | restart => Unit

abbrev registrySig : Signature := ⟨RegistryOp,RegistryOp.Answer⟩
abbrev RegistryEvent := registrySig.Event

def RegistryCall.answered (c : RegistryCall) (answer : Except RegistryError RegistryReply) :
    RegistryEvent :=
  ⟨.call c,answer⟩

def registryMachine [Chrono] [JsonText] : Machine registrySig Registry Empty where
  State := Registry
  start R := R
  Step R e R' := match e with
    | ⟨.call c,answer⟩ => ∃ host, c.perform R host = (answer,R')
    | ⟨.restart,_⟩ => Registry.Reloads R.disk R'
  result _ := none

theorem step_stored [Chrono] [JsonText] {R : Registry} (c : RegistryCall)
    {answer : Except RegistryError RegistryReply} (h : (c.perform R .stored).1 = answer) :
    registryMachine.Step R (c.answered answer) (c.perform R .stored).2 :=
  ⟨.stored,Prod.ext h rfl⟩

namespace Registry

/-- Every watcher is stored under its identifier and meets the fact. -/
def AllOf (φ : String → WatcherState → Prop) (m : StrMap WatcherState) : Prop :=
  ∀ (id : String) (w : WatcherState), m[id]? = some w → w.watcherId = id ∧ φ id w

structure Holds (φ : String → WatcherState → Prop) (R : Registry) : Prop where
  memory : AllOf φ R.watchers
  file : ∀ saved, R.disk = some saved → ∃ m, saved = encoded m ∧ AllOf φ m

section Facts
variable {φ ψ : String → WatcherState → Prop} {m : StrMap WatcherState} {id : String}
  {w : WatcherState}

theorem AllOf.empty : AllOf φ ∅ := by
  intro id w h
  simp at h

theorem AllOf.insert (h : AllOf φ m) (hid : w.watcherId = id) (hw : φ id w) :
    AllOf φ (m.insert id w) := by
  intro i v hv
  rw [StrMap.getElem?_insert] at hv
  split at hv
  · next heq =>
    cases hv
    exact heq ▸ ⟨hid,hw⟩
  · exact h i v hv

theorem AllOf.afterRestart (h : AllOf φ m) (hφ : ∀ id w, φ id w → φ id (afterRestart w)) :
    AllOf φ (m.map fun _ w => Registry.afterRestart w) := by
  intro id w hw
  rw [Std.ExtTreeMap.getElem?_map,Option.map_eq_some_iff] at hw
  obtain ⟨v,hv,rfl⟩ := hw
  exact ⟨(h id v hv).1,hφ id v (h id v hv).2⟩

theorem Holds.keyed {R : Registry} (h : Holds φ R) : R.Keyed := fun id w hw => (h.memory id w hw).1

end Facts

section Runs
variable [Chrono] [JsonText] {φ : String → WatcherState → Prop}

omit [Chrono] in
theorem Holds.performed {c : RegistryCall} {R : Registry}
    {answer : Except RegistryError RegistryReply × Registry} (h : Holds φ R)
    (hp : RegistryCall.Performed c R answer)
    (hentry : ∀ id w, RegistryCall.Entry c R id w → φ id w) : Holds φ answer.2 := by
  have hnext : ∀ id w, RegistryCall.Entry c R id w → AllOf φ (R.watchers.insert id w) :=
    fun id w hw => h.memory.insert (hw.watcherId h.keyed) (hentry id w hw)
  cases hp with
  | refused | rested => exact h
  | stored reply w next heq hw =>
    subst heq
    exact ⟨hnext _ w hw,fun saved hsaved => ⟨_,(Option.some.inj hsaved).symm,hnext _ w hw⟩⟩
  | landed error id w next heq hw =>
    subst heq
    exact ⟨h.memory,fun saved hsaved => ⟨_,(Option.some.inj hsaved).symm,hnext id w hw⟩⟩

theorem loadWatchers_eq {m m' : StrMap WatcherState} {host : LoadHost}
    (hkeyed : ∀ (id : String) (w : WatcherState), m[id]? = some w → w.watcherId = id)
    (h : loadWatchers (some (encoded m)) host = .ok m') : m' = m := by
  obtain ⟨watchers,hdecode,rfl⟩ := loadWatchers_some h
  have hvalues : watchers = m.toList.map (·.2) := by
    simp only [encoded,List.mapM_map,Function.comp_def] at hdecode
    have hsplit := (mapM_ok_iff (fun entry w' => by
      exact WatcherState.decode_encode_iff (Prod.snd entry) w')).1 hdecode
    exact hsplit.2
  rw [hvalues,collected_values hkeyed]

theorem load_disk (disk : Option PersistedRegistry) (host : LoadHost) :
    ((load disk host).2 = disk ∨ ∃ m, loadWatchers disk host = .ok m ∧
      (load disk host).2 = some (encoded (m.map fun _ w => afterRestart w))) ∧
    ∀ R, (load disk host).1 = .ok R → R.disk = (load disk host).2 := by
  have hl := load_loaded disk host
  generalize load disk host = answer at hl ⊢
  cases hl with
  | failed => exact ⟨.inl rfl,nofun⟩
  | kept => exact ⟨.inl rfl,fun R h => by cases h; rfl⟩
  | written m m' _ hm hm' _ hR => exact ⟨.inr ⟨m,hm,by rw [hm']⟩,fun R h => by rw [hR R h]⟩

def Saves (Q : StrMap WatcherState → Prop) (disk : Option PersistedRegistry) : Prop :=
  ∀ saved, disk = some saved → ∃ m, saved = encoded m ∧ Q m

/-- A kind of maps that the empty map is of, and that a restart stays in. -/
structure Restarts (Q : StrMap WatcherState → Prop) : Prop where
  keyed : ∀ m, Q m → ∀ (id : String) (w : WatcherState), m[id]? = some w → w.watcherId = id
  empty : Q ∅
  restarted : ∀ m, Q m → Q (m.map fun _ w => afterRestart w)

section Saves
variable {Q : StrMap WatcherState → Prop} {disk : Option PersistedRegistry}

theorem Saves.loadWatchers (hQ : Restarts Q) (hfile : Saves Q disk) {host : LoadHost}
    {m : StrMap WatcherState} (h : loadWatchers disk host = .ok m) : Q m := by
  cases disk with
  | none =>
    rw [loadWatchers_none h]
    exact hQ.empty
  | some saved =>
    obtain ⟨m₀,rfl,hm₀⟩ := hfile saved rfl
    rw [loadWatchers_eq (hQ.keyed m₀ hm₀) h]
    exact hm₀

theorem Saves.load (hQ : Restarts Q) (hfile : Saves Q disk) (host : LoadHost) :
    Saves Q (load disk host).2 := by
  intro saved hsaved
  rcases (load_disk disk host).1 with heq | ⟨m,hload,heq⟩
  · exact hfile saved (heq ▸ hsaved)
  · rw [heq] at hsaved
    exact ⟨_,(Option.some.inj hsaved).symm,hQ.restarted m (hfile.loadWatchers hQ hload)⟩

theorem Saves.reloads (hQ : Restarts Q) (hfile : Saves Q disk) {R' : Registry}
    (hr : Reloads disk R') : Q R'.watchers ∧ Saves Q R'.disk := by
  induction hr with
  | @loaded disk host R' hload =>
    obtain ⟨m,hm,heq⟩ := load_watchers hload
    rw [heq,(load_disk disk host).2 R' hload]
    exact ⟨hQ.restarted m (hfile.loadWatchers hQ hm),hfile.load hQ host⟩
  | @retried disk host R' _ ih => exact ih (hfile.load hQ host)

end Saves

omit [Chrono] [JsonText] in
theorem AllOf.restarts (hφ : ∀ id w, φ id w → φ id (Registry.afterRestart w)) :
    Restarts (AllOf φ) where
  keyed _ hm id w hw := (hm id w hw).1
  empty := .empty
  restarted _ hm := hm.afterRestart hφ

theorem Holds.reloads {R R' : Registry} (h : Holds φ R)
    (hφ : ∀ id w, φ id w → φ id (afterRestart w)) (hr : Reloads R.disk R') : Holds φ R' := by
  obtain ⟨hmemory,hfile⟩ := Saves.reloads (AllOf.restarts hφ) h.file hr
  exact ⟨hmemory,hfile⟩

end Runs

/-- The watcher is there, in memory and in the file, and meets the fact in both. -/
structure Has (id : String) (φ : WatcherState → Prop) (R : Registry) : Prop where
  keyed : R.Keyed
  memory : ∃ w, R.watchers[id]? = some w ∧ φ w
  file : ∃ m, R.disk = some (encoded m) ∧
    (∀ (i : String) (w : WatcherState), m[i]? = some w → w.watcherId = i) ∧
    ∃ w, m[id]? = some w ∧ φ w

section Has
variable [Chrono] [JsonText] {id : String} {φ : WatcherState → Prop}

omit [Chrono] in
theorem Has.performed {c : RegistryCall} {R : Registry}
    {answer : Except RegistryError RegistryReply × Registry} (h : Has id φ R)
    (hp : RegistryCall.Performed c R answer)
    (hedit : ∀ v v' now, R.watchers[id]? = some v → φ v → RegistryCall.Edit v v' c →
      c.about R = some id → φ { v' with revision := v'.revision + 1, updatedAtUnixMs := now }) :
    Has id φ answer.2 := by
  obtain ⟨v,hv,hφ⟩ := h.memory
  have hnext : ∀ i w, RegistryCall.Entry c R i w →
      (∀ (j : String) (u : WatcherState), (R.watchers.insert i w)[j]? = some u → u.watcherId = j) ∧
      ∃ u, (R.watchers.insert i w)[id]? = some u ∧ φ u := by
    intro i w hw
    refine ⟨hw.keyed_insert h.keyed,?_⟩
    rw [StrMap.getElem?_insert]
    by_cases hi : i = id
    · subst hi
      rw [if_pos rfl]
      cases hw with
      | added _ _ hnone => cases hnone.symm.trans hv
      | edited _ u u' now hu hedits habout =>
        obtain rfl := Option.some.inj (hv.symm.trans hu)
        exact ⟨_,rfl,hedit v u' now hv hφ hedits habout⟩
    · rw [if_neg hi]
      exact ⟨v,hv,hφ⟩
  cases hp with
  | refused | rested => exact h
  | stored reply w next heq hw =>
    subst heq
    obtain ⟨hkeyed,hhas⟩ := hnext _ w hw
    exact ⟨hkeyed,hhas,_,rfl,hkeyed,hhas⟩
  | landed error i w next heq hw =>
    subst heq
    obtain ⟨hkeyed,hhas⟩ := hnext i w hw
    exact ⟨h.keyed,h.memory,_,rfl,hkeyed,hhas⟩

omit [Chrono] in
theorem Has.of_stored {c : RegistryCall} {R R' : Registry} {reply : RegistryReply}
    (hkeyed : R.Keyed) (hp : RegistryCall.Performed c R (.ok reply,R'))
    (hrest : c.mayRest = false) (habout : c.about R = some id)
    (hedit : ∀ v v' now, R.watchers[id]? = some v → RegistryCall.Edit v v' c →
      φ { v' with revision := v'.revision + 1, updatedAtUnixMs := now }) : Has id φ R' := by
  cases hp with
  | rested _ h =>
    rw [hrest] at h
    cases h
  | stored _ w next hnext hentry =>
    subst hnext
    have hkeyed' := hentry.keyed_insert hkeyed
    have hhas : ∃ u, (R.watchers.insert (c.named reply) w)[id]? = some u ∧ φ u := by
      generalize c.named reply = i at hentry
      cases hentry with
      | added _ hc =>
        subst hc
        cases hrest
      | edited _ v v' now hv hedits hsame =>
        obtain rfl := Option.some.inj (hsame.symm.trans habout)
        rw [StrMap.getElem?_insert,if_pos rfl]
        exact ⟨_,rfl,hedit v v' now hv hedits⟩
    exact ⟨hkeyed',hhas,_,rfl,hkeyed',hhas⟩

theorem Has.reloads {R R' : Registry} (h : Has id φ R) (hφ : ∀ w, φ w → φ (afterRestart w))
    (hr : Reloads R.disk R') : Has id φ R' := by
  obtain ⟨m,hdisk,hkeyed,hm⟩ := h.file
  have hkeyed' : ∀ m : StrMap WatcherState,
      (∀ (i : String) (w : WatcherState), m[i]? = some w → w.watcherId = i) →
      ∀ (i : String) (w : WatcherState),
        (m.map fun _ w => afterRestart w)[i]? = some w → w.watcherId = i :=
    fun m hm i w hw => afterRestart_keyed hm hw
  have hhas : ∀ m : StrMap WatcherState, (∃ w, m[id]? = some w ∧ φ w) →
      ∃ w, (m.map fun _ w => afterRestart w)[id]? = some w ∧ φ w := by
    rintro m ⟨w,hw,hφw⟩
    refine ⟨afterRestart w,?_,hφ w hφw⟩
    rw [Std.ExtTreeMap.getElem?_map,hw]
    rfl
  rw [hdisk] at hr
  clear hdisk h
  generalize hsaved : some (encoded m) = disk at hr
  induction hr generalizing m with
  | @loaded disk host R' hload =>
    subst hsaved
    obtain ⟨m',hm',heq⟩ := load_watchers hload
    obtain rfl := loadWatchers_eq hkeyed hm'
    refine ⟨load_keyed hload,heq ▸ hhas m' hm,?_⟩
    rw [(load_disk _ host).2 R' hload]
    rcases (load_disk (some (encoded m')) host).1 with hsame | ⟨m'',hm'',hwritten⟩
    · exact ⟨m',hsame,hkeyed,hm⟩
    · obtain rfl := loadWatchers_eq hkeyed hm''
      exact ⟨_,hwritten,hkeyed' m'' hkeyed,hhas m'' hm⟩
  | @retried disk host R' _ ih =>
    subst hsaved
    rcases (load_disk (some (encoded m)) host).1 with hsame | ⟨m'',hm'',hwritten⟩
    · exact ih m hkeyed hm hsame.symm
    · obtain rfl := loadWatchers_eq hkeyed hm''
      exact ih _ (hkeyed' m'' hkeyed) (hhas m'' hm) hwritten.symm

end Has

def put (R : Registry) (id : String) (w : WatcherState) : Registry :=
  ⟨R.watchers.insert id w,some (encoded (R.watchers.insert id w))⟩

@[simp] theorem get_put (R : Registry) (id : String) (w : WatcherState) :
    (R.put id w).get id = some w := by
  rw [get,put,StrMap.getElem?_insert,if_pos rfl]

end Registry

end WatchMe
