import WatchMe.Daemon.Lifecycle

/-! # What a registration does to the target and the sessions of a watcher

A registration of a known process may bring another description of its target and a session that
the watcher did not have. Both are taken over from the new watcher as they are: the target
whenever the entry is refreshed, a session only if it agrees with the one that is there.
-/
namespace WatchMe
open Effects
variable {w w' : WatcherState}

/-- A multiplexer target with a context, which needs no revalidation. -/
def TargetIdentity.Verified : TargetIdentity → Prop
  | .multiplexer _ _ _ _ _ context _ needs => context.isSome = true ∧ needs = false
  | .process _ => False

instance (target : TargetIdentity) : Decidable target.Verified := by
  cases target <;> unfold TargetIdentity.Verified <;> infer_instance

theorem TargetIdentity.Verified.needsRevalidation {target : TargetIdentity} (h : target.Verified) :
    target.needsRevalidation = false := by
  cases target with
  | process => exact h.elim
  | multiplexer => exact h.2

section Register
variable [JsonText] {R R' : Registry} {id : String} {fresh w : WatcherState}
  {host : WriteOutcome} {answer : Except RegistryError RegistrationOutcome}

theorem register_revalidated (h : (R.register fresh host).1 = .ok (.revalidated id)) :
    R.resolves fresh = some id := by
  rcases register_ok (Prod.ext h rfl : R.register fresh host = (.ok (.revalidated id),_)) with
    ⟨heq,-⟩ | ⟨i,hi,⟨heq,-⟩ | ⟨v,revision,-,-,heq,-⟩⟩
  · cases heq
  · cases heq
  · split at heq <;> cases heq
    exact hi

end Register

namespace Sample
open Registry

end Sample

structure KeepsSessions (w w' : WatcherState) : Prop where
  codex : ∀ s, w.codexSession = some s → w'.codexSession = some s
  claude : ∀ s, w.claudeSession = some s → w'.claudeSession = some s

theorem KeepsSessions.of_eq (hcodex : w'.codexSession = w.codexSession)
    (hclaude : w'.claudeSession = w.claudeSession) : KeepsSessions w w' :=
  ⟨fun _ h => hcodex.trans h,fun _ h => hclaude.trans h⟩

theorem KeepsSessions.refl (w : WatcherState) : KeepsSessions w w := .of_eq rfl rfl

theorem KeepsSessions.trans {w'' : WatcherState} (h : KeepsSessions w w')
    (h' : KeepsSessions w' w'') : KeepsSessions w w'' :=
  ⟨fun s hs => h'.codex s (h.codex s hs),fun s hs => h'.claude s (h.claude s hs)⟩

structure Compatible (w fresh : WatcherState) : Prop where
  codex : compatibleAttachment w.codexSession fresh.codexSession = true
  claude : compatibleAttachment w.claudeSession fresh.claudeSession = true

theorem compatibleAttachment_iff {α : Type} [DecidableEq α] {existing fresh : Option α} :
    compatibleAttachment existing fresh = true ↔
      ∀ s s', existing = some s → fresh = some s' → s = s' := by
  cases existing <;> cases fresh <;> simp [compatibleAttachment]

theorem kept_orElse {α : Type} [DecidableEq α] {existing fresh : Option α}
    (h : compatibleAttachment existing fresh = true) (s : α) (hs : existing = some s) :
    (fresh.orElse fun _ => existing) = some s := by
  cases hfresh : fresh with
  | none => exact hs
  | some s' => rw [compatibleAttachment_iff.1 h s s' hs hfresh]; rfl

theorem Compatible.keeps {fresh : WatcherState} (h : Compatible w fresh) :
    KeepsSessions w (Registry.refreshed (Registry.refreshOf w fresh) w fresh) := by
  unfold Registry.refreshed
  split
  · exact ⟨kept_orElse h.codex,kept_orElse h.claude⟩
  · split <;> exact .of_eq rfl rfl

def Retained (R R' : Registry) : Prop :=
  ∀ (id : String) (w : WatcherState), R.watchers[id]? = some w →
    ∃ w', R'.watchers[id]? = some w' ∧ KeepsSessions w w'

theorem Retained.refl (R : Registry) : Retained R R := fun _ w hw => ⟨w,hw,.refl w⟩

theorem Retained.trans {R R' R'' : Registry} (h : Retained R R') (h' : Retained R' R'') :
    Retained R R'' := by
  intro id w hw
  obtain ⟨w',hw',hkeeps⟩ := h id w hw
  obtain ⟨w'',hw'',hkeeps'⟩ := h' id w' hw'
  exact ⟨w'',hw'',hkeeps.trans hkeeps'⟩

section Runs
variable [JsonText]
variable {R R' : Registry}

theorem refreshExisting_incompatible {id : String} {fresh : WatcherState} (host : WriteOutcome)
    (hw : R.watchers[id]? = some w) (h : ¬ Compatible w fresh) :
    R.refreshExisting id fresh host = (.error (.idCollision fresh.watcherId),R) := by
  unfold Registry.refreshExisting
  have hnot : (!compatibleAttachment w.codexSession fresh.codexSession
      || !compatibleAttachment w.claudeSession fresh.claudeSession) = true := by
    by_contra hboth
    simp only [Bool.or_eq_true,not_or,Bool.not_eq_true,Bool.not_eq_false'] at hboth
    exact h ⟨hboth.1,hboth.2⟩
  simp only [hw,hnot,if_true]

theorem entry_sessions (c : RegistryCall) (R : Registry) (host : WriteOutcome) :
    (∀ id w w', R.watchers[id]? = some w → RegistryCall.Entry c R id w' → KeepsSessions w w') ∨
      (c.perform R host).2 = R := by
  have hedited : ∀ id w w', R.watchers[id]? = some w → RegistryCall.Entry c R id w' →
      (∀ u', RegistryCall.Edit w u' c → c.about R = some id → KeepsSessions w u') →
      KeepsSessions w w' := by
    intro id w w' hw hentry hedit
    cases hentry with
    | added _ _ hnone => cases hnone.symm.trans hw
    | edited _ u u' now hu hedits habout =>
      obtain rfl := Option.some.inj (hw.symm.trans hu)
      exact (hedit u' hedits habout).trans (.of_eq rfl rfl)
  by_cases hregister : ∃ fresh, c = .register fresh
  · obtain ⟨fresh,rfl⟩ := hregister
    by_cases hcompatible : ∀ id w, R.resolves fresh = some id → R.watchers[id]? = some w →
        Compatible w fresh
    · left
      intro id w w' hw hentry
      refine hedited id w w' hw hentry fun u' hedit habout => ?_
      cases hedit
      exact (hcompatible id w habout hw).keeps
    · right
      push Not at hcompatible
      obtain ⟨id,w,hresolves,hw,hnot⟩ := hcompatible
      rcases register_resolves host hresolves with heq | ⟨heq,-⟩
      · exact (congrArg Prod.snd heq).trans
          (congrArg Prod.snd (refreshExisting_incompatible host hw hnot))
      · exact congrArg Prod.snd heq
  · left
    intro id w w' hw hentry
    refine hedited id w w' hw hentry fun u' hedit _ => ?_
    obtain ⟨-,hcodex,hclaude,-⟩ := hedit.frame fun fresh heq => hregister ⟨fresh,heq⟩
    exact .of_eq hcodex hclaude

variable [Chrono]

def Loads (disk : Option PersistedRegistry) (m : StrMap WatcherState) : Prop :=
  ∃ host, Registry.loadWatchers disk host = .ok m

theorem Loads.unique {disk : Option PersistedRegistry} {m m' : StrMap WatcherState}
    (h : Loads disk m) (h' : Loads disk m') : m = m' := by
  obtain ⟨host,h⟩ := h
  obtain ⟨host',h'⟩ := h'
  cases disk with
  | none => rw [Registry.loadWatchers_none h,Registry.loadWatchers_none h']
  | some =>
    obtain ⟨watchers,hdecode,rfl⟩ := Registry.loadWatchers_some h
    obtain ⟨watchers',hdecode',rfl⟩ := Registry.loadWatchers_some h'
    cases hdecode.symm.trans hdecode'
    rfl

structure SessionsSaved (R : Registry) : Prop where
  keyed : R.Keyed
  file : ∀ m, Loads R.disk m → ∀ (id : String) (w : WatcherState), R.watchers[id]? = some w →
    ∃ v, m[id]? = some v ∧ KeepsSessions w v

theorem sessions_call {c : RegistryCall} {host : WriteOutcome}
    {answer : Except RegistryError RegistryReply} (hR : SessionsSaved R)
    (h : c.perform R host = (answer,R')) : SessionsSaved R' ∧ Retained R R' := by
  have hp := c.perform_performed R host
  have hkept := entry_sessions c R host
  rw [h] at hp hkept
  rcases hkept with hentry | rfl
  · have hinsert : ∀ i v, RegistryCall.Entry c R i v → ∀ (id : String) (w : WatcherState),
        R.watchers[id]? = some w →
        ∃ w', (R.watchers.insert i v)[id]? = some w' ∧ KeepsSessions w w' := by
      intro i v hv id w hw
      rw [StrMap.getElem?_insert]
      by_cases hid : i = id
      · subst hid
        exact ⟨v,if_pos rfl,hentry i w v hw hv⟩
      · exact ⟨w,(if_neg hid).trans hw,.refl w⟩
    cases hp with
    | refused | rested => exact ⟨hR,.refl R⟩
    | stored reply v next hnext hv =>
      subst hnext
      have hkeyed := hv.keyed_insert hR.keyed
      refine ⟨⟨hkeyed,?_⟩,hinsert _ v hv⟩
      rintro m ⟨host,hm⟩ id w hw
      rw [Registry.loadWatchers_eq hkeyed hm]
      exact ⟨w,hw,.refl w⟩
    | landed error i v next hnext hv =>
      subst hnext
      refine ⟨⟨hR.keyed,?_⟩,.refl R⟩
      rintro m ⟨host,hm⟩
      rw [Registry.loadWatchers_eq (hv.keyed_insert hR.keyed) hm]
      exact hinsert i v hv
  · exact ⟨hR,.refl _⟩

theorem sessions_reloads {disk : Option PersistedRegistry} (hr : Registry.Reloads disk R') :
    SessionsSaved R' ∧ ∃ m, Loads disk m ∧
      ∀ (id : String) (v : WatcherState), m[id]? = some v →
        ∃ w', R'.watchers[id]? = some w' ∧ KeepsSessions v w' := by
  have hmap : ∀ (m : StrMap WatcherState) (id : String) (v : WatcherState), m[id]? = some v →
      (m.map fun _ w => Registry.afterRestart w)[id]? = some (Registry.afterRestart v) := by
    intro m id v hv
    rw [Std.ExtTreeMap.getElem?_map,hv]
    rfl
  induction hr with
  | @loaded disk host R' hload =>
    obtain ⟨m,hm,heq⟩ := Registry.load_watchers hload
    refine ⟨⟨Registry.load_keyed hload,?_⟩,m,⟨host,hm⟩,fun id v hv =>
      ⟨Registry.afterRestart v,heq ▸ hmap m id v hv,.of_eq rfl rfl⟩⟩
    intro m' hm' id w hw
    rw [heq,Std.ExtTreeMap.getElem?_map,Option.map_eq_some_iff] at hw
    obtain ⟨v,hv,rfl⟩ := hw
    rw [(Registry.load_disk disk host).2 R' hload] at hm'
    rcases (Registry.load_disk disk host).1 with hsame | ⟨m₀,hm₀,hwritten⟩
    · rw [hsame] at hm'
      rw [hm'.unique ⟨host,hm⟩]
      exact ⟨v,hv,.of_eq rfl rfl⟩
    · rw [hwritten] at hm'
      cases hm.symm.trans hm₀
      obtain ⟨host',hm'⟩ := hm'
      have hkeyed : ∀ (i : String) (u : WatcherState),
          (m.map fun _ w => Registry.afterRestart w)[i]? = some u → u.watcherId = i :=
        fun i u hu => Registry.afterRestart_keyed (Registry.loadWatchers_keyed hm) hu
      rw [Registry.loadWatchers_eq hkeyed hm']
      exact ⟨_,hmap m id v hv,.refl _⟩
  | @retried disk host R' _ ih =>
    obtain ⟨hsaved,m,hm,hkept⟩ := ih
    rcases (Registry.load_disk disk host).1 with hsame | ⟨m₀,hm₀,hwritten⟩
    · exact ⟨hsaved,m,hsame ▸ hm,hkept⟩
    · rw [hwritten] at hm
      obtain ⟨host',hm⟩ := hm
      have hkeyed : ∀ (i : String) (u : WatcherState),
          (m₀.map fun _ w => Registry.afterRestart w)[i]? = some u → u.watcherId = i :=
        fun i u hu => Registry.afterRestart_keyed (Registry.loadWatchers_keyed hm₀) hu
      obtain rfl := Registry.loadWatchers_eq hkeyed hm
      refine ⟨hsaved,m₀,⟨host,hm₀⟩,fun id v hv => ?_⟩
      obtain ⟨w',hw',hkeeps⟩ := hkept id _ (hmap m₀ id v hv)
      exact ⟨w',hw',⟨hkeeps.codex,hkeeps.claude⟩⟩

theorem sessions_runs {h : List RegistryEvent} (hR : SessionsSaved R)
    (hr : registryMachine.Runs R h R') : SessionsSaved R' ∧ Retained R R' := by
  refine hr.invariant
    ⟨hR,.refl R⟩ ?_
  rintro h R₁ ⟨op,answer⟩ R₂ ⟨hsaved,hretained⟩ hs
  cases op with
  | call =>
    obtain ⟨host,hcall⟩ := hs
    obtain ⟨hsaved',hretained'⟩ := sessions_call hsaved hcall
    exact ⟨hsaved',hretained.trans hretained'⟩
  | restart =>
    obtain ⟨hsaved',m,hm,hkept⟩ := sessions_reloads hs
    refine ⟨hsaved',hretained.trans fun id w hw => ?_⟩
    obtain ⟨v,hv,hkeeps⟩ := hsaved.file m hm id w hw
    obtain ⟨w',hw',hkeeps'⟩ := hkept id v hv
    exact ⟨w',hw',hkeeps.trans hkeeps'⟩

/-- Once a watcher has a session it has the same one in every later state, whatever calls and
restarts follow and whatever becomes of their writes. -/
theorem session_write_once {disk : Option PersistedRegistry} {R₀ R R' : Registry}
    {h h' : List RegistryEvent} {id : String} {w : WatcherState}
    (hload : Registry.Reloads disk R₀) (hr : registryMachine.Runs R₀ h R)
    (hw : R.get id = some w) (hr' : registryMachine.Runs R h' R') :
    ∃ w', R'.get id = some w' ∧ (∀ s, w.codexSession = some s → w'.codexSession = some s) ∧
      ∀ s, w.claudeSession = some s → w'.claudeSession = some s := by
  have hsaved := (sessions_runs (sessions_reloads hload).1 hr).1
  obtain ⟨w',hw',hkeeps⟩ := (sessions_runs hsaved hr').2 id w hw
  exact ⟨w',hw',hkeeps.codex,hkeeps.claude⟩

end Runs

namespace Sample
open Registry

def session (thread : String) : CodexSessionReference :=
  ⟨thread,"/work/rollout.jsonl",1,"/work",none,none,none,none⟩

def attached (thread : String) : WatcherState :=
  processRegistration (.new 7 1) ⟨none,some (session thread)⟩ 0

theorem attached_rebound :
    let _ := chrono
    let _ := jsonText
    ∃ R, (load (some ⟨1,[(attached "t1").encode]⟩) durable).1 = .ok R ∧
      R.get "process-7-1" = some (afterRestart (attached "t1")) ∧
      R.register (attached "t2") .stored = (.error (.idCollision "process-7-1"),R) :=
  ⟨_,rfl,rfl,rfl⟩

end Sample

theorem session_write_once_rebound :
    let _ := Sample.chrono
    let _ := Sample.jsonText
    ∃ R R' w', registryMachine.Runs R [RegistryCall.answered (.register (Sample.attached "t2"))
        (.error (.idCollision "process-7-1"))] R' ∧
      R'.get "process-7-1" = some w' ∧ w'.codexSession = some (Sample.session "t1") := by
  intro _ _
  obtain ⟨R,hload,hget,hregister⟩ := Sample.attached_rebound
  have hstart : registryMachine.Runs R [] R := .start
  have hstep : registryMachine.Step R (RegistryCall.answered (.register (Sample.attached "t2"))
      (.error (.idCollision "process-7-1"))) R :=
    ⟨.stored,congrArg (RegistryCall.replied .registered) hregister⟩
  have hrun := hstart.snoc hstep
  obtain ⟨w',hget',hcodex,-⟩ := session_write_once (.loaded hload) hstart hget hrun
  exact ⟨R,R,w',hrun,hget',hcodex _ rfl⟩

end WatchMe
