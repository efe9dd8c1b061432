import WatchMe.Daemon.Registration
import WatchMe.Mux.Execution

/-! # Targets that have to be validated anew

A multiplexer target that was written under version 1 is loaded with `needs_revalidation`. The
flag stays, over every call and restart, until a registration of the watcher brings a target
without it, and as long as it is there no execution reaches the multiplexer.
-/
namespace WatchMe
open Effects Program
variable {w : WatcherState} {R : Registry}

/-- A multiplexer target of version 1, or one that carries the flag. -/
def TargetWire.Legacy : TargetWire → Prop
  | .process _ _ => False
  | .multiplexer version _ _ _ _ _ _ _ needs => version = 1 ∨ needs = true

theorem TargetWire.Legacy.decode {wire : TargetWire} {target : TargetIdentity}
    (h : wire.Legacy) (hd : wire.decode = .ok target) : target.needsRevalidation = true := by
  cases wire with
  | process => exact h.elim
  | multiplexer =>
    obtain ⟨decoded,htarget,hchecked⟩ := bind_ok_iff.1 hd
    obtain ⟨_,-,hdone⟩ := bind_ok_iff.1 hchecked
    cases hdone
    obtain ⟨process,-,hprocess⟩ := bind_ok_iff.1 htarget
    cases hprocess
    simpa [TargetIdentity.needsRevalidation,TargetWire.Legacy] using h

theorem WatcherWire.decode_fields [Chrono] {wire : WatcherWire} (h : wire.decode = .ok w) :
    w.watcherId = wire.watcherId ∧ wire.target.decode = .ok w.target := by
  obtain ⟨target,htarget,h⟩ := bind_ok_iff.1 h
  obtain ⟨_,-,h⟩ := bind_ok_iff.1 h
  split at h
  · cases h
    exact ⟨rfl,htarget⟩
  · cases h

/-- The watcher as the file holds it: of several entries under one identifier the last. -/
def PersistedRegistry.entry (saved : PersistedRegistry) (id : String) : Option WatcherWire :=
  saved.watchers.reverse.find? fun wire => wire.watcherId == id

/-- The file holds the watcher with a target that has to be validated anew. -/
def HoldsLegacy (id : String) (disk : Option PersistedRegistry) : Prop :=
  ∃ saved wire, disk = some saved ∧ saved.entry id = some wire ∧ wire.target.Legacy

def WatcherState.Flagged (w : WatcherState) : Prop := w.target.needsRevalidation = true

theorem find?_forall₂ {α β : Type} {r : α → β → Prop} {p : α → Bool} {q : β → Bool}
    {l : List α} {l' : List β} {a : α} (h : List.Forall₂ r l l') (hr : ∀ a b, r a b → p a = q b)
    (ha : l.find? p = some a) : ∃ b, l'.find? q = some b ∧ r a b := by
  induction h with
  | nil => cases ha
  | @cons x y l l' hxy _ ih =>
    rw [List.find?_cons,hr x y hxy] at ha
    rw [List.find?_cons]
    cases hq : q y with
    | true =>
      rw [hq] at ha
      cases ha
      exact ⟨y,rfl,hxy⟩
    | false =>
      rw [hq] at ha
      exact ih ha

theorem Registry.collected_entry [Chrono] {saved : PersistedRegistry} {id : String}
    {wire : WatcherWire} {watchers : List WatcherState} (hentry : saved.entry id = some wire)
    (hdecode : saved.watchers.mapM WatcherWire.decode = .ok watchers) :
    ∃ w, (collected watchers)[id]? = some w ∧ wire.decode = .ok w := by
  have hpairs := mapM_forall₂ hdecode
  obtain ⟨w,hfind,hw⟩ := find?_forall₂ (List.rel_reverse hpairs)
    (q := fun w : WatcherState => w.watcherId == id)
    (fun a b hab => by rw [(WatcherWire.decode_fields hab).1]) hentry
  refine ⟨w,?_,hw⟩
  rw [collected,StrMap.getElem?_ofList_last,← List.map_reverse,List.find?_map]
  simp only [Function.comp_def,hfind]
  rfl

namespace Registry
variable [Chrono] [JsonText] {id : String} {disk : Option PersistedRegistry}

theorem loadWatchers_flagged {host : LoadHost} {m : StrMap WatcherState}
    (hlegacy : HoldsLegacy id disk) (h : loadWatchers disk host = .ok m) :
    ∃ w, m[id]? = some w ∧ w.Flagged := by
  obtain ⟨saved,wire,rfl,hentry,hwire⟩ := hlegacy
  obtain ⟨watchers,hdecode,rfl⟩ := loadWatchers_some h
  obtain ⟨w,hw,hdecoded⟩ := collected_entry hentry hdecode
  exact ⟨w,hw,hwire.decode (WatcherWire.decode_fields hdecoded).2⟩

omit [Chrono] [JsonText] in
theorem transits_flagged (h : w.Flagged) : transits w = true := by
  have hflag : w.target.needsRevalidation = true := h
  unfold transits machineAtRestart
  cases hm : w.recovery <;> simp [hflag]

theorem load_rewrites {host : LoadHost} {m : StrMap WatcherState}
    (hm : loadWatchers disk host = .ok m) (hw : m[id]? = some w) (hflag : w.Flagged)
    (h : (load disk host).1 = .ok R) : R.disk = some (encoded R.watchers) := by
  have hl := load_loaded disk host
  generalize load disk host = answer at hl h
  cases hl with
  | failed => cases h
  | written _ _ _ _ _ _ hR => rw [hR R h]
  | kept _ _ hload _ hquiet =>
    cases hm.symm.trans hload
    rw [List.any_eq_false] at hquiet
    exact (hquiet (id,w) (Std.ExtTreeMap.mem_toList_iff_getElem?_eq_some.2 hw)
      (transits_flagged hflag)).elim

theorem reloads_flagged (hlegacy : HoldsLegacy id disk) (hr : Reloads disk R) :
    R.Has id WatcherState.Flagged := by
  have hrestarted : ∀ m : StrMap WatcherState, (∃ w, m[id]? = some w ∧ w.Flagged) →
      ∃ w, (m.map fun _ w => afterRestart w)[id]? = some w ∧ w.Flagged := by
    rintro m ⟨w,hw,hflag⟩
    refine ⟨afterRestart w,?_,hflag⟩
    rw [Std.ExtTreeMap.getElem?_map,hw]
    rfl
  induction hr with
  | @loaded disk host R hload =>
    obtain ⟨m,hm,heq⟩ := load_watchers hload
    obtain ⟨w,hw,hflag⟩ := loadWatchers_flagged hlegacy hm
    have hmemory := hrestarted m ⟨w,hw,hflag⟩
    rw [← heq] at hmemory
    exact ⟨load_keyed hload,hmemory,R.watchers,load_rewrites hm hw hflag hload,load_keyed hload,
      hmemory⟩
  | @retried disk host R hrest ih =>
    rcases (load_disk disk host).1 with hsame | ⟨m,hm,hwritten⟩
    · exact ih (by rwa [hsame])
    · -- the failed load has left a file of its own
      have hkeyed : ∀ (i : String) (w : WatcherState),
          (m.map fun _ w => afterRestart w)[i]? = some w → w.watcherId = i :=
        fun i w hw => afterRestart_keyed (loadWatchers_keyed hm) hw
      have hmemory := hrestarted m (loadWatchers_flagged hlegacy hm)
      have hhas : Has id WatcherState.Flagged
          ⟨m.map fun _ w => afterRestart w,(load disk host).2⟩ :=
        ⟨hkeyed,hmemory,_,hwritten,hkeyed,hmemory⟩
      exact hhas.reloads (fun _ h => h) hrest

end Registry

/-- No registration of the watcher brings a target without the flag. -/
def KeepsFlag (id : String) (R : Registry) (e : RegistryEvent) : Prop :=
  ∀ fresh answer, e = RegistryCall.answered (.register fresh) answer →
    R.resolves fresh = some id → fresh.Flagged

theorem flagged_edit {c : RegistryCall} {w' : WatcherState} (h : w.Flagged)
    (hc : ∀ fresh, c = .register fresh → fresh.Flagged) (he : RegistryCall.Edit w w' c) :
    w'.Flagged := by
  unfold WatcherState.Flagged at h ⊢
  cases c with
  | register fresh =>
    cases he
    rw [refreshed_target]
    exact hc fresh rfl
  | retargetProcess =>
    rw [(he.frame fun _ h => by cases h).1]
    exact (withProcess_needsRevalidation _ _).trans h
  | _ =>
    rw [(he.frame fun _ h => by cases h).1]
    exact h

section Runs
variable [Chrono] [JsonText] {id : String}

theorem flagged_runs {R₀ : Registry} {h : List RegistryEvent} (hR₀ : R₀.Has id WatcherState.Flagged)
    (hr : (registryMachine.restrict (KeepsFlag id)).Runs R₀ h R) :
    R.Has id WatcherState.Flagged := by
  refine hr.invariant hR₀ ?_
  rintro h R ⟨op,answer⟩ R' hhas ⟨hkeeps,hs⟩
  cases op with
  | restart => exact hhas.reloads (fun _ hflag => hflag) hs
  | call c =>
    obtain ⟨host,hcall⟩ := hs
    have hp := c.perform_performed R host
    rw [hcall] at hp
    refine hhas.performed hp fun v v' now _ hflag hedit habout => ?_
    have hflag' : v'.Flagged := by
      refine flagged_edit hflag (fun fresh hc => ?_) hedit
      subst hc
      exact hkeeps fresh answer rfl habout
    exact hflag'

end Runs

/-- The reads of the registry in an execution are answered by it. -/
def ExecEvent.AnsweredIn (R : Registry) : ExecEvent → Prop
  | ⟨.daemon (.watcher id),answer⟩ => answer = R.get id
  | ⟨.locked snapshot,matched⟩ => matched = R.matchesDispatchSnapshot snapshot
  | _ => True

namespace Executor

theorem flagged_muxIdentity (h : w.Flagged) : watcherMuxIdentity w = .ok none := by
  unfold WatcherState.Flagged TargetIdentity.needsRevalidation at h
  unfold watcherMuxIdentity
  cases htarget : w.target with
  | process => rfl
  | multiplexer provider server pane p session context =>
    rw [htarget] at h
    cases h
    cases context <;> rfl

def FindsFlagged (id : String) (e : DaemonEvent) : Prop :=
  ∀ w : WatcherState, e = ⟨.watcher id,some w⟩ → w.Flagged

def Withheld (id : String) : DaemonOp → Prop
  | .validateMux _ _ | .composerSafe _ _ => False
  | .muxCommand snapshot _ | .capture snapshot _ _ => snapshot.watcherId = id
  | _ => True

section Withheld
variable {A : DaemonEvent → Prop} {φ : DaemonOp → Prop} {snapshot : WatcherState}

theorem asksIf_askThen {β : Type} {op : DaemonOp} {f : op.Answer → Exec β} (h : φ op)
    (hf : ∀ r, A ⟨op,r⟩ → (f r).run.AsksIf (S := daemonSig) A φ) :
    (ask op >>= f).run.AsksIf (S := daemonSig) A φ :=
  ⟨h,hf⟩

theorem asksIf_confirmLiveEvidence [Digest] :
    (confirmLiveEvidence snapshot).run.AsksIf (S := daemonSig)
      (FindsFlagged snapshot.watcherId) (Withheld snapshot.watcherId) := by
  refine AsksIf.run_bind ?_ fun live => ?_
  · refine asksIf_askThen trivial fun found hfound => ?_
    cases found with
    | none => trivial
    | some watcher =>
      have hidentity := flagged_muxIdentity (hfound watcher rfl)
      dsimp only
      split
      · trivial
      · refine asksIf_askThen trivial fun alive _ => ?_
        -- without an identity the pane is not looked at
        have hprobe : probe watcher alive =
            pure ⟨alive,true,processIdentityKey watcher.target,false⟩ := by
          simp only [probe,hidentity]
        rw [hprobe]
        trivial
  · split <;> trivial

theorem serves_withheld {id : String} (op : DaemonOp) (h : Serves id op) : Withheld id op := by
  cases op <;> trivial

theorem asksIf_execute [Chrono] [Digest] (action : Action) :
    (execute snapshot action).run.AsksIf (S := daemonSig)
      (FindsFlagged snapshot.watcherId) (Withheld snapshot.watcherId) := by
  have hcancelled : ∀ {β : Type} {x : Exec β},
      x.run.AsksIf (S := daemonSig) (FindsFlagged snapshot.watcherId)
        (Withheld snapshot.watcherId) →
      (rejectIfCancelled >>= fun _ => x).run.AsksIf (S := daemonSig)
        (FindsFlagged snapshot.watcherId) (Withheld snapshot.watcherId) :=
    fun hx => (asks_rejectIfCancelled trivial).asksIf.run_bind fun _ => hx
  refine hcancelled ?_
  cases action.kind with
  | sendText | submitText | sendKeys =>
    refine asksIf_confirmLiveEvidence.run_bind fun _ => ?_
    refine asksIf_askThen rfl fun answer _ => ?_
    refine (asks_dispatched answer).asksIf.run_bind fun result => ?_
    refine asksIf_askThen trivial fun cancelled _ => ?_
    split
    · trivial
    · exact (asks_settled _).asksIf
  | capture =>
    refine asksIf_confirmLiveEvidence.run_bind fun _ => ?_
    refine asksIf_askThen rfl fun answer _ => ?_
    refine (asks_dispatched answer).asksIf.run_bind fun result => ?_
    exact hcancelled (asks_settled _).asksIf
  | notify => trivial
  | waitUntil | waitDuration | checkStatus | escalate | stopWatching | noop =>
    exact ((asks_runtimeActuator snapshot.watcherId action).mono serves_withheld).asksIf

end Withheld

def OffMux (op : ExecOp) : Prop := ∀ muxOp, op ≠ .mux muxOp

def ConfirmsFlagged (id : String) (e : ExecEvent) : Prop :=
  ∀ snapshot : WatcherState, e = ⟨.locked snapshot,true⟩ → snapshot.watcherId = id →
    snapshot.Flagged

theorem asksIf_underLock {id : String} {snapshot : WatcherState}
    {command : MuxM ExecutionError ExecutionOutput} (hid : snapshot.watcherId = id)
    (hcommand : snapshot.Flagged → ∃ r, command.run = .done r) :
    (underLock snapshot command).AsksIf (S := execSig) (ConfirmsFlagged id) OffMux := by
  refine ⟨fun _ h => (by cases h),fun matched hmatched => ?_⟩
  cases matched with
  | false => trivial
  | true =>
    obtain ⟨r,hr⟩ := hcommand (hmatched snapshot rfl hid)
    change (command.run.interpret askMux >>= fun result => pure (some result)).AsksIf _ _
    rw [hr]
    trivial

theorem asksIf_handle [Chrono] {id : String} {op : DaemonOp} (hop : Withheld id op) :
    (handle op).AsksIf (S := execSig) (ConfirmsFlagged id) OffMux := by
  have hasked : ∀ {op : DaemonOp},
      (askExec (.daemon op)).AsksIf (S := execSig) (ConfirmsFlagged id) OffMux :=
    ⟨fun _ h => (by cases h),fun _ _ => trivial⟩
  cases op with
  | muxCommand snapshot =>
    refine asksIf_underLock hop fun hflag => ?_
    have hidentity : Mux.identityOf snapshot "input or capture requires a multiplexer target" =
        .error (.unsafe_ "input or capture requires a multiplexer target") := by
      simp only [Mux.identityOf,flagged_muxIdentity hflag]
    unfold Mux.executeMuxAction
    split
    · exact ⟨_,rfl⟩
    · rw [hidentity]
      exact ⟨_,rfl⟩
  | capture snapshot =>
    refine asksIf_underLock hop fun hflag => ?_
    have hidentity : Mux.identityOf snapshot "capture requires a multiplexer target" =
        .error (.unsafe_ "capture requires a multiplexer target") := by
      simp only [Mux.identityOf,flagged_muxIdentity hflag]
    unfold Mux.executeCapture
    split
    · exact ⟨_,rfl⟩
    · rw [hidentity]
      exact ⟨_,rfl⟩
  | validateMux | composerSafe => exact hop.elim
  | _ => exact hasked

theorem flagged_execution [Chrono] [Digest] {snapshot : WatcherState} {action : Action}
    {k : List ExecEvent} {r : Except ExecutionError ExecutionOutput}
    (ht : Traces (executeCommands snapshot action) k r)
    (hk : ∀ e ∈ k, ∃ R : Registry, R.Has snapshot.watcherId WatcherState.Flagged ∧
      ExecEvent.AnsweredIn R e) :
    ∀ e ∈ k, OffMux e.op := by
  obtain ⟨l,rfl,hl,hall⟩ := ht.interpret_inv
  have hfound : ∀ x ∈ l, FindsFlagged snapshot.watcherId x.1 := by
    rintro ⟨_,k⟩ hx w rfl
    obtain ⟨answer,_,rfl,hdone⟩ := Traces.ask_inv (S := execSig)
      (.daemon (.watcher snapshot.watcherId)) (hall _ hx)
    obtain ⟨rfl,hsame⟩ := Traces.done_inv hdone
    obtain rfl : some w = answer := hsame
    obtain ⟨R,hR,hanswer⟩ := hk _ (List.mem_flatMap.2 ⟨_,hx,List.mem_singleton_self _⟩)
    obtain ⟨v,hv,hflag⟩ := hR.memory
    obtain rfl : w = v := Option.some.inj (hanswer.trans hv)
    exact hflag
  intro e he
  obtain ⟨x,hx,he⟩ := List.mem_flatMap.1 he
  have hop : Withheld snapshot.watcherId x.1.op := by
    refine (asksIf_execute action).traced hl ?_ x.1 (List.mem_map_of_mem hx)
    intro e he
    obtain ⟨y,hy,rfl⟩ := List.mem_map.1 he
    exact hfound y hy
  refine (asksIf_handle hop).traced (hall x hx) (fun e' he' s heq hid => ?_) e he
  subst heq
  obtain ⟨R,hR,hanswer⟩ := hk _ (List.mem_flatMap.2 ⟨x,hx,he'⟩)
  obtain ⟨v,hv,hflag⟩ := hR.memory
  have hmatched : R.get s.watcherId = some s := beq_iff_eq.1 (Eq.symm hanswer)
  rw [hid] at hmatched
  obtain rfl : s = v := Option.some.inj (hmatched.symm.trans hv)
  exact hflag

end Executor

/-- A daemon that starts from a file with a multiplexer target of version 1, or with the flag
set: until a registration of the watcher brings a target without the flag the flag stays, over
calls, restarts and failed writes, and an execution for the watcher, whatever it is an execution
of and whenever it reads the registry, makes no call of the multiplexer. -/
theorem legacy_target_untouched [Chrono] [JsonText] [Digest] {id : String}
    {disk : Option PersistedRegistry} {R₀ : Registry} (hlegacy : HoldsLegacy id disk)
    (hload : Registry.Reloads disk R₀) :
    (∀ h R, (registryMachine.restrict (KeepsFlag id)).Runs R₀ h R →
      ∃ w : WatcherState, R.get id = some w ∧ w.target.needsRevalidation = true) ∧
    ∀ snapshot action k r, snapshot.watcherId = id →
      Traces (Executor.executeCommands snapshot action) k r →
      (∀ e ∈ k, ∃ h R, (registryMachine.restrict (KeepsFlag id)).Runs R₀ h R ∧
        ExecEvent.AnsweredIn R e) →
      ∀ e ∈ k, ∀ op, e.op ≠ .mux op := by
  have hstart := Registry.reloads_flagged hlegacy hload
  refine ⟨fun h R hr => (flagged_runs hstart hr).memory,?_⟩
  rintro snapshot action k r rfl ht hk
  refine Executor.flagged_execution ht fun e he => ?_
  obtain ⟨h,R,hr,hanswer⟩ := hk e he
  exact ⟨R,flagged_runs hstart hr,hanswer⟩

namespace Sample
open Registry

def oldWatcher : WatcherState := .new "watcher-1" target .observing 1 0

def oldFile : PersistedRegistry :=
  ⟨1,[{ oldWatcher.encode with
    target := .multiplexer 1 "tmux" "/tmp/tmux" "%1" (ProcessIdentity.new 7 1).encode none
      (some (.tmux "/tmp/tmux" "server" "$1" "@1" "%1" "/dev/pts/1")) none false }]⟩

def oldLoaded : WatcherState :=
  afterRestart { oldWatcher with
    target := .multiplexer "tmux" "/tmp/tmux" "%1" (.new 7 1) none
      (some (.tmux "/tmp/tmux" "server" "$1" "@1" "%1" "/dev/pts/1")) none true }

def oldReopened : WatcherState := committed oldLoaded .default (incident fingerprint) 1

end Sample

attribute [local instance] Sample.chrono Sample.jsonText Sample.digest

/-- The watcher of an old file, confirmed as paused since: the execution of its input comes to
the lock and no further. -/
theorem legacy_target_untouched_reopened :
    let _ := Sample.chrono
    let _ := Sample.jsonText
    let _ := Sample.digest
    ∃ (k : List ExecEvent) (r : Except ExecutionError ExecutionOutput),
      Traces (Executor.executeCommands Sample.oldReopened Sample.submit) k r ∧
      ⟨.locked Sample.oldReopened,true⟩ ∈ k ∧ ∀ e ∈ k, ∀ op, e.op ≠ .mux op := by
  have hload : (Registry.load (some Sample.oldFile) Sample.durable).1 =
      .ok (Sample.loadedFrom Sample.oldFile) := by decide
  have hlegacy : HoldsLegacy "watcher-1" (some Sample.oldFile) := ⟨_,_,rfl,rfl,.inl rfl⟩
  have hstart : (registryMachine.restrict (KeepsFlag "watcher-1")).Runs
      (Sample.loadedFrom Sample.oldFile) [] (Sample.loadedFrom Sample.oldFile) := .start
  have hrun := hstart.snoc ⟨fun _ _ heq => (by cases heq),step_stored (.commitObservation
    "watcher-1" .default (some (Sample.incident Sample.fingerprint)) 1) rfl⟩
  have hget : (Sample.called (Sample.loadedFrom Sample.oldFile) (.commitObservation "watcher-1"
      .default (some (Sample.incident Sample.fingerprint)) 1)).get "watcher-1" =
        some Sample.oldReopened := by decide
  let k : List ExecEvent := [⟨.daemon .cancellationRequested,false⟩,
    ⟨.daemon (.watcher "watcher-1"),some Sample.oldReopened⟩,
    ⟨.daemon (.processAlive Sample.oldReopened.target),true⟩,
    ⟨.locked Sample.oldReopened,true⟩,⟨.daemon .cancellationRequested,false⟩]
  have ht : Traces (Executor.executeCommands Sample.oldReopened Sample.submit) k
      (.error (.unsafe_ "input or capture requires a multiplexer target")) :=
    .ask _ (.ask _ (.ask _ (.ask _ (.ask _ (.done _)))))
  refine ⟨k,_,ht,by simp [k],?_⟩
  refine (legacy_target_untouched hlegacy (.loaded hload)).2 _ _ k _ rfl ht fun e he => ?_
  refine ⟨_,_,hrun,?_⟩
  simp only [k,List.mem_cons,List.not_mem_nil,or_false] at he
  rcases he with rfl | rfl | rfl | rfl | rfl
  · trivial
  · exact hget.symm
  · trivial
  · exact Eq.symm (beq_iff_eq.2 hget)
  · trivial

end WatchMe
