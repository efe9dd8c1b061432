import WatchMe.Daemon.Dispatch
import WatchMe.Process.Linux
import WatchMe.Recovery.Stale

/-! # Whose transactions a daemon takes for its own

A daemon puts its process identifier and its start time into the lock file and into every
transaction. The start time comes from `sysinfo`, in seconds since the epoch. `recover_stale`
asks the process table of `/proc` whether the owner still lives, and there start times are clock
ticks since the boot.
-/
namespace WatchMe
open Effects Program Transaction
variable {pid : Nat}

structure DaemonIdentity where
  version : Nat
  pid : Nat
  startTime : Nat
  deriving DecidableEq

inductive LockCreation where
  | created
  | alreadyExists
  | failed (error : String)

/-- An existing lock file. It is safe if it is a regular file of the user and private. -/
structure LockFile where
  safe : Bool
  length : Nat
  decoded : Except String DaemonIdentity

/-- What the file system and `sysinfo` answer while a daemon starts. -/
structure LockHost where
  created : LockCreation
  existing : Except String LockFile
  rewritten : Except String Unit
  startTime : Nat → Except String (Option Nat)

namespace DaemonLock

def readLock (file : LockFile) : Except String DaemonIdentity := do
  refuseIf (!file.safe) "daemon lock is unsafe"
  refuseIf (decide (4096 < file.length)) "daemon lock is oversized"
  let identity ← file.decoded
  refuseIf (identity.version != 1) "unsupported daemon lock version"
  return identity

def acquire (host : LockHost) (pid startTime : Nat) : Except String DaemonIdentity :=
  match host.created with
  | .created => .ok ⟨1,pid,startTime⟩
  | .failed error => .error error
  | .alreadyExists => do
    let existing ← readLock (← host.existing)
    let running ← host.startTime existing.pid
    refuseIf (running == some existing.startTime) "daemon already running"
    host.rewritten
    return ⟨1,pid,startTime⟩

end DaemonLock

def currentProcessStartTime (host : LockHost) (pid : Nat) : Except String Nat := do
  match ← host.startTime pid with
  | some startTime => return startTime
  | none => throw "current process identity unavailable"

/-- The owner that `run_with_components_and_clock` records. -/
def recoveryOwner (host : LockHost) (pid : Nat) : Except String OwnerIdentity := do
  let startTime ← currentProcessStartTime host pid
  let identity ← DaemonLock.acquire host pid startTime
  return ⟨identity.pid,identity.startTime,
    "daemon:" ++ toString identity.pid ++ ":" ++ toString identity.startTime⟩

def DaemonOwnerProbe.ownerMatches [Digest] (fs : ProcFs) (owner : OwnerIdentity) : Bool :=
  match (linuxProcessInspector fs).inspect owner.pid with
  | .ok actual => actual.startTime == owner.processStartTime
  | .error _ => false

theorem acquire_identity {host : LockHost} {startTime : Nat} {identity : DaemonIdentity}
    (h : DaemonLock.acquire host pid startTime = .ok identity) : identity = ⟨1,pid,startTime⟩ := by
  unfold DaemonLock.acquire at h
  split at h
  · cases h
    rfl
  · cases h
  · simp only [bind_ok_iff] at h
    obtain ⟨file,-,existing,-,running,-,-,-,-,-,h⟩ := h
    cases h
    rfl

theorem recoveryOwner_spec {host : LockHost} {seconds : Nat} {owner : OwnerIdentity}
    (hstart : host.startTime pid = .ok (some seconds)) (h : recoveryOwner host pid = .ok owner) :
    owner.pid = pid ∧ owner.processStartTime = seconds := by
  have hcurrent : currentProcessStartTime host pid = .ok seconds := by
    simp only [currentProcessStartTime,hstart]
    rfl
  unfold recoveryOwner at h
  obtain ⟨startTime,htime,h⟩ := bind_ok_iff.1 h
  obtain ⟨identity,hacquire,h⟩ := bind_ok_iff.1 h
  cases hcurrent.symm.trans htime
  cases acquire_identity hacquire
  cases h
  exact ⟨rfl,rfl⟩

section Probe
variable [Digest]

def LiveAs (fs : ProcFs) (pid ticks : Nat) : Prop :=
  ∃ record, (linuxProcessInspector fs).inspect pid = .ok record ∧ record.startTime = ticks

theorem ownerMatches_iff {fs : ProcFs} {owner : OwnerIdentity} {ticks : Nat}
    (hlive : LiveAs fs owner.pid ticks) :
    DaemonOwnerProbe.ownerMatches fs owner = true ↔ owner.processStartTime = ticks := by
  obtain ⟨record,hinspect,rfl⟩ := hlive
  simp only [DaemonOwnerProbe.ownerMatches,hinspect,beq_iff_eq]
  exact eq_comm

def probed (pid ticks : Nat) : Discipline txSig TxCall TxResult JsonActionStore
  | _, .act _ ⟨.ownerMatches owner,answer⟩ =>
    ∃ fs, LiveAs fs pid ticks ∧ answer = DaemonOwnerProbe.ownerMatches fs owner
  | _, _ => True

end Probe

section Recovery
variable [Chrono] [Render] {target : String} {h : List TxEvent} {s : Stage}

theorem stale_probed (hr : stageMachine.Runs (.recoverStale target) h s) :
    (∀ t r terminal, s = .reaping t r terminal →
      (⟨.ownerMatches r.owner,false⟩ : TxEvent) ∈ h) ∧
    ∀ t record answer, (⟨.append t record,answer⟩ : TxEvent) ∈ h →
      (⟨.ownerMatches record.owner,false⟩ : TxEvent) ∈ h := by
  refine (hr.invariant (I := fun h s => stageMachine.Runs (.recoverStale target) h s ∧
    (∀ t r terminal, s = .reaping t r terminal →
      (⟨.ownerMatches r.owner,false⟩ : TxEvent) ∈ h) ∧
    ∀ t record answer, (⟨.append t record,answer⟩ : TxEvent) ∈ h →
      (⟨.ownerMatches record.owner,false⟩ : TxEvent) ∈ h) ⟨.start,fun _ _ _ hs => (by cases hs),by simp⟩ ?_).2
  rintro h s e s' ⟨hr,hreaping,happended⟩ hs
  have hcourse := runs_course hr
  have hkeep : ∀ {owner : OwnerIdentity}, (⟨.ownerMatches owner,false⟩ : TxEvent) ∈ h →
      (⟨.ownerMatches owner,false⟩ : TxEvent) ∈ h ++ [e] := List.mem_append_left _
  refine ⟨hr.snoc hs,?_,fun t record answer hmem => ?_⟩
  · rintro t r terminal rfl
    cases hs with
    | restart => exact hcourse.1.elim
    | ownerGone => exact List.mem_append_right _ (List.mem_singleton.2 rfl)
  · rcases List.mem_append.1 hmem with hmem | hmem
    · exact hkeep (happended t record answer hmem)
    · obtain rfl := List.mem_singleton.1 hmem
      obtain ⟨r,rfl⟩ := hcourse.recovery_append (fun _ hcall => by cases hcall) hs
      have howner : record.owner = r.owner := by
        rw [show record = expired r from hcourse.1.2]
        rfl
      rw [howner]
      exact hkeep (hreaping t r record rfl)

theorem probed_answers {D : Discipline txSig TxCall TxResult JsonActionStore}
    {owner : OwnerIdentity} (hD : ∀ V i, ¬ D V (.act i ⟨.ownerMatches owner,false⟩))
    {init : JsonActionStore} {P : Pool stageMachine JsonActionStore}
    (hr : Pool.Reachable stageMachine recoveryWorld D init P) :
    ∀ t ∈ P.threads, (⟨.ownerMatches owner,false⟩ : TxEvent) ∉ t.history := by
  refine hr.invariant (by simp) ?_
  intro P l P' _ hP hd hs
  refine hs.forall_thread hP (fun _ => List.not_mem_nil) ?_ fun _ h => h
  rintro i t e σ' rfl - hnot - - - hmem
  rcases List.mem_append.1 hmem with hmem | hmem
  · exact hnot hmem
  · rw [← List.mem_singleton.1 hmem] at hd
    exact hD _ _ hd

end Recovery

namespace Sample

def daemonTable : ProcFs where
  names := .ok [.ok "9"]
  files pid := if pid = 9 then
      procFiles "9 (watchme) S 1 9 9 0 -1 0 0 0 0 0 0 0 0 0 20 0 1 0 500" "/usr/bin/watchme"
    else missingFiles

def lockHost (boot : Nat) : LockHost where
  created := .created
  existing := .error "no lock file"
  rewritten := .ok ()
  startTime pid := .ok (if pid = 9 then some (boot + 500 / 100) else none)

theorem daemon_live :
    let _ := digest
    LiveAs daemonTable 9 500 := by
  intro _
  have hread : (Linux.readProcess 9 (daemonTable.files 9)).map ProcessRecord.startTime =
      .ok 500 := by decide
  exact map_ok_iff.1 hread

def daemonOwner (boot : Nat) : OwnerIdentity :=
  ⟨9,boot + 5,"daemon:9:" ++ toString (boot + 5)⟩

theorem daemonOwner_recorded (boot : Nat) :
    recoveryOwner (lockHost boot) 9 = .ok (daemonOwner boot) := by
  have hname : "daemon:" ++ toString 9 ++ ":" = "daemon:9:" := by decide
  change Except.ok (⟨9,boot + 5,"daemon:" ++ toString 9 ++ ":" ++ toString (boot + 5)⟩ :
    OwnerIdentity) = _
  rw [hname]
  rfl

def resumeOf (owner : OwnerIdentity) : Job := { resume with owner }

/-- The lease of the daemon's transaction is over, and a recovery comes to its record. -/
def reaped : Pool system JsonActionStore :=
  (started (resumeOf (daemonOwner 1700000000))).play (readStale ++ lateOutside.acts 1 1)

def denied : Label txSig TxCall → Bool
  | .act _ ⟨.ownerMatches owner,answer⟩ => decide (owner = daemonOwner 1700000000) && !answer
  | _ => true

def reapedRecord : ActionRecord := expired (prelude.record (resumeOf (daemonOwner 1700000000)))

end Sample

/-- The owner that a running daemon records, looked up while the daemon lives. The probe knows
it exactly if the seconds that `sysinfo` reports are the ticks in its `stat`; and then, whatever
the leases, no `recover_stale` ever appends under that owner. -/
theorem live_owner_recognised_iff [Digest] [Chrono] [Render] {host : LockHost}
    {pid seconds ticks : Nat} {owner : OwnerIdentity} {fs : ProcFs}
    (hstart : host.startTime pid = .ok (some seconds)) (howner : recoveryOwner host pid = .ok owner)
    (hlive : LiveAs fs pid ticks) :
    (DaemonOwnerProbe.ownerMatches fs owner = true ↔ seconds = ticks) ∧
    (seconds = ticks → ∀ (init : JsonActionStore) (P : Pool txMachine JsonActionStore),
      Pool.Reachable txMachine recoveryWorld (probed pid ticks) init P →
      ∀ t ∈ P.threads, ∀ target, t.call = .recoverStale target →
        ∀ target' record answer, (⟨.append target' record,answer⟩ : TxEvent) ∈ t.history →
          record.owner ≠ owner) := by
  obtain ⟨rfl,rfl⟩ := recoveryOwner_spec hstart howner
  refine ⟨ownerMatches_iff hlive,?_⟩
  rintro rfl init P hr t ht target hcall target' record answer hmem rfl
  obtain ⟨R,hsim⟩ := txMachine_simulates
  obtain ⟨Q,hQ,hPQ⟩ := hr.similar hsim
  obtain ⟨i,hi⟩ := List.mem_iff_getElem?.1 ht
  obtain ⟨t',ht',-,htc,hth⟩ := hPQ.thread hi
  have hruns := hQ.runs_at ht'
  rw [htc.trans hcall] at hruns
  rw [← hth] at hmem
  have hdenied := (stale_probed hruns).2 target' record answer hmem
  refine probed_answers ?_ hQ t' (List.mem_of_getElem? ht') hdenied
  rintro V i ⟨fs',hlive',hanswer⟩
  rw [(ownerMatches_iff hlive').2 rfl] at hanswer
  cases hanswer

/-- Where the host was booted 495 seconds after the epoch began, both numbers are 500. -/
theorem live_owner_recognised_early :
    let _ := Sample.digest
    let _ := Sample.chrono
    let _ := Sample.render
    recoveryOwner (Sample.lockHost 495) 9 = .ok (Sample.daemonOwner 495) ∧
      DaemonOwnerProbe.ownerMatches Sample.daemonTable (Sample.daemonOwner 495) = true := by
  intro _ _ _
  have hrecorded := Sample.daemonOwner_recorded 495
  exact ⟨hrecorded,(live_owner_recognised_iff rfl hrecorded Sample.daemon_live).1.2 rfl⟩

attribute [local instance] Sample.digest Sample.chrono Sample.render

/-- On a host that was booted in 2023, a recovery terminates the transaction that the running
daemon is in the middle of, once its lease is over. -/
theorem live_transaction_terminated :
    let _ := Sample.digest
    let _ := Sample.chrono
    let _ := Sample.render
    let owner := Sample.daemonOwner 1700000000
    ∃ (P : Pool txMachine JsonActionStore) (t u : Thread txMachine) (target : String)
      (record : ActionRecord),
      recoveryOwner (Sample.lockHost 1700000000) 9 = .ok owner ∧ LiveAs Sample.daemonTable 9 500 ∧
      Pool.Reachable txMachine recoveryWorld (probed 9 500) JsonActionStore.fresh P ∧
      P.threads = [t,u] ∧ t.call = .run (Sample.resumeOf owner) ∧ t.view.Running ∧
      u.call = .recoverStale target ∧ (⟨.append target record,.ok ()⟩ : TxEvent) ∈ u.history ∧
      record.owner = owner ∧ record.phase.isTerminal = true := by
  have hdenied : DaemonOwnerProbe.ownerMatches Sample.daemonTable (Sample.daemonOwner 1700000000) =
      false := by
    rw [← Bool.not_eq_true,ownerMatches_iff Sample.daemon_live]
    exact Nat.ne_of_gt (by decide)
  have hreach : Pool.Reachable Sample.system recoveryWorld (probed 9 500) .fresh Sample.reaped := by
    refine (Sample.started_reached trivial).play_of Sample.denied _ (fun V l hl => ?_) (by decide)
    unfold probed
    split
    · rw [Sample.denied,Bool.and_eq_true,decide_eq_true_iff,Bool.not_eq_true'] at hl
      exact ⟨_,Sample.daemon_live,by rw [hl.1,hl.2,hdenied]⟩
    · trivial
  obtain ⟨t,u,hthreads,htest⟩ := Pool.exists_threads (l := Sample.reaped.threads)
    (fun t u => decide (t.call = .run (Sample.resumeOf (Sample.daemonOwner 1700000000)) ∧
      t.alive = true ∧ (Sample.system.result t.state).isNone = true ∧
      u.call = .recoverStale "pane-1" ∧
      ⟨.append "pane-1" Sample.reapedRecord,.ok ()⟩ ∈ u.history)) (by decide)
  obtain ⟨hrun,halive,hresult,hcall,hmem⟩ := of_decide_eq_true htest
  exact ⟨_,t,u,_,_,Sample.daemonOwner_recorded _,Sample.daemon_live,hreach,hthreads,hrun,
    ⟨halive,Option.isNone_iff_eq_none.1 hresult⟩,hcall,hmem,rfl,rfl⟩

end WatchMe
