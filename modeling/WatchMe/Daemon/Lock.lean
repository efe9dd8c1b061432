import WatchMe.Daemon.Owner
import WatchMe.Effects.Interference
import WatchMe.Effects.Mortal
import WatchMe.Effects.Play

/-! # The lock of the daemon

A daemon makes the lock file, or takes over the one of a daemon that is gone: it reads whom the file
names, asks whether that process runs, opens the file again, locks it and writes its own identity.
Each of these is an operation of its own, between which other daemons act and at which a daemon may
die. The lock that counts is the one of `flock`, on one file that is never removed: a stage that has
it excludes all others, whatever was read before.
-/
namespace WatchMe
open Effects

/-- An `io::Error`, with whether its kind is `AlreadyExists`. -/
structure LockError where
  alreadyExists : Bool
  text : String
  deriving DecidableEq, Repr

/-- The text of an identity; the empty file is none. -/
class LockText where
  toVec : DaemonIdentity → List UInt8
  fromSlice : List UInt8 → Except String DaemonIdentity
  empty : (fromSlice []).isOk = false

inductive LockOp where
  | createNew
  | openExisting
  | flock (fd : Nat)
  | metadata (fd : Nat)
  | read (fd : Nat) (limit : Nat)
  | setLen (fd : Nat)
  | rewind (fd : Nat)
  | writeAll (fd : Nat) (bytes : List UInt8)
  | syncAll (fd : Nat)
  | close (fd : Nat)
  | startTime (pid : Nat)
  | hold (fd : Nat)
  | live
  deriving DecidableEq

@[reducible] def LockOp.Answer : LockOp → Type
  | createNew | openExisting => Except LockError Nat
  | metadata _ => Except LockError Bool
  | read _ _ => Except LockError (List UInt8)
  | startTime _ => Except LockError (Option Nat)
  | close _ | hold _ | live => Unit
  | _ => Except LockError Unit

theorem LockOp.nonempty_answer (op : LockOp) : Nonempty op.Answer := by
  cases op <;> first | exact ⟨()⟩ | exact ⟨.error ⟨false,""⟩⟩

abbrev lockSig : Signature := ⟨LockOp,LockOp.Answer⟩

abbrev LockM (α : Type) := ExceptT LockError (Program lockSig) α

namespace Flock
variable {fd : Nat}

def call (op : LockOp) : Program lockSig op.Answer := Program.request (S := lockSig) op

/-- A step that makes no request; its errors are not of the kind `AlreadyExists`. -/
def checked {α : Type} (result : Except String α) : LockM α :=
  ExceptT.mk (pure (result.mapError fun text => ⟨false,text⟩))

def closing {α : Type} (fd : Nat) (body : LockM α) : LockM α :=
  ExceptT.mk (body.run >>= fun result => call (.close fd) >>= fun _ => pure result)

def closingOnError {α : Type} (fd : Nat) (body : LockM α) : LockM α :=
  ExceptT.mk (body.run >>= fun result => match result with
    | .ok a => pure (.ok a)
    | .error error => call (.close fd) >>= fun _ => pure (.error error))

variable [LockText]

def writeIdentity (fd : Nat) (identity : DaemonIdentity) : LockM Unit := do
  ExceptT.mk (call (.writeAll fd (LockText.toVec identity)))
  ExceptT.mk (call (.syncAll fd))

def createLock (identity : DaemonIdentity) : LockM Nat := do
  let fd ← ExceptT.mk (call .createNew)
  closingOnError fd (do
    ExceptT.mk (call (.flock fd))
    writeIdentity fd identity
    return fd)

/-- What `read_lock` makes of the bytes of a safe file. -/
def parsed (bytes : List UInt8) : Except String DaemonIdentity :=
  DaemonLock.readLock ⟨true,bytes.length,LockText.fromSlice bytes⟩

def readLock : LockM DaemonIdentity := do
  let fd ← ExceptT.mk (call .openExisting)
  let bytes ← closing fd (do
    let safe ← ExceptT.mk (call (.metadata fd))
    checked (refuseIf (!safe) "daemon lock is unsafe")
    ExceptT.mk (call (.read fd 4097)))
  checked (parsed bytes)

def takeOver (identity : DaemonIdentity) : LockM Nat := do
  let fd ← ExceptT.mk (call .openExisting)
  closingOnError fd (do
    ExceptT.mk (call (.flock fd))
    ExceptT.mk (call (.setLen fd))
    ExceptT.mk (call (.rewind fd))
    writeIdentity fd identity
    return fd)

/-- The arm of `acquire` for a file that exists. -/
def acquireExisting (identity : DaemonIdentity) : LockM Nat := do
  let existing ← readLock
  let running ← ExceptT.mk (call (.startTime existing.pid))
  ExceptT.mk (pure (refuseIf (running == some existing.startTime) ⟨true,"daemon already running"⟩))
  takeOver identity

def acquire (identity : DaemonIdentity) : LockM Nat :=
  ExceptT.mk ((createLock identity).run >>= fun created => match created with
    | .ok fd => pure (.ok fd)
    | .error error =>
      if error.alreadyExists then (acquireExisting identity).run else pure (.error error))

/-- A process that asks for the lock and lives on with it, or without. -/
def process (identity : DaemonIdentity) : Program lockSig Unit :=
  (acquire identity).run >>= fun acquired => (match acquired with
    | .ok fd => call (.hold fd)
    | .error _ => pure ()) >>= fun _ => call .live

structure LockShared where
  file : Option (List UInt8)
  holder : Option Nat
  next : Nat

namespace LockShared

def closed (s : LockShared) (fd : Nat) : LockShared :=
  if s.holder = some fd then { s with holder := none } else s

def written (s : LockShared) (bytes : List UInt8) : LockShared :=
  { s with file := s.file.map fun content => bytes ++ content.drop bytes.length }

end LockShared

def fdOf : LockOp → Option Nat
  | .flock fd | .metadata fd | .read fd _ | .setLen fd | .rewind fd | .writeAll fd _
  | .syncAll fd | .close fd | .hold fd => some fd
  | .createNew | .openExisting | .startTime _ | .live => none

/-- Creation is exclusive, `flock` is exclusive per open file, and the probe may answer anything.
Any operation may fail. -/
def lockWorld : World lockSig LockShared where
  Answers s e s' := match e with
    | ⟨.createNew,.ok fd⟩ => s.file = none ∧ fd = s.next ∧ s' = ⟨some [],s.holder,s.next + 1⟩
    | ⟨.createNew,.error error⟩ => s' = s ∧ (error.alreadyExists = true → s.file ≠ none)
    | ⟨.openExisting,.ok fd⟩ => s.file ≠ none ∧ fd = s.next ∧ s' = ⟨s.file,s.holder,s.next + 1⟩
    | ⟨.flock fd,.ok _⟩ =>
      (s.holder = none ∨ s.holder = some fd) ∧ s' = { s with holder := some fd }
    | ⟨.read _ limit,.ok bytes⟩ => s' = s ∧ ∃ content, s.file = some content ∧
      bytes = content.take limit
    | ⟨.setLen _,.ok _⟩ => s' = { s with file := s.file.map fun _ => [] }
    | ⟨.writeAll _ bytes,.ok _⟩ => s' = s.written bytes
    | ⟨.writeAll _ bytes,.error _⟩ => ∃ n, s' = s.written (bytes.take n)
    | ⟨.close fd,_⟩ | ⟨.hold fd,_⟩ => s' = s.closed fd
    | _ => s' = s
  Restarts _ _ := False

def dies (s : LockShared) (op : LockOp) (s' : LockShared) : Prop :=
  s' = match fdOf op with
    | some fd => s.closed fd
    | none => s

/-- Processes that may die at every operation, over one lock file. -/
abbrev mortalWorld : World lockSig.mortal LockShared := lockWorld.mortal dies

abbrev processes : Machine lockSig.mortal DaemonIdentity (Option Unit) :=
  Program.machine Empty.elim fun identity => (process identity).mortal.once

inductive LockStage where
  | fresh
  | created (fd : Nat)
  | blocked
  | reading (fd : Nat)
  | read (fd : Nat) (named : Bool)
  | stale
  | opened (fd : Nat)
  | locked (fd : Nat)
  | emptied (fd : Nat)
  | written (fd : Nat)
  | synced (fd : Nat)
  | failing (fd : Nat)
  | out
  | gone
  deriving DecidableEq

inductive LockStep (k : DaemonIdentity) : LockStage → lockSig.Event → LockStage → Prop
  | created (fd : Nat) : LockStep k .fresh ⟨.createNew,.ok fd⟩ (.created fd)
  | existed (error : LockError) (h : error.alreadyExists = true) :
      LockStep k .fresh ⟨.createNew,.error error⟩ .blocked
  | notCreated (error : LockError) : LockStep k .fresh ⟨.createNew,.error error⟩ .out
  | createdLocked (fd : Nat) (u : Unit) :
      LockStep k (.created fd) ⟨.flock fd,.ok u⟩ (.emptied fd)
  | createdNotLocked (fd : Nat) (error : LockError) :
      LockStep k (.created fd) ⟨.flock fd,.error error⟩ (.failing fd)
  | wrote (fd : Nat) (u : Unit) :
      LockStep k (.emptied fd) ⟨.writeAll fd (LockText.toVec k),.ok u⟩ (.written fd)
  | notWritten (fd : Nat) (error : LockError) :
      LockStep k (.emptied fd) ⟨.writeAll fd (LockText.toVec k),.error error⟩ (.failing fd)
  | rewound (fd : Nat) (u : Unit) : LockStep k (.emptied fd) ⟨.rewind fd,.ok u⟩ (.emptied fd)
  | notRewound (fd : Nat) (error : LockError) :
      LockStep k (.emptied fd) ⟨.rewind fd,.error error⟩ (.failing fd)
  | synced (fd : Nat) (u : Unit) : LockStep k (.written fd) ⟨.syncAll fd,.ok u⟩ (.synced fd)
  | notSynced (fd : Nat) (error : LockError) :
      LockStep k (.written fd) ⟨.syncAll fd,.error error⟩ (.failing fd)
  | opened (fd : Nat) : LockStep k .blocked ⟨.openExisting,.ok fd⟩ (.reading fd)
  | notOpened (error : LockError) : LockStep k .blocked ⟨.openExisting,.error error⟩ .out
  | inspected (fd : Nat) : LockStep k (.reading fd) ⟨.metadata fd,.ok true⟩ (.reading fd)
  | unsafeFile (fd : Nat) : LockStep k (.reading fd) ⟨.metadata fd,.ok false⟩ (.read fd false)
  | notInspected (fd : Nat) (error : LockError) :
      LockStep k (.reading fd) ⟨.metadata fd,.error error⟩ (.read fd false)
  | readBytes (fd limit : Nat) (bytes : List UInt8) :
      LockStep k (.reading fd) ⟨.read fd limit,.ok bytes⟩ (.read fd (parsed bytes).isOk)
  | notRead (fd limit : Nat) (error : LockError) :
      LockStep k (.reading fd) ⟨.read fd limit,.error error⟩ (.read fd false)
  | closedNamed (fd : Nat) : LockStep k (.read fd true) ⟨.close fd,()⟩ .stale
  | closedUnnamed (fd : Nat) : LockStep k (.read fd false) ⟨.close fd,()⟩ .out
  | probed (pid : Nat) (r : Except LockError (Option Nat)) :
      LockStep k .stale ⟨.startTime pid,r⟩ .stale
  | refused (pid : Nat) (r : Except LockError (Option Nat)) :
      LockStep k .stale ⟨.startTime pid,r⟩ .out
  | reopened (fd : Nat) : LockStep k .stale ⟨.openExisting,.ok fd⟩ (.opened fd)
  | notReopened (error : LockError) : LockStep k .stale ⟨.openExisting,.error error⟩ .out
  | locked (fd : Nat) (u : Unit) : LockStep k (.opened fd) ⟨.flock fd,.ok u⟩ (.locked fd)
  | notLocked (fd : Nat) (error : LockError) :
      LockStep k (.opened fd) ⟨.flock fd,.error error⟩ (.failing fd)
  | truncated (fd : Nat) (u : Unit) : LockStep k (.locked fd) ⟨.setLen fd,.ok u⟩ (.emptied fd)
  | notTruncated (fd : Nat) (error : LockError) :
      LockStep k (.locked fd) ⟨.setLen fd,.error error⟩ (.failing fd)
  | closed (fd : Nat) : LockStep k (.failing fd) ⟨.close fd,()⟩ .out
  | closedBlocked (fd : Nat) : LockStep k (.failing fd) ⟨.close fd,()⟩ .blocked
  | dropped (fd : Nat) : LockStep k (.synced fd) ⟨.hold fd,()⟩ .out
  | ended : LockStep k .out ⟨.live,()⟩ .gone

def lockStages : Machine lockSig DaemonIdentity Unit where
  State := DaemonIdentity × LockStage
  start k := (k,.fresh)
  Step s e s' := s'.1 = s.1 ∧ LockStep s.1 s.2 e s'.2
  result s := match s.2 with
    | .gone => some ()
    | _ => none

section Conformance
variable {k : DaemonIdentity} {α : Type}

theorem conforms_call {op : LockOp} {stage : LockStage}
    {Q : lockStages.State → op.Answer → Prop} (hresult : lockStages.result (k,stage) = none)
    (h : ∀ r, ∃ stage', LockStep k stage ⟨op,r⟩ stage' ∧ Q (k,stage') r) :
    Conforms lockStages Q (call op) (k,stage) := by
  refine ⟨hresult,fun r => ?_⟩
  obtain ⟨stage',hs,hq⟩ := h r
  exact ⟨(k,stage'),⟨rfl,hs⟩,hq⟩

def Acquired (k : DaemonIdentity) (after : LockError → LockStage) (t : lockStages.State) :
    Except LockError Nat → Prop
  | .ok fd => t = (k,.synced fd)
  | .error error => t = (k,after error)

theorem Acquired.failed {after : LockError → LockStage} {error : LockError} {stage : LockStage}
    (h : after error = stage) : Acquired k after (k,stage) (.error error) := by
  subst h
  rfl

/-- `acquire` goes on with a file that existed. -/
def createdAfter (error : LockError) : LockStage := if error.alreadyExists then .blocked else .out

theorem closingOnError_conforms {body : LockM Nat} {stage : LockStage}
    {after : LockError → LockStage} (hafter : ∀ error, after error = .out ∨ after error = .blocked)
    (hbody : Conforms lockStages (Acquired k fun _ => .failing fd) body.run (k,stage)) :
    Conforms lockStages (Acquired k after) (closingOnError fd body).run (k,stage) := by
  refine conforms_bind.2 (hbody.mono fun t r hr => ?_)
  cases r with
  | ok => exact hr
  | error error =>
    obtain rfl : t = (k,.failing fd) := hr
    refine conforms_bind.2 (conforms_call rfl fun _ => ?_)
    rcases hafter error with hstage | hstage
    · exact ⟨.out,.closed fd,.failed hstage⟩
    · exact ⟨.blocked,.closedBlocked fd,.failed hstage⟩

theorem writeIdentity_conforms :
    Conforms lockStages (Acquired k fun _ => .failing fd)
      (writeIdentity fd k >>= fun _ => pure fd : LockM Nat).run (k,.emptied fd) := by
  refine conforms_run_bind.2 (conforms_run_bind.2 (conforms_call rfl fun written => ?_))
  cases written with
  | error error => exact ⟨_,.notWritten fd error,rfl⟩
  | ok =>
    refine ⟨_,.wrote fd (),conforms_call rfl fun synced => ?_⟩
    cases synced with
    | error error => exact ⟨_,.notSynced fd error,rfl⟩
    | ok => exact ⟨_,.synced fd (),rfl⟩

theorem createLock_conforms :
    Conforms lockStages (Acquired k createdAfter) (createLock k).run (k,.fresh) := by
  refine conforms_run_bind.2 (conforms_call rfl fun created => ?_)
  cases created with
  | error error =>
    cases hkind : error.alreadyExists with
    | true => exact ⟨_,.existed error hkind,Acquired.failed (by simp [createdAfter,hkind])⟩
    | false => exact ⟨_,.notCreated error,Acquired.failed (by simp [createdAfter,hkind])⟩
  | ok fd =>
    refine ⟨_,.created fd,closingOnError_conforms (fun error => ?_) ?_⟩
    · unfold createdAfter
      split
      · exact .inr rfl
      · exact .inl rfl
    refine conforms_run_bind.2 (conforms_call rfl fun locked => ?_)
    cases locked with
    | error error => exact ⟨_,.createdNotLocked fd error,rfl⟩
    | ok => exact ⟨_,.createdLocked fd (),writeIdentity_conforms⟩

def ReadStage (k : DaemonIdentity) (t : lockStages.State) : Except LockError DaemonIdentity → Prop
  | .ok _ => t = (k,.stale)
  | .error _ => t = (k,.out)

theorem readLock_conforms : Conforms lockStages (ReadStage k) readLock.run (k,.blocked) := by
  refine conforms_run_bind.2 (conforms_call rfl fun opened => ?_)
  cases opened with
  | error error => exact ⟨_,.notOpened error,rfl⟩
  | ok fd =>
    refine ⟨_,.opened fd,conforms_run_bind.2 (conforms_bind.2 (conforms_run_bind.2 ?_))⟩
    refine conforms_call rfl fun safe => ?_
    rcases safe with error | (_ | _)
    · exact ⟨_,.notInspected fd error,
        conforms_bind.2 (conforms_call rfl fun _ => ⟨_,.closedUnnamed fd,rfl⟩)⟩
    · exact ⟨_,.unsafeFile fd,
        conforms_bind.2 (conforms_call rfl fun _ => ⟨_,.closedUnnamed fd,rfl⟩)⟩
    · refine ⟨_,.inspected fd,conforms_call rfl fun bytes => ?_⟩
      cases bytes with
      | error error =>
        exact ⟨_,.notRead fd 4097 error,
          conforms_bind.2 (conforms_call rfl fun _ => ⟨_,.closedUnnamed fd,rfl⟩)⟩
      | ok bytes =>
        refine ⟨_,.readBytes fd 4097 bytes,conforms_bind.2 (conforms_call rfl fun _ => ?_)⟩
        change ∃ stage', LockStep k (.read fd (parsed bytes).isOk) ⟨.close fd,()⟩ stage' ∧
          Conforms lockStages (ReadStage k) (checked (parsed bytes)).run (k,stage')
        cases parsed bytes with
        | error => exact ⟨_,.closedUnnamed fd,rfl⟩
        | ok => exact ⟨_,.closedNamed fd,rfl⟩

theorem takeOver_conforms :
    Conforms lockStages (Acquired k fun _ => .out) (takeOver k).run (k,.stale) := by
  refine conforms_run_bind.2 (conforms_call rfl fun opened => ?_)
  cases opened with
  | error error => exact ⟨_,.notReopened error,rfl⟩
  | ok fd =>
    refine ⟨_,.reopened fd,closingOnError_conforms (fun _ => .inl rfl) ?_⟩
    refine conforms_run_bind.2 (conforms_call rfl fun locked => ?_)
    cases locked with
    | error error => exact ⟨_,.notLocked fd error,rfl⟩
    | ok =>
      refine ⟨_,.locked fd (),conforms_run_bind.2 (conforms_call rfl fun truncated => ?_)⟩
      cases truncated with
      | error error => exact ⟨_,.notTruncated fd error,rfl⟩
      | ok =>
        refine ⟨_,.truncated fd (),conforms_run_bind.2 (conforms_call rfl fun rewound => ?_)⟩
        cases rewound with
        | error error => exact ⟨_,.notRewound fd error,rfl⟩
        | ok => exact ⟨_,.rewound fd (),writeIdentity_conforms⟩

theorem acquireExisting_conforms :
    Conforms lockStages (Acquired k fun _ => .out) (acquireExisting k).run (k,.blocked) := by
  refine conforms_run_bind.2 (readLock_conforms.mono fun t existing ht => ?_)
  cases existing with
  | error => exact ht
  | ok identity =>
    obtain rfl : t = (k,.stale) := ht
    refine conforms_run_bind.2 (conforms_call rfl fun running => ?_)
    cases running with
    | error => exact ⟨_,.refused _ _,rfl⟩
    | ok running =>
      cases hrunning : running == some identity.startTime with
      | true =>
        refine ⟨_,.refused _ _,conforms_run_bind.2 ?_⟩
        rw [hrunning]
        rfl
      | false =>
        refine ⟨_,.probed _ _,conforms_run_bind.2 ?_⟩
        rw [hrunning]
        exact takeOver_conforms

theorem acquire_conforms :
    Conforms lockStages (Acquired k fun _ => .out) (acquire k).run (k,.fresh) := by
  refine conforms_bind.2 (createLock_conforms.mono fun t created ht => ?_)
  cases created with
  | ok => exact ht
  | error error =>
    obtain rfl : t = (k,createdAfter error) := ht
    cases hkind : error.alreadyExists with
    | true =>
      simp only [createdAfter,hkind,if_true]
      exact acquireExisting_conforms
    | false =>
      simp only [createdAfter,hkind,Bool.false_eq_true,if_false]
      exact Acquired.failed rfl

theorem process_conforms (k : DaemonIdentity) :
    Conforms lockStages (fun t a => lockStages.result t = some a) (process k) (lockStages.start k) := by
  have hlive : Conforms lockStages (fun t a => lockStages.result t = some a) (call .live) (k,.out) :=
    conforms_call rfl fun _ => ⟨_,.ended,rfl⟩
  refine conforms_bind.2 (acquire_conforms.mono fun t acquired ht => ?_)
  cases acquired with
  | error =>
    obtain rfl : t = (k,.out) := ht
    exact hlive
  | ok fd =>
    obtain rfl : t = (k,.synced fd) := ht
    exact conforms_bind.2 (conforms_call rfl fun _ => ⟨_,.dropped fd,hlive⟩)

end Conformance

namespace LockStage

def fd? : LockStage → Option Nat
  | created fd | reading fd | read fd _ | opened fd | locked fd | emptied fd | written fd
  | synced fd | failing fd => some fd
  | fresh | blocked | stale | out | gone => none

def owned : LockStage → Option Nat
  | locked fd | emptied fd | written fd | synced fd => some fd
  | _ => none

omit [LockText] in
theorem fd?_of_owned {stage : LockStage} (h : stage.owned = some fd) : stage.fd? = some fd := by
  cases stage <;> first | exact h | cases h

end LockStage

abbrev MortalStage := Option (DaemonIdentity × LockStage)

def MortalStage.fd? (s : MortalStage) : Option Nat := s.bind (·.2.fd?)

def MortalStage.owned (s : MortalStage) : Option Nat := s.bind (·.2.owned)

omit [LockText] in
theorem MortalStage.fd?_of_owned {s : MortalStage} (h : s.owned = some fd) : s.fd? = some fd := by
  cases s with
  | none => cases h
  | some => exact LockStage.fd?_of_owned h

/-- What a step of a process does to its descriptor and to the lock. -/
inductive Moved (s : LockShared) (old new : MortalStage) (s' : LockShared) : Prop
  | kept : new.fd? = old.fd? → (new.owned = old.owned ∨ new.owned = none) →
      s'.holder = s.holder → s'.next = s.next → Moved s old new s'
  | opened : old.fd? = none → new.fd? = some s.next → new.owned = none → s'.holder = s.holder →
      s'.next = s.next + 1 → Moved s old new s'
  | gained (fd : Nat) : old.fd? = some fd → new.fd? = some fd →
      (s.holder = none ∨ s.holder = some fd) → s'.holder = some fd → s'.next = s.next →
      Moved s old new s'
  | closed (fd : Nat) : old.fd? = some fd → new.fd? = none → s' = s.closed fd →
      Moved s old new s'

omit [LockText] in
theorem closed_next (s : LockShared) (fd : Nat) : (s.closed fd).next = s.next := by
  unfold LockShared.closed
  split <;> rfl

omit [LockText] in
theorem closed_holder (s : LockShared) (fd : Nat) :
    (s.closed fd).holder = if s.holder = some fd then none else s.holder := by
  unfold LockShared.closed
  split <;> rfl

theorem mortal_step {old new : MortalStage} {e : lockSig.mortal.Event}
    (h : lockStages.mortal.Step old e new) : ∃ k stage, old = some (k,stage) ∧
      ((∃ e' stage', e = Program.survived e' ∧ new = some (k,stage') ∧ LockStep k stage e' stage') ∨
        ∃ op, e = ⟨op,none⟩ ∧ new = none ∧ fdOf op = stage.fd?) := by
  obtain ⟨op,answer⟩ := e
  rcases old with - | ⟨k,stage⟩
  · cases h
  refine ⟨k,stage,rfl,?_⟩
  rcases answer with - | r <;> rcases new with - | ⟨k',stage'⟩
  · obtain ⟨r,⟨k',stage'⟩,-,hstep⟩ := h
    refine .inr ⟨op,rfl,rfl,?_⟩
    change LockStep k stage ⟨op,r⟩ stage' at hstep
    cases hstep <;> rfl
  · cases h
  · cases h
  · obtain ⟨heq,hstep⟩ := h
    obtain rfl : k' = k := heq
    exact .inl ⟨⟨op,r⟩,stage',rfl,rfl,hstep⟩

theorem moved_of_answer {k : DaemonIdentity} {stage stage' : LockStage} {e : lockSig.Event}
    {s s' : LockShared} (h : LockStep k stage e stage') (hw : lockWorld.Answers s e s') :
    Moved s (some (k,stage)) (some (k,stage')) s' := by
  cases h with
  | created | opened | reopened =>
    obtain ⟨-,rfl,rfl⟩ := hw
    exact .opened rfl rfl rfl rfl rfl
  | createdLocked fd | locked fd =>
    obtain ⟨hfree,rfl⟩ := hw
    exact .gained fd rfl rfl hfree rfl rfl
  | closedNamed fd | closedUnnamed fd | closed fd | closedBlocked fd | dropped fd =>
    exact .closed fd rfl rfl hw
  | existed | notCreated | readBytes =>
    obtain ⟨rfl,-⟩ := hw
    exact .kept rfl (.inl rfl) rfl rfl
  | notWritten =>
    obtain ⟨n,rfl⟩ := hw
    exact .kept rfl (.inr rfl) rfl rfl
  | createdNotLocked | notRewound | notSynced | notLocked | notTruncated =>
    cases hw
    exact .kept rfl (.inr rfl) rfl rfl
  | _ =>
    cases hw
    exact .kept rfl (.inl rfl) rfl rfl

theorem moved_of_step {old new : MortalStage} {e : lockSig.mortal.Event} {s s' : LockShared}
    (h : lockStages.mortal.Step old e new) (hw : mortalWorld.Answers s e s') :
    Moved s old new s' := by
  obtain ⟨k,stage,rfl,⟨e,stage',rfl,rfl,hstep⟩ | ⟨op,rfl,rfl,hop⟩⟩ := mortal_step h
  · exact moved_of_answer hstep hw
  -- a process that dies lets go of the descriptor of the stage
  have hdies : s' = match fdOf op with
      | some fd => s.closed fd
      | none => s := hw
  rw [hop] at hdies
  cases hfd : stage.fd? with
  | none =>
    rw [hfd] at hdies
    subst hdies
    exact .kept hfd.symm (.inr rfl) rfl rfl
  | some fd =>
    rw [hfd] at hdies
    exact .closed fd hfd rfl hdies

namespace Moved
variable {s s' : LockShared} {old new : MortalStage} {fd : Nat}

omit [LockText] in
theorem fd?_inv (h : Moved s old new s') (hfd : new.fd? = some fd) :
    old.fd? = some fd ∨ (fd = s.next ∧ s'.next = s.next + 1) := by
  cases h with
  | kept hkept => exact .inl (hkept ▸ hfd)
  | opened hold hnew howned hholder hnext => exact .inr ⟨Option.some.inj (hfd.symm.trans hnew),hnext⟩
  | gained fd' hold hnew => exact .inl (hold.trans (hnew.symm.trans hfd))
  | closed fd' hold hnew => cases hnew.symm.trans hfd

omit [LockText] in
theorem le_next (h : Moved s old new s') : s.next ≤ s'.next := by
  cases h with
  | kept _ _ _ hnext => exact Nat.le_of_eq hnext.symm
  | opened => omega
  | gained _ _ _ _ _ hnext => exact Nat.le_of_eq hnext.symm
  | closed fd' _ _ hs => exact Nat.le_of_eq (hs ▸ (closed_next s fd').symm)

omit [LockText] in
theorem owned_inv (h : Moved s old new s') (hold : ∀ fd, old.owned = some fd → s.holder = some fd)
    (howned : new.owned = some fd) : s'.holder = some fd := by
  cases h with
  | kept _ hkept hholder =>
    rcases hkept with hkept | hkept
    · exact hholder.trans (hold fd (hkept ▸ howned))
    · cases hkept.symm.trans howned
  | opened _ _ hnone => cases hnone.symm.trans howned
  | gained fd' _ hnew _ hholder =>
    exact hholder.trans (hnew.symm.trans (MortalStage.fd?_of_owned howned))
  | closed fd' _ hnew => cases hnew.symm.trans (MortalStage.fd?_of_owned howned)

omit [LockText] in
theorem holder_other (h : Moved s old new s') (hother : old.fd? ≠ some fd)
    (hholder : s.holder = some fd) : s'.holder = some fd := by
  cases h with
  | kept _ _ hkept => exact hkept.trans hholder
  | opened _ _ _ hkept => exact hkept.trans hholder
  | gained fd' hold _ hfree =>
    rcases hfree with hfree | hfree
    · cases hfree.symm.trans hholder
    · exact absurd (hold.trans (hfree.symm.trans hholder)) hother
  | closed fd' hold _ hs =>
    have hne : ¬ s.holder = some fd' := fun heq => hother (hold.trans (heq.symm.trans hholder))
    rw [hs,closed_holder,if_neg hne,hholder]

omit [LockText] in
theorem holder_inv (h : Moved s old new s') (hholder : s'.holder = some fd) :
    new.fd? = some fd ∨ (s.holder = some fd ∧ old.fd? ≠ some fd) := by
  cases h with
  | kept hkept _ hsame =>
    by_cases hold : old.fd? = some fd
    · exact .inl (hkept.trans hold)
    · exact .inr ⟨hsame.symm.trans hholder,hold⟩
  | opened hold _ _ hsame =>
    refine .inr ⟨hsame.symm.trans hholder,?_⟩
    rw [hold]
    exact fun heq => nomatch heq
  | gained fd' _ hnew _ hgained => exact .inl (hnew.trans (hgained.symm.trans hholder))
  | closed fd' hold _ hs =>
    rw [hs,closed_holder] at hholder
    split at hholder
    · cases hholder
    · next hne => exact .inr ⟨hholder,fun heq => hne (hholder.trans (heq.symm.trans hold))⟩

end Moved

def Owns (stage : MortalStage) (s : LockShared) : Prop :=
  (∀ fd, stage.fd? = some fd → fd < s.next) ∧ ∀ fd, stage.owned = some fd → s.holder = some fd

def Distinct (p q : MortalStage) : Prop := ∀ fd, p.fd? = some fd → q.fd? ≠ some fd

theorem lock_interference :
    Pool.Interference lockStages.mortal mortalWorld (fun _ => True) Owns Distinct where
  crash _ _ h := h
  start _ _ _ := ⟨nofun,nofun⟩
  startPair _ _ := nofun
  symm h fd hq hp := h fd hp hq
  shared _ _ _ _ := trivial
  own := by
    rintro p q e s s' - ⟨hbounded,hholds⟩ hm hw
    have hmoved := moved_of_step hm hw
    refine ⟨fun fd hfd => ?_,fun fd howned => hmoved.owned_inv hholds howned⟩
    rcases hmoved.fd?_inv hfd with hold | ⟨rfl,hnext⟩
    · exact Nat.lt_of_lt_of_le (hbounded fd hold) hmoved.le_next
    · exact hnext ▸ Nat.lt_succ_self _
  other := by
    rintro p q u e s s' - - ⟨hbounded,hholds⟩ hdistinct hm hw
    have hmoved := moved_of_step hm hw
    refine ⟨⟨fun fd hfd => ?_,fun fd howned => ?_⟩,fun fd hfd hu => ?_⟩
    · exact Nat.lt_of_lt_of_le (hbounded fd hfd) hmoved.le_next
    · refine hmoved.holder_other (fun hfd => ?_) (hholds fd howned)
      exact hdistinct fd hfd (MortalStage.fd?_of_owned howned)
    · -- the step has opened the descriptor, or had it before
      rcases hmoved.fd?_inv hfd with hold | ⟨rfl,-⟩
      · exact hdistinct fd hold hu
      · exact Nat.lt_irrefl _ (hbounded _ hu)

def Held (P : Pool lockStages.mortal LockShared) : Prop :=
  ∀ fd, P.shared.holder = some fd → ∃ (i : Nat) (t : Thread lockStages.mortal),
    P.threads[i]? = some t ∧ MortalStage.fd? t.state = some fd

theorem Held.step {P P' : Pool lockStages.mortal LockShared}
    {l : Label lockSig.mortal DaemonIdentity} (h : Held P) (hs : Pool.Step mortalWorld P l P') :
    Held P' := by
  intro fd hholder
  cases hs with
  | spawn =>
    obtain ⟨i,t,ht,hfd⟩ := h fd hholder
    exact ⟨i,t,(List.getElem?_append_left (List.getElem?_eq_some_iff.1 ht).1).trans ht,hfd⟩
  | act i t e new shared ht _ hm hw =>
    rcases (moved_of_step hm hw).holder_inv hholder with hnew | ⟨hheld,hother⟩
    · have hi : i < P.threads.length := (List.getElem?_eq_some_iff.1 ht).1
      exact ⟨i,_,List.getElem?_set_self hi,hnew⟩
    · obtain ⟨j,u,hu,hfd⟩ := h fd hheld
      have hne : i ≠ j := by
        rintro rfl
        rw [ht,Option.some.injEq] at hu
        exact hother (hu ▸ hfd)
      exact ⟨j,u,(List.getElem?_set_ne hne).trans hu,hfd⟩
  | crash _ hrestart => exact hrestart.elim

theorem owned_eq {P : Pool lockStages.mortal LockShared}
    (h : Pool.Asserts (fun _ => True) Owns Distinct P) {i j fd' : Nat}
    {t u : Thread lockStages.mortal} (ht : P.threads[i]? = some t) (hu : P.threads[j]? = some u)
    (hi : MortalStage.owned t.state = some fd) (hj : MortalStage.owned u.state = some fd') :
    i = j := by
  have hfd : some fd = some fd' :=
    ((h.thread i t ht).2 fd hi).symm.trans ((h.thread j u hu).2 fd' hj)
  obtain rfl : fd = fd' := Option.some.inj hfd
  by_contra hne
  exact h.pair i j t u ht hu hne fd (MortalStage.fd?_of_owned hi) (MortalStage.fd?_of_owned hj)

section Exclusion
variable {D : Discipline lockSig.mortal DaemonIdentity (Option Unit) LockShared} {init : LockShared}
  {P : Pool lockStages.mortal LockShared}

theorem owns_of_reachable (hr : Pool.Reachable lockStages.mortal mortalWorld D init P) :
    Pool.Asserts (fun _ => True) Owns Distinct P :=
  hr.asserts lock_interference trivial

theorem held_of_reachable (hfree : init.holder = none)
    (hr : Pool.Reachable lockStages.mortal mortalWorld D init P) : Held P := by
  refine hr.invariant (fun fd hheld => ?_) fun _ _ _ _ ih _ hs => ih.step hs
  cases hfree.symm.trans hheld

end Exclusion

/-- The process lives and has the lock that `acquire` returned. -/
def Holds (t : Thread processes) (fd : Nat) : Prop :=
  t.alive = true ∧ ∃ next, t.state = Program.ask (S := lockSig.mortal) (.hold fd) next

theorem owned_of_holds {t : Thread processes} (h : Holds t fd)
    {R : processes.State → lockStages.mortal.State → Prop}
    (hR : ∀ p s, R p s → Conforms lockStages.mortal (LoopPost fun _ i => Empty.elim i) p s)
    {u : Thread lockStages.mortal} (hm : Pool.Matches R t u) :
    MortalStage.owned u.state = some fd := by
  obtain ⟨halive,next,hstate⟩ := h
  have hconforms := hR _ _ (hm.related halive)
  rw [hstate] at hconforms
  obtain ⟨s,hs,-⟩ := hconforms.2 (some ())
  obtain ⟨k,stage,hu,⟨e,stage',he,-,hstep⟩ | ⟨op,he,-⟩⟩ := mortal_step hs
  · rw [hu]
    cases hstep <;> cases he
    rfl
  · cases he

end Flock

open Flock

namespace Sample

@[reducible] def lockText : LockText where
  toVec identity := [identity.version.toUInt8,identity.pid.toUInt8,identity.startTime.toUInt8]
  fromSlice
    | [version,pid,startTime] => .ok ⟨version.toNat,pid.toNat,startTime.toNat⟩
    | _ => .error "EOF while parsing a value at line 1 column 0"
  empty := rfl

def noLock : LockShared := ⟨none,none,0⟩

def firstDaemon : DaemonIdentity := ⟨1,9,50⟩

/-- What becomes of a process that finds no lock file. -/
def fileHost : Host mortalWorld where
  ready s
    | .createNew => s.file.isNone
    | .flock _ => s.holder.isNone
    | .writeAll _ _ | .syncAll _ => true
    | _ => false
  answer s
    | .createNew => (some (.ok s.next),⟨some [],s.holder,s.next + 1⟩)
    | .flock fd => (some (.ok ()),{ s with holder := some fd })
    | .writeAll _ bytes => (some (.ok ()),s.written bytes)
    | .syncAll _ => (some (.ok ()),s)
    | _ => (none,s)
  answers s op h := by
    cases op with
    | createNew => exact ⟨Option.isNone_iff_eq_none.1 h,rfl,rfl⟩
    | flock => exact ⟨.inl (Option.isNone_iff_eq_none.1 h),rfl⟩
    | writeAll | syncAll => rfl
    | _ => cases h

attribute [local instance] lockText

def noProcess : Pool processes LockShared := ⟨noLock,[]⟩

def locked : Pool processes LockShared :=
  noProcess.play (.spawn firstDaemon :: .replicate 4 (.act 0 fileHost))

end Sample

/-- Whatever the processes do between the operations of each other, whatever the probe says and
wherever they die, at most one of them lives with the lock. -/
theorem lock_exclusive [LockText]
    {D : Discipline lockSig.mortal DaemonIdentity (Option Unit) LockShared} {init : LockShared}
    {P : Pool processes LockShared} (hr : Pool.Reachable processes mortalWorld D init P)
    {i j fd fd' : Nat} {t u : Thread processes} (ht : P.threads[i]? = some t)
    (hu : P.threads[j]? = some u) (hi : Holds t fd) (hj : Holds u fd') : i = j := by
  obtain ⟨Q,hQ,hPQ⟩ := hr.similar (Conforms.simulates_mortal LockOp.nonempty_answer process_conforms)
  obtain ⟨t',ht',hmt⟩ := hPQ.matched ht
  obtain ⟨u',hu',hmu⟩ := hPQ.matched hu
  exact owned_eq (owns_of_reachable hQ) ht' hu' (owned_of_holds hi (fun _ _ h => h.1) hmt)
    (owned_of_holds hj (fun _ _ h => h.1) hmu)

attribute [local instance] Sample.lockText

theorem lock_exclusive_first :
    let _ := Sample.lockText
    ∃ (P : Pool processes LockShared) (t u : Thread processes),
      Pool.Reachable processes mortalWorld (fun _ _ => True) Sample.noLock P ∧
      P.threads = [t,u] ∧ Holds t 0 ∧ ∀ fd, ¬ Holds u fd := by
  have hlocked : Pool.Reachable processes mortalWorld (fun _ _ => True) Sample.noLock
      Sample.locked := Pool.Reachable.init.play _ fun _ _ _ => trivial
  have hreach := hlocked.step (l := .spawn Sample.firstDaemon) trivial (.spawn _ Sample.firstDaemon)
  obtain ⟨t,hthreads,-⟩ := Pool.exists_thread (l := Sample.locked.threads) (fun _ => true)
    (by decide +kernel)
  have hasks : Sample.locked.asks 0 = some (.hold 0) := by decide +kernel
  obtain ⟨⟨t',op,next⟩,hpending,rfl⟩ := Option.map_eq_some_iff.1 hasks
  obtain ⟨ht,hholds⟩ := Pool.pending_eq_some hpending
  rw [hthreads] at ht hreach
  cases ht
  refine ⟨_,_,_,hreach,rfl,⟨hholds.1,_,hholds.2⟩,fun fd hfd => ?_⟩
  have hsame : 0 = 1 :=
    lock_exclusive hreach (i := 0) (j := 1) rfl rfl ⟨hholds.1,_,hholds.2⟩ hfd
  cases hsame

end WatchMe
