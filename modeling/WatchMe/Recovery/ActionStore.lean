import WatchMe.Model.Event

/-! # The durable action ledger

`JsonActionStore` keeps one ledger in memory and one on disk. Every call runs under
the store's mutex, so it is one atomic step; its write may fail and leave either the
old or the new content on disk, while memory changes only after a reported success.
`perform_outcome` says once what a call can do, `Extends` what an accepted one does to
the ledger, and everything later is derived from these two.
-/
namespace WatchMe

structure OwnerIdentity where
  pid : Nat
  processStartTime : Nat
  nonce : String
  deriving DecidableEq, Repr

inductive ActionPhase where
  | prepared
  | begun
  | sent
  | verifying
  | succeeded
  | failed
  | uncertain
  | humanRequired
  deriving DecidableEq, Repr

def ActionPhase.isTerminal : ActionPhase → Bool
  | succeeded | failed | humanRequired => true
  | _ => false

structure ActionRecord where
  actionId : String
  idempotencyKey : String
  target : String
  identity : String
  fingerprint : String
  owner : OwnerIdentity
  preparedAtMs : Nat
  leaseDeadlineMs : Nat
  phase : ActionPhase
  reason : String
  snapshot : String
  output : Option String
  deriving DecidableEq, Repr

def ActionRecord.next (record : ActionRecord) (phase : ActionPhase) (reason : String) :
    ActionRecord :=
  { record with phase, reason }

structure Ledger where
  version : Nat
  audit : StrMap (List ActionRecord)
  active : StrMap ActionRecord
  idempotency : Std.ExtTreeSet String

namespace Ledger

def empty : Ledger := ⟨1,∅,∅,∅⟩

def auditOf (L : Ledger) (target : String) : List ActionRecord := L.audit[target]?.getD []

def activeOf (L : Ledger) (target : String) : Option ActionRecord := L.active[target]?

def push (L : Ledger) (target : String) (records : List ActionRecord) :
    StrMap (List ActionRecord) :=
  L.audit.insert target (L.auditOf target ++ records)

def claim (L : Ledger) (target : String) (record : ActionRecord) : Ledger where
  version := L.version
  audit := L.push target [record]
  active := L.active.insert target record
  idempotency := L.idempotency.insert record.idempotencyKey

def appended (L : Ledger) (target : String) (record : ActionRecord) : Ledger where
  version := L.version
  audit := L.push target [record]
  active :=
    if record.phase.isTerminal then L.active.erase target else L.active.insert target record
  idempotency := L.idempotency

def uncertainRecord (record : ActionRecord) (reason : String) : ActionRecord :=
  record.next .uncertain reason

def humanRecord (record : ActionRecord) (reason : String) : ActionRecord :=
  (uncertainRecord record reason).next .humanRequired
    ("possible side effect requires human review: " ++ reason)

def escalated (L : Ledger) (target : String) (record : ActionRecord) (reason : String) :
    Ledger where
  version := L.version
  audit := L.push target [uncertainRecord record reason,humanRecord record reason]
  active := L.active.erase target
  idempotency := L.idempotency

/-- The compare-and-swap shared by `append` and `escalate_uncertain`: key and action
are compared, the phase is not. -/
def cas (L : Ledger) (target : String) (record : ActionRecord) : Except String Unit :=
  match L.activeOf target with
  | none => .error "target has no active transaction"
  | some current =>
    refuseIf (current.idempotencyKey != record.idempotencyKey
      || current.actionId != record.actionId) "action transaction CAS mismatch"

end Ledger

/-- What the mutex and the file system answer to one call: a poisoned lock, a durable
write, or a failed write that left the old (`lost`) or the new (`landed`) content. -/
inductive HostOutcome where
  | poisoned
  | stored
  | lost (error : String)
  | landed (error : String)
  deriving DecidableEq, Repr

structure JsonActionStore where
  state : Ledger
  disk : Option Ledger

namespace JsonActionStore

def poisonedError : String := "action ledger lock poisoned"

/-- `store.write(&next)?; ledger.state = next`. -/
def commit {β : Type} (s : JsonActionStore) (next : Ledger) (value : β) :
    HostOutcome → Except String β × JsonActionStore
  | .poisoned => (.error poisonedError,s)
  | .stored => (.ok value,⟨next,some next⟩)
  | .lost error => (.error error,s)
  | .landed error => (.error error,⟨s.state,some next⟩)

def claimPrepared (s : JsonActionStore) (target : String) (record : ActionRecord)
    (host : HostOutcome) : Except String Bool × JsonActionStore :=
  if host = .poisoned then (.error poisonedError,s)
  else if s.state.active.contains target
      || s.state.idempotency.contains record.idempotencyKey then (.ok false,s)
  else s.commit (s.state.claim target record) true host

def append (s : JsonActionStore) (target : String) (record : ActionRecord)
    (host : HostOutcome) : Except String Unit × JsonActionStore :=
  if host = .poisoned then (.error poisonedError,s)
  else match s.state.cas target record with
    | .error error => (.error error,s)
    | .ok () => s.commit (s.state.appended target record) () host

def escalateUncertain (s : JsonActionStore) (target : String) (record : ActionRecord)
    (reason : String) (host : HostOutcome) : Except String ActionRecord × JsonActionStore :=
  if host = .poisoned then (.error poisonedError,s)
  else match s.state.cas target record with
    | .error error => (.error error,s)
    | .ok () =>
      s.commit (s.state.escalated target record reason) (Ledger.humanRecord record reason) host

def active (s : JsonActionStore) (target : String) (host : HostOutcome) :
    Except String (Option ActionRecord) :=
  if host = .poisoned then .error poisonedError else .ok (s.state.activeOf target)

/-- Opening the file anew. A ledger of another version is refused. -/
def load (disk : Option Ledger) : Except String JsonActionStore :=
  match disk with
  | none => .ok ⟨Ledger.empty,none⟩
  | some L =>
    if L.version = 1 then .ok ⟨L,some L⟩ else .error "unsupported action ledger version"

end JsonActionStore

def claimGranted : Except String Bool → Bool
  | .ok granted => granted
  | .error _ => false

inductive StoreCall where
  | claimPrepared (target : String) (record : ActionRecord)
  | append (target : String) (record : ActionRecord)
  | escalateUncertain (target : String) (record : ActionRecord) (reason : String)

namespace StoreCall

def target : StoreCall → String
  | claimPrepared t _ | append t _ | escalateUncertain t _ _ => t

def record : StoreCall → ActionRecord
  | claimPrepared _ r | append _ r | escalateUncertain _ r _ => r

def key (c : StoreCall) : String := c.record.idempotencyKey

def records : StoreCall → List ActionRecord
  | claimPrepared _ r | append _ r => [r]
  | escalateUncertain _ r reason => [Ledger.uncertainRecord r reason,Ledger.humanRecord r reason]

/-- A claim is made with a record that is not terminal. -/
def Admissible : StoreCall → Prop
  | claimPrepared _ r => r.phase.isTerminal = false
  | append _ _ | escalateUncertain _ _ _ => True

/-- The call on the store: whether it was accepted (`Ok`, and for a claim `Ok(true)`),
and the store after it. -/
def perform (s : JsonActionStore) (host : HostOutcome) : StoreCall → Bool × JsonActionStore
  | claimPrepared t r =>
    let (answer,s') := s.claimPrepared t r host
    (claimGranted answer,s')
  | append t r =>
    let (answer,s') := s.append t r host
    (answer.isOk,s')
  | escalateUncertain t r reason =>
    let (answer,s') := s.escalateUncertain t r reason host
    (answer.isOk,s')

end StoreCall

end WatchMe
