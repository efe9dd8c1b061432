import WatchMe.Effects.Play
import WatchMe.Recovery.RunTraces
import WatchMe.Recovery.System

/-! # Schedules of the recovery system

A store that works, beside what a transaction learns from outside of it: the host by which
concrete interleavings are computed.
-/
namespace WatchMe
open Effects Program Transaction
variable {s : JsonActionStore}

namespace JsonActionStore
variable {t : String} {r : ActionRecord}

def holding (L : Ledger) : JsonActionStore := ⟨L,some L⟩

theorem claimPrepared_stored (hfree : s.state.activeOf t = none)
    (hkey : r.idempotencyKey ∉ s.state.idempotency) :
    s.claimPrepared t r .stored = (.ok true,holding (s.state.claim t r)) := by
  have hactive : s.state.active.contains t = false := by
    rw [← Bool.not_eq_true,Std.ExtTreeMap.contains_iff_mem]
    exact (getElem?_eq_none_iff ..).1 hfree
  have hknown : s.state.idempotency.contains r.idempotencyKey = false := by
    rw [← Bool.not_eq_true,Std.ExtTreeSet.contains_iff_mem]
    exact hkey
  simp [claimPrepared,hactive,hknown,commit,holding]

theorem cas_stored {L : Ledger} {current : ActionRecord} (hcur : L.activeOf t = some current)
    (hkey : current.idempotencyKey = r.idempotencyKey) (hid : current.actionId = r.actionId) :
    L.cas t r = .ok () := by
  simp [Ledger.cas,hcur,hkey,hid,refuseIf]

theorem append_stored {current : ActionRecord} (hcur : s.state.activeOf t = some current)
    (hkey : current.idempotencyKey = r.idempotencyKey) (hid : current.actionId = r.actionId) :
    s.append t r .stored = (.ok (),holding (s.state.appended t r)) := by
  simp [append,cas_stored hcur hkey hid,commit,holding]

end JsonActionStore

open JsonActionStore

deriving instance DecidableEq for LiveEvidence, RecoveryContext, Job, TxCall, TxOp, Ledger,
  JsonActionStore

instance (op : TxOp) : DecidableEq (txSig.Answer op) := by
  cases op <;> exact inferInstance

structure Outside where
  live : LiveEvidence
  after : LiveEvidence
  wall : String
  mono : Nat
  output : Except ExecutionError ExecutionOutput
  owned : Bool

def Outside.host (o : Outside) : Host recoveryWorld where
  answer s op := match op with
    | .claimPrepared t r => s.claimPrepared t r .stored
    | .append t r => s.append t r .stored
    | .escalateUncertain t r reason => s.escalateUncertain t r reason .stored
    | .active t => (s.active t .stored,s)
    | .read => (.ok o.live,s)
    | .readVerification _ => (.ok o.after,s)
    | .wallTime => (o.wall,s)
    | .monotonicMs => (o.mono,s)
    | .sleepMs _ | .execute _ => ((),s)
    | .executeReturns _ => (o.output,s)
    | .ownerMatches _ => (o.owned,s)
  answers s op _ := by
    cases op <;> first | exact ⟨.stored,rfl⟩ | exact ⟨⟨.stored,rfl⟩,rfl⟩ | rfl

def Outside.acts (o : Outside) (i steps : Nat) : List (Move recoveryWorld TxCall) :=
  List.replicate steps (.act i o.host)

namespace Sample

def outside : Outside := ⟨paused,working,"2026-01-01T00:00:00Z",1000,.ok .committed,true⟩

abbrev system : Machine txSig TxCall TxResult := @txMachine chrono render

def started (job : Job) : Pool system JsonActionStore :=
  ⟨.fresh,[Thread.spawned system (.run job)]⟩

theorem started_reached {D : Discipline txSig TxCall TxResult JsonActionStore} {job : Job}
    (h : D ⟨.fresh,[]⟩ (.spawn (.run job))) :
    Pool.Reachable system recoveryWorld D .fresh (started job) :=
  Pool.Reachable.init.step h (.spawn _ _)

def executing : Pool system JsonActionStore := (started resume).play (outside.acts 0 8)

end Sample

end WatchMe
