import WatchMe.Agents.Claude

/-! # The production observer

`GenericObserver` asks the agents in order: a Claude resume that the hook still supports, the
hook itself, Codex, and then the multiplexer or the process table. Every question is put to
the machine anew, so each has its own answer in the host.
-/
namespace WatchMe

structure ObservationResult where
  event : Option Event
  herdrAfterSequence : Option Nat
  deriving DecidableEq

/-- The correlated hook event when a resume is checked and when it is reported, the machine
as the Codex observer finds it, and what the multiplexer or the process table shows. -/
structure ObserverHost where
  hookForResume : Option Event
  hook : Option Event
  codex : CodexHost
  codexAgain : CodexHost
  target : Except String ObservationResult

variable [Texts] [Digest] [SnapshotBytes]

def GenericObserver.observe (host : ObserverHost) (watcher : WatcherState) (now : Int) :
    Except String ObservationResult :=
  let resume := claudeResumeCandidateEvent watcher now
  if resume.isSome && host.hookForResume.isSome then .ok ⟨resume,none⟩
  else if host.hook.isSome then .ok ⟨host.hook,none⟩
  else
    let codex := observeCodexEvent host.codex host.codexAgain watcher now
    if codex.isSome then .ok ⟨codex,none⟩ else host.target

end WatchMe
