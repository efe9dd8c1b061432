import WatchMe.Daemon.ServiceCalls

/-! # The protocol of the observation loop

A round reads the clocks and the registry, then observes every due watcher and commits what it
saw. What it commits for a watcher is computed from the registry as it was read at the start of
the round; `loop_commit` says so for every run of the loop.
-/
namespace WatchMe
open Effects Program Service
variable {h : List ServiceEvent}

structure Seen where
  entry : WatcherState × ObservationSchedule
  time : Int
  result : ObservationResult

inductive RoundStage where
  | waking
  | clocked (now : Nat)
  | reading (now : Nat)
  | observing (now : Nat) (read : List WatcherState) (queue : Queue)
  | committing (now : Nat) (read : List WatcherState) (seen : Seen) (queue : Queue)

/-- What a round may take up of the watchers it read, in their order. -/
structure Queued (now : Nat) (read : List WatcherState) (queue : Queue) : Prop where
  sublist : (queue.map (·.1)).Sublist read
  scheduled : ∀ entry ∈ queue, entry.2 = nextSchedule entry.1 now

namespace RoundStage

inductive Step : RoundStage → ServiceEvent → RoundStage → Prop
  | wall {now : Nat} : Step waking ⟨.wallNowMs,now⟩ (clocked now)
  | mono {now mono : Nat} : Step (clocked now) ⟨.monoNowMs,mono⟩ (reading now)
  | list {now : Nat} {read : List WatcherState} {queue : Queue} : Queued now read queue →
      Step (reading now) ⟨.list,read⟩ (observing now read queue)
  | failed {now : Nat} {read : List WatcherState} {w : WatcherState} {next : ObservationSchedule}
      {queue : Queue} {time : Int} {error : String} :
      Step (observing now read ((w,next) :: queue)) ⟨.observe w,(time,.error error)⟩
        (observing now read queue)
  | observed {now : Nat} {read : List WatcherState} {w : WatcherState} {next : ObservationSchedule}
      {queue : Queue} {time : Int} {result : ObservationResult} :
      Step (observing now read ((w,next) :: queue)) ⟨.observe w,(time,.ok result)⟩
        (committing now read ⟨(w,next),time,result⟩ queue)
  | committed {now : Nat} {read : List WatcherState} {w : WatcherState}
      {next : ObservationSchedule} {queue : Queue} {time : Int} {result : ObservationResult}
      {answer : Option WatcherState} :
      Step (committing now read ⟨(w,next),time,result⟩ queue)
        ⟨.commit w.watcherId (recordResult next result) result.event,answer⟩
        (observing now read queue)
  | slept {now deadline : Nat} {read : List WatcherState} :
      Step (observing now read []) ⟨.sleepUntilMono deadline,()⟩ waking

end RoundStage

abbrev roundMachine : Machine serviceSig Unit Unit where
  State := RoundStage
  start _ := .waking
  Step := RoundStage.Step
  result _ := none

theorem queued_foldl (now mono : Nat) (watchers : List WatcherState) (acc : RuntimeDue × Queue) :
    ∃ queue, (watchers.foldl (collectDue now mono) acc).2 = acc.2 ++ queue ∧
      Queued now watchers queue := by
  induction watchers generalizing acc with
  | nil => exact ⟨[],by simp,.refl _,fun _ h => by cases h⟩
  | cons w watchers ih =>
    obtain ⟨queue,hqueue,hqueued⟩ := ih (collectDue now mono acc w)
    rw [List.foldl_cons,hqueue]
    have hcollect : (collectDue now mono acc w).2 = acc.2 ∨
        (collectDue now mono acc w).2 = acc.2 ++ [(w,nextSchedule w now)] := by
      unfold collectDue
      split
      · exact .inl rfl
      · dsimp only
        split
        · exact .inr rfl
        · exact .inl rfl
    rcases hcollect with heq | heq
    · exact ⟨queue,by rw [heq],hqueued.sublist.cons w,hqueued.scheduled⟩
    · refine ⟨(w,nextSchedule w now) :: queue,by rw [heq,List.append_assoc]; rfl,
        hqueued.sublist.cons_cons w,?_⟩
      rintro entry (_ | ⟨_,hentry⟩)
      · rfl
      · exact hqueued.scheduled entry hentry

theorem queued_dueWatchers (due : RuntimeDue) (now mono : Nat) (watchers : List WatcherState) :
    Queued now watchers (dueWatchers due now mono watchers).2 := by
  obtain ⟨queue,hqueue,hqueued⟩ := queued_foldl now mono watchers (due,[])
  rw [dueWatchers,hqueue,List.nil_append]
  exact hqueued

theorem observeAll_conforms (now : Nat) (read : List WatcherState) (queue : Queue) :
    Conforms roundMachine (fun s _ => s = RoundStage.observing now read []) (observeAll queue)
      (RoundStage.observing now read queue) := by
  induction queue with
  | nil => rfl
  | cons entry queue ih =>
    obtain ⟨w,next⟩ := entry
    refine ⟨rfl,fun observed => ?_⟩
    obtain ⟨time,error | result⟩ := observed
    · exact ⟨_,RoundStage.Step.failed,ih⟩
    · exact ⟨_,RoundStage.Step.observed,rfl,fun answer => ⟨_,RoundStage.Step.committed,ih⟩⟩

def RoundStage.Resumes (s : RoundStage) (r : Resumption) : Prop :=
  s = .waking ∧ ∃ due, r = .round due

theorem round_conforms (due : RuntimeDue) :
    Conforms roundMachine (LoopPost RoundStage.Resumes) (runObservationRound due)
      RoundStage.waking := by
  refine ⟨rfl,fun now => ⟨_,RoundStage.Step.wall,rfl,fun mono => ⟨_,RoundStage.Step.mono,rfl,
    fun read => ⟨_,RoundStage.Step.list (queued_dueWatchers due now mono read),?_⟩⟩⟩⟩
  change Conforms roundMachine _ (observeAll (dueWatchers due now mono read).2 >>= _) _
  refine conforms_bind.2 ((observeAll_conforms now read _).mono ?_)
  rintro _ _ rfl
  exact ⟨rfl,fun _ => ⟨_,RoundStage.Step.slept,rfl,_,rfl⟩⟩

section Runs
variable [Chrono] [Render] [Digest] {recipes : WatcherState → Option Action}
  {owner : OwnerIdentity} {h : List ServiceEvent} {p : (serviceMachine recipes owner).State}

theorem loop_runs (hr : (serviceMachine recipes owner).Runs .observationLoop h p) :
    ∃ s, roundMachine.Runs () h s ∧ Conforms roundMachine (LoopPost RoundStage.Resumes) p s := by
  have hmain : Conforms roundMachine (LoopPost RoundStage.Resumes) (main recipes owner .observationLoop)
      (roundMachine.start ()) := round_conforms ∅
  refine Conforms.runs ?_ hmain hr
  rintro s r ⟨rfl,due,rfl⟩
  exact round_conforms due

end Runs

def lastRead (h : List ServiceEvent) : Option (List WatcherState) :=
  h.foldl (fun last e => match e with
    | ⟨.list,read⟩ => some read
    | _ => last) none

theorem lastRead_list (h : List ServiceEvent) (read : List WatcherState) :
    lastRead (h ++ [⟨.list,read⟩]) = some read := by
  rw [lastRead,List.foldl_append]
  rfl

theorem lastRead_snoc {e : ServiceEvent} (he : e.op ≠ .list) :
    lastRead (h ++ [e]) = lastRead h := by
  obtain ⟨op,answer⟩ := e
  rw [lastRead,List.foldl_append]
  cases op <;> first | rfl | exact (he rfl).elim

theorem lastRead_append {l : List ServiceEvent} (hl : ∀ e ∈ l, e.op ≠ .list) :
    lastRead (h ++ l) = lastRead h := by
  induction l using List.reverseRecOn with
  | nil => rw [List.append_nil]
  | append_singleton l e ih =>
    rw [← List.append_assoc,lastRead_snoc (hl e (by simp)),
      ih fun e he => hl e (List.mem_append_left _ he)]

theorem Queued.tail {now : Nat} {read : List WatcherState} {queue : Queue}
    {entry : WatcherState × ObservationSchedule} (h : Queued now read (entry :: queue)) :
    Queued now read queue :=
  ⟨List.sublist_of_cons_sublist h.sublist,fun e he => h.scheduled e (List.mem_cons_of_mem _ he)⟩

def RoundStage.Knows (h : List ServiceEvent) : RoundStage → Prop
  | .observing now read queue => lastRead h = some read ∧ Queued now read queue
  | .committing now read seen queue => lastRead h = some read ∧ Queued now read (seen.entry :: queue) ∧
    ∃ h₀, h = h₀ ++ [⟨.observe seen.entry.1,(seen.time,.ok seen.result)⟩]
  | _ => True

theorem round_knows {s : RoundStage} (hr : roundMachine.Runs () h s) : s.Knows h := by
  refine hr.invariant trivial ?_
  intro h s e s' hknows hs
  cases hs with
  | wall | mono | slept => trivial
  | list hqueued => exact ⟨lastRead_list h _,hqueued⟩
  | failed => exact ⟨(lastRead_snoc (by simp)).trans hknows.1,hknows.2.tail⟩
  | observed => exact ⟨(lastRead_snoc (by simp)).trans hknows.1,hknows.2,_,rfl⟩
  | committed => exact ⟨(lastRead_snoc (by simp)).trans hknows.1,hknows.2.1.tail⟩

section Runs
variable [Chrono] [Render] [Digest] {recipes : WatcherState → Option Action}
  {owner : OwnerIdentity} {h : List ServiceEvent} {p q : (serviceMachine recipes owner).State}

theorem loop_step {e : ServiceEvent}
    (hr : (serviceMachine recipes owner).Runs .observationLoop h p)
    (hs : (serviceMachine recipes owner).Step p e q) :
    ∃ s s', roundMachine.Runs () h s ∧ RoundStage.Step s e s' ∧ s.Knows h := by
  obtain ⟨s,hrun,hp⟩ := loop_runs hr
  cases hs with
  | answer op next r =>
    obtain ⟨s',hstep,-⟩ := hp.2 r
    exact ⟨s,s',hrun,hstep,round_knows hrun⟩

/-- A commit follows the observation of a watcher as it was read at the start of the round, with
the schedule computed from it then. -/
theorem loop_commit {id : String} {schedule : ObservationSchedule} {event : Option Event}
    {answer : Option WatcherState}
    (hr : (serviceMachine recipes owner).Runs .observationLoop h p)
    (hs : (serviceMachine recipes owner).Step p ⟨.commit id schedule event,answer⟩ q) :
    ∃ (read : List WatcherState) (w : WatcherState) (now : Nat) (time : Int)
      (result : ObservationResult) (h₀ : List ServiceEvent), lastRead h = some read ∧ w ∈ read ∧
      w.watcherId = id ∧ schedule = recordResult (nextSchedule w now) result ∧
      event = result.event ∧ h = h₀ ++ [⟨.observe w,(time,.ok result)⟩] := by
  obtain ⟨s,s',-,hstep,hknows⟩ := loop_step hr hs
  cases hstep with
  | @committed now read w next queue time result answer =>
    obtain ⟨hread,hqueued,h₀,hh⟩ := hknows
    have hnext : next = nextSchedule w now := hqueued.scheduled (w,next) List.mem_cons_self
    have hmem : w ∈ read := hqueued.sublist.subset (by simp)
    exact ⟨read,w,now,time,result,h₀,hread,hmem,rfl,by rw [hnext],rfl,hh⟩

end Runs

end WatchMe
