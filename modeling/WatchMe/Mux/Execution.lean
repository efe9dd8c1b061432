import WatchMe.Daemon.Dispatch
import WatchMe.Mux.Actuator

/-! # The executor and the commands it sends

`DaemonActionExecutor::execute` with its multiplexer calls in the trace. An error that the
transaction records as `Failed` comes only from executions that have sent nothing.
-/
namespace WatchMe
open Effects Program

inductive ExecOp where
  | daemon (op : DaemonOp)
  | locked (snapshot : WatcherState)
  | mux (op : MuxOp)

/-- Under the registry lock the snapshot is compared with the watcher. -/
@[reducible] def ExecOp.Answer : ExecOp → Type
  | daemon op => op.Answer
  | locked _ => Bool
  | mux op => op.Answer

abbrev execSig : Signature := ⟨ExecOp,ExecOp.Answer⟩
abbrev ExecEvent := execSig.Event

namespace Executor

def askExec (op : ExecOp) : Program execSig op.Answer := request (S := execSig) op

def askMux (op : MuxOp) : Program execSig op.Answer := askExec (.mux op)

def underLock (snapshot : WatcherState) (command : MuxM ExecutionError ExecutionOutput) :
    Program execSig (Option (Except ExecutionError ExecutionOutput)) := do
  let matched ← askExec (.locked snapshot)
  if matched = true then
    let result ← command.run.interpret askMux
    return some result
  else return none

def handle [Chrono] : (op : DaemonOp) → Program execSig op.Answer
  | .muxCommand snapshot action => underLock snapshot (Mux.executeMuxAction snapshot action)
  | .capture snapshot source maxLines =>
    underLock snapshot (Mux.executeCapture snapshot source maxLines)
  | .validateMux watcher identity => do
    let result ← (Mux.validateMuxTarget watcher identity).run.interpret askMux
    return result.isOk
  | .composerSafe watcher identity => do
    let result ← (Mux.observeComposer watcher identity).run.interpret askMux
    return (result.toOption == some .safe)
  | op => askExec (.daemon op)

def executeCommands [Chrono] [Digest] (snapshot : WatcherState) (action : Action) :
    Program execSig (Except ExecutionError ExecutionOutput) :=
  (execute snapshot action).run.interpret handle

end Executor

def MuxOp.failed : (op : MuxOp) → op.Answer → Bool
  | .connect _, answer | .validateIdentity _, answer | .sendLiteral _ _, answer
  | .submitLiteral _ _, answer | .sendKey _ _, answer => !answer.isOk
  | .captureTail _ _ _, answer => !answer.isOk
  | .agentStateEvents _ _ _, answer => !answer.isOk

def ExecOp.sends : ExecOp → Bool
  | .mux op => op.sends
  | _ => false

/-- The multiplexer reported an error, or the cancellation was seen. -/
def ExecEvent.troubled : ExecEvent → Bool
  | ⟨.mux op,answer⟩ => op.failed answer
  | ⟨.daemon .cancellationRequested,cancelled⟩ => cancelled
  | _ => false

namespace Mux
variable {h : List muxSig.Event}

/-- What the result of a command says about its calls: nothing was sent, the result is a
possible side effect, or everything succeeded. -/
inductive Classified {α : Type} (h : List muxSig.Event) (r : Except ExecutionError α) : Prop
  | clean : (∀ e ∈ h, e.op.sends = false) → Classified h r
  | doubtful (reason : String) : r = .error (.possibleSideEffect reason) → Classified h r
  | fine (a : α) : r = .ok a → (∀ e ∈ h, e.op.failed e.answer = false) → Classified h r

theorem Classified.nil {α : Type} (r : Except ExecutionError α) :
    Classified ([] : List muxSig.Event) r :=
  .clean (by simp)

theorem Classified.cons {α : Type} {r : Except ExecutionError α} {e : muxSig.Event}
    (hr : Classified h r) (hsends : e.op.sends = false) (hok : e.op.failed e.answer = false) :
    Classified (e :: h) r := by
  cases hr with
  | clean hclean => exact .clean (List.forall_mem_cons.2 ⟨hsends,hclean⟩)
  | doubtful reason heq => exact .doubtful reason heq
  | fine a heq hfine => exact .fine a heq (List.forall_mem_cons.2 ⟨hok,hfine⟩)

theorem orThrow_bind_inv {ε ε' α β : Type} {wrap : ε → ε'} {x : Except ε α}
    {f : α → MuxM ε' β} {b : Except ε' β} (ht : Traces (orThrow wrap x >>= f).run h b) :
    (∃ error, x = .error error ∧ h = [] ∧ b = .error (wrap error)) ∨
      ∃ a, x = .ok a ∧ Traces (f a).run h b := by
  cases x with
  | error error =>
    obtain ⟨rfl,rfl⟩ := Traces.done_inv ht
    exact .inl ⟨error,rfl,rfl,rfl⟩
  | ok a => exact .inr ⟨a,rfl,ht⟩

theorem sendKeys_traces (identity : MuxIdentity) (keys : List String)
    (hkeys : ∀ key ∈ keys, (symbolicKey key).isSome = true) {r : Except ExecutionError Unit}
    (ht : Traces (sendKeys identity keys).run h r) :
    (∃ reason, r = .error (.possibleSideEffect reason)) ∨
      r = .ok () ∧ ∀ e ∈ h, e.op.failed e.answer = false := by
  induction keys generalizing h with
  | nil =>
    obtain ⟨rfl,rfl⟩ := Traces.done_inv ht
    exact .inr ⟨rfl,by simp⟩
  | cons key keys ih =>
    obtain ⟨symbol,hsymbol⟩ := Option.isSome_iff_exists.1 (hkeys key List.mem_cons_self)
    rw [sendKeys,hsymbol] at ht
    obtain ⟨answer,k,rfl,hk⟩ := Traces.run_request_inv (S := muxSig) (.sendKey identity symbol) ht
    rcases orThrow_bind_inv hk with ⟨error,rfl,-,rfl⟩ | ⟨u,rfl,hrest⟩
    · exact .inl ⟨_,rfl⟩
    · rcases ih (fun key hkey => hkeys key (List.mem_cons_of_mem _ hkey)) hrest with
        hdoubt | ⟨rfl,hfine⟩
      · exact .inl hdoubt
      · exact .inr ⟨rfl,List.forall_mem_cons.2 ⟨rfl,hfine⟩⟩

section Actuator
variable [Chrono] {action : Action} {r : Except ExecutionError ExecutionOutput}

omit [Chrono] in
theorem classified_command {op : MuxOp} {answer : Except MuxError Unit} {k : List muxSig.Event}
    {cast : op.Answer} (hok : answer.isOk = true → op.failed cast = false)
    (hk : Traces (orThrow possibleSideEffect answer >>= fun _ =>
      (pure .committed : MuxM ExecutionError ExecutionOutput)).run k r) :
    Classified (⟨op,cast⟩ :: k) r := by
  rcases orThrow_bind_inv hk with ⟨error,-,-,rfl⟩ | ⟨u,rfl,hk⟩
  · exact .doubtful _ rfl
  · obtain ⟨rfl,rfl⟩ := Traces.done_inv hk
    exact .fine _ rfl (List.forall_mem_cons.2 ⟨hok rfl,by simp⟩)

theorem actuate_classified {identity : MuxIdentity} {source : EventSource}
    (ht : Traces (actuate identity source action).run h r) :
    Classified h r := by
  rcases orThrow_bind_inv ht with ⟨error,-,rfl,-⟩ | ⟨u,hvalid,ht⟩
  · exact .nil r
  obtain ⟨answer,k,rfl,hvalidated⟩ := Traces.run_request_inv (S := muxSig)
    (.validateIdentity identity) ht
  rcases orThrow_bind_inv hvalidated with ⟨error,-,rfl,-⟩ | ⟨u,rfl,hk⟩
  · exact .clean (by simp [MuxOp.sends])
  refine Classified.cons ?_ rfl rfl
  cases hkind : action.kind with
  | sendText text =>
    rw [hkind] at hk
    obtain ⟨answer,l,rfl,hl⟩ := Traces.run_request_inv (S := muxSig) (.sendLiteral identity text) hk
    exact classified_command (fun hok => by simp [MuxOp.failed,hok]) hl
  | submitText text =>
    rw [hkind] at hk
    obtain ⟨answer,l,rfl,hl⟩ := Traces.run_request_inv (S := muxSig)
      (.submitLiteral identity text) hk
    exact classified_command (fun hok => by simp [MuxOp.failed,hok]) hl
  | sendKeys keys =>
    rw [hkind] at hk
    have hkeys : ∀ key ∈ keys, (symbolicKey key).isSome = true := by
      have hrefusal := (validateAction_ok_iff.1 hvalid).2
      simpa [hkind,actuatorRefusal,Option.isSome_iff_ne_none] using hrefusal
    rcases hk.run_bind_inv with ⟨error,rfl,hx⟩ | ⟨l,l',u,rfl,hx,hrest⟩
    · rcases sendKeys_traces identity keys hkeys hx with ⟨reason,heq⟩ | ⟨heq,-⟩
      · exact .doubtful reason (by cases heq; rfl)
      · cases heq
    · rcases sendKeys_traces identity keys hkeys hx with ⟨reason,heq⟩ | ⟨-,hfine⟩
      · cases heq
      · obtain ⟨rfl,rfl⟩ := Traces.done_inv hrest
        exact .fine _ rfl (by simpa using hfine)
  | capture requested maxLines =>
    rw [hkind] at hk
    dsimp only at hk
    split at hk
    · obtain ⟨rfl,-⟩ := Traces.done_inv hk
      exact .nil r
    · obtain ⟨answer,l,rfl,hl⟩ := Traces.run_request_inv (S := muxSig)
        (.captureTail identity maxLines maxCaptureBytes) hk
      have hnil : l = [] := by
        rcases orThrow_bind_inv hl with ⟨_,-,hnil,-⟩ | ⟨_,-,hl⟩
        · exact hnil
        · exact (Traces.done_inv hl).1
      exact .clean (by simp [hnil,MuxOp.sends])
  | _ =>
    rw [hkind] at hk
    obtain ⟨rfl,-⟩ := Traces.done_inv hk
    exact .nil r

theorem executeMuxAction_classified {watcher : WatcherState}
    (ht : Traces (executeMuxAction watcher action).run h r) : Classified h r := by
  unfold executeMuxAction at ht
  split at ht
  · obtain ⟨rfl,-⟩ := Traces.done_inv ht
    exact .nil r
  rcases orThrow_bind_inv ht with ⟨error,-,rfl,-⟩ | ⟨identity,-,hidentity⟩
  · exact .nil r
  split at hidentity
  · obtain ⟨rfl,-⟩ := Traces.done_inv hidentity
    exact .nil r
  · exact actuate_classified hidentity
  · next context _ _ =>
    obtain ⟨answer,k,rfl,hconnect⟩ := Traces.run_request_inv (S := muxSig) (.connect context)
      hidentity
    rcases orThrow_bind_inv hconnect with ⟨error,-,rfl,-⟩ | ⟨u,rfl,hk⟩
    · exact .clean (by simp [MuxOp.sends])
    · exact (actuate_classified hk).cons rfl rfl

end Actuator

abbrev Silent (op : MuxOp) : Prop := op.sends = false

variable {ε ε' α β : Type}

theorem asks_askThen {op : MuxOp} {f : op.Answer → MuxM ε α} (h : Silent op)
    (hf : ∀ r, (f r).run.Asks (S := muxSig) Silent) : (ask op >>= f).run.Asks (S := muxSig) Silent :=
  (Asks.run_lift (p := request (S := muxSig) op) ⟨h,fun _ => trivial⟩).run_bind hf

theorem asks_orThrow (wrap : ε → ε') (x : Except ε α) :
    (orThrow wrap x).run.Asks (S := muxSig) Silent := by
  cases x <;> trivial

theorem asks_connected (watcher : WatcherState) :
    (connected watcher).run.Asks (S := muxSig) Silent := by
  unfold connected
  split
  · trivial
  · exact asks_askThen rfl fun r => asks_orThrow id r
  · trivial

theorem asks_validateMuxTarget (watcher : WatcherState) (identity : MuxIdentity) :
    (validateMuxTarget watcher identity).run.Asks (S := muxSig) Silent :=
  (asks_connected watcher).run_bind fun _ => asks_askThen rfl fun r => asks_orThrow id r

theorem asks_captureMuxTarget (watcher : WatcherState) (identity : MuxIdentity)
    (lines bytes : Nat) :
    (captureMuxTarget watcher identity lines bytes).run.Asks (S := muxSig) Silent :=
  (asks_connected watcher).run_bind fun _ => asks_askThen rfl fun r => asks_orThrow id r

theorem asks_observeComposer (watcher : WatcherState) (identity : MuxIdentity) :
    (observeComposer watcher identity).run.Asks (S := muxSig) Silent :=
  (asks_captureMuxTarget watcher identity _ _).run_bind fun _ => trivial

theorem asks_captureHerdrStructuredState (watcher : WatcherState) (identity : MuxIdentity)
    (maxEvents : Nat) :
    (captureHerdrStructuredState watcher identity maxEvents).run.Asks (S := muxSig) Silent := by
  unfold captureHerdrStructuredState
  split
  · split
    · trivial
    · refine asks_askThen rfl fun r => (asks_orThrow integration r).run_bind fun _ => ?_
      exact asks_askThen rfl fun r => (asks_orThrow integration r).run_bind fun _ => trivial
  · trivial
  · trivial

theorem asks_executeCapture (watcher : WatcherState) (source : String) (maxLines : Nat) :
    (executeCapture watcher source maxLines).run.Asks (S := muxSig) Silent := by
  unfold executeCapture
  split
  · trivial
  · refine (asks_orThrow id _).run_bind fun identity => ?_
    split
    · exact asks_captureHerdrStructuredState watcher identity maxLines
    · exact Asks.run_bind ((asks_captureMuxTarget watcher identity maxLines _).bind
        fun _ => trivial) fun _ => trivial

end Mux

namespace Executor
variable [Chrono]
variable {k : List ExecEvent} {op : DaemonOp} {r : Except ExecutionError ExecutionOutput}

def ofMux (e : muxSig.Event) : ExecEvent := ⟨.mux e.op,e.answer⟩

omit [Chrono] in
theorem interpret_askMux_inv {α : Type} {p : Program muxSig α} {a : α}
    (ht : Traces (p.interpret askMux) k a) : ∃ h, k = h.map ofMux ∧ Traces p h a := by
  obtain ⟨l,rfl,hl,hall⟩ := ht.interpret_inv
  refine ⟨l.map (·.1),?_,hl⟩
  have hsingle : ∀ x ∈ l, x.2 = [ofMux x.1] := by
    intro x hx
    obtain ⟨answer,k,hk,hdone⟩ := Traces.ask_inv (S := execSig) (.mux x.1.op) (hall x hx)
    obtain ⟨rfl,heq⟩ := Traces.done_inv hdone
    rw [hk,ofMux,heq]
  rw [List.flatMap_def,List.map_congr_left hsingle,← List.flatMap_def,List.map_map,
    List.map_eq_flatMap]
  rfl

def Uncommanding (op : DaemonOp) : Prop := ∀ snapshot action, op ≠ .muxCommand snapshot action

omit [Chrono] in
theorem serves_uncommanding {id : String} (h : Serves id op) : Uncommanding op := by
  rintro s a rfl
  exact h

omit [Chrono] in
theorem reads_uncommanding (h : Reads op) : Uncommanding op := by
  rintro s a rfl
  exact h

theorem asks_handle (hop : Uncommanding op) :
    (handle op).Asks (S := execSig) fun op => op.sends = false := by
  have hask : ∀ op, Mux.Silent op → (askMux op).Asks (S := execSig) fun op => op.sends = false :=
    fun op hsilent => ⟨hsilent,fun _ => trivial⟩
  have hmux : ∀ {ε α : Type} {x : MuxM ε α}, x.run.Asks (S := muxSig) Mux.Silent →
      (x.run.interpret askMux).Asks (S := execSig) fun op => op.sends = false :=
    fun hx => hx.interpret hask
  have hasked : ∀ {op : DaemonOp},
      (askExec (.daemon op)).Asks (S := execSig) fun op => op.sends = false :=
    ⟨rfl,fun _ => trivial⟩
  cases op with
  | muxCommand snapshot action => exact absurd rfl (hop snapshot action)
  | capture snapshot source maxLines =>
    refine ⟨rfl,fun matched => ?_⟩
    cases matched with
    | false => trivial
    | true => exact (hmux (Mux.asks_executeCapture snapshot source maxLines)).bind fun _ => trivial
  | validateMux watcher identity =>
    exact (hmux (Mux.asks_validateMuxTarget watcher identity)).bind fun _ => trivial
  | composerSafe watcher identity =>
    exact (hmux (Mux.asks_observeComposer watcher identity)).bind fun _ => trivial
  | _ => exact hasked

/-- How an execution comes to its result: without its command, because the watcher had changed,
or with the command and a last look at the cancellation. -/
inductive Dispatch (snapshot : WatcherState) (action : Action) (h : List DaemonEvent)
    (r : Except ExecutionError ExecutionOutput) : Prop
  | without : (∀ e ∈ h, Uncommanding e.op) → Dispatch snapshot action h r
  | changed (h₀ : List DaemonEvent) : h = h₀ ++ [⟨.muxCommand snapshot action,none⟩] →
      (∀ e ∈ h₀, Reads e.op) → r = .error targetChanged → Dispatch snapshot action h r
  | commanded (h₀ : List DaemonEvent) (result : Except ExecutionError ExecutionOutput)
      (cancelled : Bool) : h = h₀ ++ [⟨.muxCommand snapshot action,some result⟩,
        ⟨.cancellationRequested,cancelled⟩] → (∀ e ∈ h₀, Reads e.op) →
      r = (if cancelled = true then .error (.possibleSideEffect
        "recovery cancellation arrived after multiplexer dispatch") else result) →
      Dispatch snapshot action h r

omit [Chrono] in
theorem dispatchInput_inv [Digest] {snapshot : WatcherState} {action : Action}
    {h₀ h : List DaemonEvent} (hh₀ : ∀ e ∈ h₀, Reads e.op)
    (ht : Traces (dispatchInput snapshot action).run h r) :
    Dispatch snapshot action (h₀ ++ h) r := by
  have hreads : ∀ {h₁ : List DaemonEvent} {x : Except ExecutionError Unit},
      Traces (confirmLiveEvidence snapshot).run h₁ x → ∀ e ∈ h₀ ++ h₁, Reads e.op := by
    intro h₁ x hx e he
    rcases List.mem_append.1 he with he | he
    · exact hh₀ e he
    · exact (asks_confirmLiveEvidence snapshot).traced hx e he
  rcases ht.run_bind_inv with ⟨error,rfl,hx⟩ | ⟨h₁,k,u,rfl,hx,hk⟩
  · exact .without fun e he => reads_uncommanding (hreads hx e he)
  · obtain ⟨answer,l,rfl,hl⟩ := Traces.run_request_inv (S := daemonSig)
      (.muxCommand snapshot action) hk
    cases answer with
    | none =>
      obtain ⟨rfl,rfl⟩ := Traces.done_inv hl
      exact .changed (h₀ ++ h₁) (by simp) (hreads hx) rfl
    | some result =>
      obtain ⟨cancelled,l',rfl,hl'⟩ := Traces.run_request_inv (S := daemonSig)
        .cancellationRequested hl
      have hsettled : l' = [] ∧ r = (if cancelled = true then .error (.possibleSideEffect
          "recovery cancellation arrived after multiplexer dispatch") else result) := by
        cases cancelled with
        | true => exact Traces.done_inv hl'
        | false =>
          cases result with
          | error => exact Traces.done_inv hl'
          | ok => exact Traces.done_inv hl'
      obtain ⟨rfl,rfl⟩ := hsettled
      exact .commanded (h₀ ++ h₁) result cancelled (by simp) (hreads hx) rfl

omit [Chrono] in
theorem asks_dispatchCapture [Digest] (snapshot : WatcherState) (source : String)
    (maxLines : Nat) :
    (dispatchCapture snapshot source maxLines).run.Asks (S := daemonSig) Uncommanding := by
  refine ((asks_confirmLiveEvidence snapshot).mono fun _ => reads_uncommanding).run_bind fun _ => ?_
  refine asks_askThen (fun _ _ h => by cases h) fun answer => ?_
  refine (asks_dispatched answer).run_bind fun result => ?_
  exact (asks_rejectIfCancelled fun _ _ h => by cases h).run_bind fun _ => asks_settled _

theorem execute_inv [Digest] {snapshot : WatcherState} {action : Action} {h : List DaemonEvent}
    (ht : Traces (execute snapshot action).run h r) : Dispatch snapshot action h r := by
  have hstart : ∀ {h₁ : List DaemonEvent} {x : Except ExecutionError Unit},
      Traces rejectIfCancelled.run h₁ x → ∀ e ∈ h₁, Reads e.op :=
    fun hx => (asks_rejectIfCancelled (φ := Reads) trivial).traced hx
  have hreads : ∀ {l : List DaemonEvent}, (∀ e ∈ l, Reads e.op) → ∀ e ∈ l, Uncommanding e.op :=
    fun hl e he => reads_uncommanding (hl e he)
  rcases ht.run_bind_inv with ⟨error,rfl,hx⟩ | ⟨h₁,k,u,rfl,hx,hk⟩
  · exact .without (hreads (hstart hx))
  have hquiet : (∀ e ∈ k, Uncommanding e.op) → Dispatch snapshot action (h₁ ++ k) r := by
    intro hall
    exact .without (List.forall_mem_append.2 ⟨hreads (hstart hx),hall⟩)
  cases hkind : action.kind with
  | sendText | submitText | sendKeys =>
    rw [hkind] at hk
    exact dispatchInput_inv (hstart hx) hk
  | capture source maxLines =>
    rw [hkind] at hk
    exact hquiet ((asks_dispatchCapture snapshot source maxLines).traced hk)
  | notify =>
    rw [hkind] at hk
    obtain ⟨rfl,-⟩ := Traces.done_inv hk
    exact hquiet (by simp)
  | waitUntil | waitDuration | checkStatus | escalate | stopWatching | noop =>
    rw [hkind] at hk
    exact hquiet fun e he =>
      serves_uncommanding ((asks_runtimeActuator snapshot.watcherId action).traced hk e he)

/-- What the result of an execution says about its calls. -/
inductive Settled (k : List ExecEvent) (r : Except ExecutionError ExecutionOutput) : Prop
  | clean : (∀ e ∈ k, e.op.sends = false) → Settled k r
  | doubtful (reason : String) : r = .error (.possibleSideEffect reason) → Settled k r
  | fine (k₁ k₂ : List ExecEvent) (output : ExecutionOutput) : k = k₁ ++ k₂ →
      (∀ e ∈ k₁, e.op.sends = false) → (∀ e ∈ k₂, ExecEvent.troubled e = false) →
      r = .ok output → Settled k r

variable {snapshot : WatcherState} {action : Action}

omit [Chrono] in
theorem underLock_inv {command : MuxM ExecutionError ExecutionOutput}
    {answer : Option (Except ExecutionError ExecutionOutput)}
    (ht : Traces (underLock snapshot command) k answer) :
    (k = [⟨.locked snapshot,false⟩] ∧ answer = none) ∨
      ∃ h result, k = ⟨.locked snapshot,true⟩ :: h.map ofMux ∧ answer = some result ∧
        Traces command.run h result := by
  obtain ⟨matched,l,rfl,hl⟩ := Traces.ask_inv (S := execSig) (.locked snapshot) ht
  cases matched with
  | false =>
    obtain ⟨rfl,rfl⟩ := Traces.done_inv hl
    exact .inl ⟨rfl,rfl⟩
  | true =>
    change Traces (command.run.interpret askMux >>= fun result => pure (some result)) l answer at hl
    obtain ⟨h,k,result,rfl,hh,hk⟩ := hl.bind_inv
    obtain ⟨rfl,rfl⟩ := Traces.done_inv hk
    obtain ⟨h,rfl,hcommand⟩ := interpret_askMux_inv hh
    exact .inr ⟨h,result,by simp,rfl,hcommand⟩

theorem executeCommands_settled [Digest] (ht : Traces (executeCommands snapshot action) k r) :
    Settled k r := by
  obtain ⟨l,rfl,hl,hall⟩ := ht.interpret_inv
  -- what is asked beside the command sends nothing
  have hsilent : ∀ l' : List (DaemonEvent × List ExecEvent), (∀ x ∈ l', x ∈ l) →
      (∀ x ∈ l', Uncommanding x.1.op) → ∀ e ∈ l'.flatMap (·.2), e.op.sends = false := by
    intro l' hsub hop e he
    obtain ⟨x,hx,he⟩ := List.mem_flatMap.1 he
    exact (asks_handle (hop x hx)).traced (hall x (hsub x hx)) e he
  cases execute_inv hl with
  | without hop =>
    exact .clean (hsilent l (fun _ hx => hx) fun x hx => hop x.1 (List.mem_map_of_mem hx))
  | changed h₀ heq hreads =>
    obtain ⟨l₀,l₁,rfl,hl₀,hl₁⟩ := List.map_eq_append_iff.1 heq
    obtain ⟨x,rfl,hx⟩ := List.map_eq_singleton_iff.1 hl₁
    have hbefore := hsilent l₀ (fun y hy => by simp [hy]) fun y hy =>
      reads_uncommanding (hreads y.1 (hl₀ ▸ List.mem_map_of_mem hy))
    have hlast := hall x (by simp)
    rw [hx] at hlast
    rcases underLock_inv hlast with ⟨hk,-⟩ | ⟨_,_,-,hsome,-⟩
    · refine .clean ?_
      rw [List.flatMap_append,List.forall_mem_append]
      exact ⟨hbefore,by simp [hk,ExecOp.sends]⟩
    · cases hsome
  | commanded h₀ result cancelled heq hreads hr =>
    obtain ⟨l₀,l₁,rfl,hl₀,hl₁⟩ := List.map_eq_append_iff.1 heq
    obtain ⟨x,l₂,rfl,hx,hl₂⟩ := List.map_eq_cons_iff.1 hl₁
    obtain ⟨y,rfl,hy⟩ := List.map_eq_singleton_iff.1 hl₂
    have hbefore := hsilent l₀ (fun y hy => by simp [hy]) fun y hy =>
      reads_uncommanding (hreads y.1 (hl₀ ▸ List.mem_map_of_mem hy))
    have hcommand := hall x (by simp)
    have hlast := hall y (by simp)
    rw [hx] at hcommand
    rw [hy] at hlast
    obtain ⟨_,_,hy₂,hdone⟩ := Traces.ask_inv (S := execSig) (.daemon .cancellationRequested) hlast
    obtain ⟨rfl,rfl⟩ := Traces.done_inv hdone
    rcases underLock_inv hcommand with ⟨-,hnone⟩ | ⟨h,result',hx₂,hsome,hran⟩
    · cases hnone
    obtain rfl : result = result' := by simpa using hsome
    cases cancelled with
    | true => exact .doubtful _ (by rw [hr]; rfl)
    | false =>
      have hr : r = result := by simpa using hr
      have hk : (l₀ ++ [x,y]).flatMap (·.2) = l₀.flatMap (·.2) ++
          (⟨.locked snapshot,true⟩ :: h.map ofMux ++ [⟨.daemon .cancellationRequested,false⟩]) := by
        simp [hx₂,hy₂]
      rw [hk,hr]
      cases Mux.executeMuxAction_classified hran with
      | clean hclean =>
        refine .clean (List.forall_mem_append.2 ⟨hbefore,?_⟩)
        simp only [List.forall_mem_append,List.forall_mem_cons,List.forall_mem_map]
        exact ⟨⟨rfl,hclean⟩,rfl,by simp⟩
      | doubtful reason heq => exact .doubtful reason heq
      | fine output heq hfine =>
        refine .fine _ _ output rfl hbefore ?_ heq
        simp only [List.forall_mem_append,List.forall_mem_cons,List.forall_mem_map]
        exact ⟨⟨rfl,hfine⟩,rfl,by simp⟩

/-- Whatever the multiplexer answers and whenever a cancellation arrives: an execution that
ends with an error recorded as `Failed` has sent nothing, and one that has sent something,
after which something went wrong, ends with a possible side effect. -/
theorem clean_error_sent_nothing [Digest] {k : List ExecEvent}
    {r : Except ExecutionError ExecutionOutput}
    (ht : Traces (executeCommands snapshot action) k r) :
    (∀ reason, r = .error (.unsafe_ reason) ∨ r = .error (.integration reason) →
      ∀ e ∈ k, e.op.sends = false) ∧
    ∀ k₁ e k₂, k = k₁ ++ e :: k₂ → e.op.sends = true →
      (∃ e' ∈ e :: k₂, ExecEvent.troubled e' = true) →
      ∃ reason, r = .error (.possibleSideEffect reason) := by
  cases executeCommands_settled ht with
  | clean hclean =>
    refine ⟨fun _ _ => hclean,?_⟩
    rintro k₁ e k₂ rfl hsends -
    have hsilent := hclean e (by simp)
    rw [hsends] at hsilent
    cases hsilent
  | doubtful reason hr =>
    refine ⟨?_,fun _ _ _ _ _ _ => ⟨reason,hr⟩⟩
    rintro _ (h | h) <;> rw [hr] at h <;> cases h
  | fine l₁ l₂ output hk hclean hfine hr =>
    refine ⟨?_,?_⟩
    · rintro _ (h | h) <;> rw [hr] at h <;> cases h
    · rintro k₁ e k₂ rfl hsends ⟨e',he',htroubled⟩
      -- the call that sent something is not among those before the command
      exfalso
      have hafter : ∀ x ∈ e :: k₂, x ∈ l₂ := by
        rcases List.append_eq_append_iff.1 hk with ⟨m,rfl,hm⟩ | ⟨m,rfl,rfl⟩
        · cases m with
          | nil => simp [hm]
          | cons x =>
            obtain rfl : e = x := (List.cons.inj hm).1
            have hsilent := hclean e (by simp)
            rw [hsends] at hsilent
            cases hsilent
        · exact fun x hx => List.mem_append_right _ hx
      have hfine := hfine e' (hafter e' he')
      rw [htroubled] at hfine
      cases hfine

def twoKeys : Action := Sample.action (.sendKeys ["DOWN","ENTER"]) ["AGENT_WORKING"]

omit [Chrono] in
theorem clean_error_sent_nothing_timeout :
    let _ := Sample.chrono
    let _ := Sample.digest
    let identity : MuxIdentity :=
      ⟨"tmux","server","/tmp/tmux","$1","@1","%1","/dev/pts/1",.new 7 1⟩
    ∃ k₁ k₂ : List ExecEvent, ∃ r,
      Traces (executeCommands Sample.snapshot twoKeys)
        (k₁ ++ ⟨.mux (.sendKey identity .down),.ok ()⟩ :: k₂) r ∧
      ∃ reason, r = .error (.possibleSideEffect reason) := by
  intro _ _ identity
  let k₁ : List ExecEvent := [⟨.daemon .cancellationRequested,false⟩,
    ⟨.daemon (.watcher "watcher-1"),some Sample.snapshot⟩,
    ⟨.daemon (.processAlive Sample.target),true⟩,
    ⟨.mux (.validateIdentity identity),.ok ()⟩,
    ⟨.mux (.captureTail identity 3 1024),.ok ⟨"",0,false⟩⟩,
    ⟨.locked Sample.snapshot,true⟩,⟨.mux (.validateIdentity identity),.ok ()⟩]
  let k₂ : List ExecEvent := [⟨.mux (.sendKey identity .enter),.error .timeout⟩,
    ⟨.daemon .cancellationRequested,false⟩]
  have ht : Traces (executeCommands Sample.snapshot twoKeys)
      (k₁ ++ ⟨.mux (.sendKey identity .down),.ok ()⟩ :: k₂)
      (.error (.possibleSideEffect MuxError.timeout.text)) := by
    refine .ask _ (.ask _ (.ask _ (.ask _ (.ask _ (.ask _ (.ask _ (.ask _ (.ask _ ?_))))))))
    exact .ask _ (.done _)
  exact ⟨k₁,k₂,_,ht,(clean_error_sent_nothing ht).2 k₁ _ k₂ rfl rfl
    ⟨⟨.mux (.sendKey identity .enter),.error .timeout⟩,by simp [k₂],rfl⟩⟩

end Executor

end WatchMe
