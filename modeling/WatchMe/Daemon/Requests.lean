import WatchMe.Daemon.RegistryRuns
import WatchMe.Process.Inspector

/-! # Requests of users and the lifecycle monitor

Both take the registry lock once and then make one or several registry calls. A request is
validated before it is handled; a request to stop everything ends at the first failure. The
monitor goes on after a failure. What the process table shows is its answer for each watcher.
-/
namespace WatchMe

inductive Request where
  | status (id : Option String)
  | list
  | stop (id : Option String) (all : Bool)
  | pause (id : String)
  | resume (id : String)
  | wakeObservation (id eventFingerprint : String)
  | register (watcher : WatcherState)

inductive Response where
  | status (running : Bool) (watchers : List WatcherState)
  | watchers (watchers : List WatcherState)
  | registered (watcherId : String) (existing : Bool)
  | updated (watcher : WatcherState)
  | stopped
  | acknowledged
  | error (code message : String)

def Request.hasEmptyTarget : Request → Bool
  | .status id | .stop id _ => id == some ""
  | .pause id | .resume id | .wakeObservation id _ => id == ""
  | .list | .register _ => false

def validationError (request : Request) : Option Response :=
  if request.hasEmptyTarget then some (.error "invalid_target" "target ID must not be empty")
  else match request with
    | .stop none false => some (.error "invalid_request" "stop requires a watcher ID or --all")
    | _ => none

abbrev HostWrites := Nat → Nat × WriteOutcome

namespace Registry

def list (R : Registry) : List WatcherState := R.watchers.toList.map (·.2)

variable [JsonText]

/-- `ids.try_for_each(..)`: the first failure ends it. -/
def stopEach (R : Registry) (writes : HostWrites) : Nat → List String →
    Except RegistryError Unit × Registry
  | _, [] => (.ok (),R)
  | n, id :: ids =>
    match R.transition id (.stopped "requested") (writes n).1 (writes n).2 with
    | (.error error,R) => (.error error,R)
    | (.ok (),R) => R.stopEach writes (n + 1) ids

def moveTo (R : Registry) (id : String) (lifecycle : WatcherLifecycle) (now : Nat)
    (host : WriteOutcome) : Except RegistryError Response × Registry :=
  match R.transition id lifecycle now host with
  | (.error error,R) => (.error error,R)
  | (.ok (),R) =>
    -- the transition has found the watcher, so the `expect` of the source holds
    (match R.get id with
      | some watcher => .ok (.updated watcher)
      | none => .error (.unknown id),R)

def registeredResponse : RegistrationOutcome → Response
  | .added id => .registered id false
  | .existing id | .revalidated id => .registered id true

def handleRequest (R : Registry) (writes : HostWrites) :
    Request → Except RegistryError Response × Registry
  | .status none => (.ok (.status true R.list),R)
  | .status (some id) => (.ok (.status true (R.get id).toList),R)
  | .list => (.ok (.watchers R.list),R)
  | .wakeObservation id fingerprint =>
    let (answer,R) := R.wakeObservation id fingerprint (writes 0).1 (writes 0).2
    (answer.map fun _ => .acknowledged,R)
  | .register watcher =>
    let (answer,R) := R.register watcher (writes 0).2
    (answer.map registeredResponse,R)
  | .stop id all =>
    let ids := if all then R.list.map (·.watcherId) else id.toList
    let (answer,R) := R.stopEach writes 0 ids
    (answer.map fun _ => .stopped,R)
  | .pause id => R.moveTo id .paused (writes 0).1 (writes 0).2
  | .resume id => R.moveTo id .observing (writes 0).1 (writes 0).2

/-- What `service_connection` answers to a request that it could read. -/
def serve (R : Registry) (writes : HostWrites) (request : Request) : Response × Registry :=
  match validationError request with
  | some response => (response,R)
  | none =>
    match R.handleRequest writes request with
    | (.ok response,R) => (response,R)
    | (.error error,R) => (.error "daemon_error" error.text,R)

/-- What the monitor does for a watcher that it found alive or gone. -/
def monitorCall (decide : WatcherState → LifecycleDecision) (now : Nat) (watcher : WatcherState) :
    Option RegistryCall :=
  match watcher.lifecycle with
  | .stopped _ | .targetTerminated => none
  | _ =>
    match decide watcher with
    | .alive | .grace => none
    | .reexecAccepted process => some (.retargetProcess watcher.watcherId process now)
    | .terminate => some (.transition watcher.watcherId .targetTerminated now)

omit [JsonText] in
theorem monitorCall_cases {decide : WatcherState → LifecycleDecision} {now : Nat}
    {w : WatcherState} {c : RegistryCall} (h : monitorCall decide now w = some c) :
    (∃ process, decide w = .reexecAccepted process ∧
        c = .retargetProcess w.watcherId process now) ∨
      (decide w = .terminate ∧ c = .transition w.watcherId .targetTerminated now) := by
  unfold monitorCall at h
  split at h
  · cases h
  · cases h
  · split at h
    · cases h
    · cases h
    · next process hdecide => exact .inl ⟨process,hdecide,(Option.some.inj h).symm⟩
    · next hdecide => exact .inr ⟨hdecide,(Option.some.inj h).symm⟩

def performAll (R : Registry) (writes : HostWrites) : Nat → List RegistryCall → Registry
  | _, [] => R
  | n, call :: calls => (call.perform R (writes n).2).2.performAll writes (n + 1) calls

def monitorProcessLifecycles (R : Registry) (writes : HostWrites) (now : Nat)
    (decide : WatcherState → LifecycleDecision) : Registry :=
  R.performAll writes 0 (R.list.filterMap (monitorCall decide now))

end Registry

/-- The registry after some calls in a row, each of which is of the kind where it is made. -/
inductive Registry.Performs [JsonText] (φ : Registry → RegistryCall → Prop) :
    Registry → Registry → Prop
  | nil (R : Registry) : Performs φ R R
  | cons {R R' R'' : Registry} {c : RegistryCall} {answer : Except RegistryError RegistryReply} :
      φ R c → RegistryCall.Performed c R (answer,R') → Performs φ R' R'' → Performs φ R R''

/-- The calls by which a request is served, in the registry where each is made. Only a stop
makes several. -/
inductive Request.Calls (R₀ : Registry) : Request → Registry → RegistryCall → Prop
  | wake (id fingerprint : String) (now : Nat) :
      Calls R₀ (.wakeObservation id fingerprint) R₀ (.wakeObservation id fingerprint now)
  | register (watcher : WatcherState) : Calls R₀ (.register watcher) R₀ (.register watcher)
  | stop (id : String) (now : Nat) (R : Registry) :
      Calls R₀ (.stop (some id) false) R (.transition id (.stopped "requested") now)
  | stopAll (named : Option String) (id : String) (now : Nat) (R : Registry) :
      Calls R₀ (.stop named true) R (.transition id (.stopped "requested") now)
  | pause (id : String) (now : Nat) : Calls R₀ (.pause id) R₀ (.transition id .paused now)
  | resume (id : String) (now : Nat) : Calls R₀ (.resume id) R₀ (.transition id .observing now)

namespace Registry.Performs
variable [JsonText] {φ ψ : Registry → RegistryCall → Prop} {R R' R'' : Registry}

theorem single {c : RegistryCall} {answer : Except RegistryError RegistryReply} (hc : φ R c)
    (h : RegistryCall.Performed c R (answer,R')) : Performs φ R R' :=
  .cons hc h (.nil R')

theorem mono (h : Performs φ R R') (hφ : ∀ R c, φ R c → ψ R c) : Performs ψ R R' := by
  induction h with
  | nil R => exact .nil R
  | cons hc hp _ ih => exact .cons (hφ _ _ hc) hp ih

theorem invariant {I : Registry → Prop}
    (hstep : ∀ c R answer R', φ R c → RegistryCall.Performed c R (answer,R') → I R → I R')
    (h : Performs φ R R') (hI : I R) : I R' := by
  induction h with
  | nil => exact hI
  | cons hc hp _ ih => exact ih (hstep _ _ _ _ hc hp hI)

theorem keyed (h : Performs φ R R') (hkeyed : R.Keyed) : R'.Keyed :=
  h.invariant (fun _ _ _ _ _ hp hk => hp.keyed hk) hkeyed

theorem performAll (writes : HostWrites) (calls : List RegistryCall)
    (hcalls : ∀ R, ∀ c ∈ calls, φ R c) (n : Nat) (R : Registry) :
    Performs φ R (R.performAll writes n calls) := by
  induction calls generalizing n R with
  | nil => exact .nil R
  | cons c calls ih =>
    exact .cons (hcalls R c List.mem_cons_self) (c.perform_performed R (writes n).2)
      (ih (fun R d hd => hcalls R d (List.mem_cons_of_mem _ hd)) _ _)

theorem stopEach (writes : HostWrites) (ids : List String)
    (hids : ∀ R, ∀ id ∈ ids, ∀ now, φ R (.transition id (.stopped "requested") now)) (n : Nat)
    (R : Registry) : Performs φ R (R.stopEach writes n ids).2 := by
  induction ids generalizing n R with
  | nil => exact .nil R
  | cons id ids ih =>
    have hp := RegistryCall.perform_performed
      (.transition id (.stopped "requested") (writes n).1) R (writes n).2
    rw [RegistryCall.perform] at hp
    unfold Registry.stopEach
    generalize R.transition id (.stopped "requested") (writes n).1 (writes n).2 = called at hp ⊢
    obtain ⟨_ | _,R₁⟩ := called
    · exact .single (hids R id List.mem_cons_self _) hp
    · exact .cons (hids R id List.mem_cons_self _) hp
        (ih (fun R i hi => hids R i (List.mem_cons_of_mem _ hi)) _ _)

theorem moveTo (R : Registry) (id : String) (lifecycle : WatcherLifecycle) (now : Nat)
    (host : WriteOutcome) (hc : φ R (.transition id lifecycle now)) :
    Performs φ R (R.moveTo id lifecycle now host).2 := by
  have hp := RegistryCall.perform_performed (.transition id lifecycle now) R host
  rw [RegistryCall.perform] at hp
  unfold Registry.moveTo
  generalize R.transition id lifecycle now host = called at hp ⊢
  obtain ⟨_ | _,R₁⟩ := called
  · exact .single hc hp
  · exact .single hc hp

theorem handleRequest (R : Registry) (writes : HostWrites) (request : Request) :
    Performs (request.Calls R) R (R.handleRequest writes request).2 := by
  cases request with
  | status id => cases id <;> exact .nil R
  | list => exact .nil R
  | wakeObservation id fingerprint =>
    exact .single (.wake id fingerprint _) (RegistryCall.perform_performed
      (.wakeObservation id fingerprint (writes 0).1) R (writes 0).2)
  | register watcher =>
    exact .single (.register watcher)
      (RegistryCall.perform_performed (.register watcher) R (writes 0).2)
  | pause id => exact moveTo R id .paused _ _ (.pause id _)
  | resume id => exact moveTo R id .observing _ _ (.resume id _)
  | stop id all =>
    refine stopEach writes _ (fun R' i hi now => ?_) 0 R
    cases all with
    | true => exact .stopAll id i now R'
    | false =>
      obtain rfl : id = some i := by simpa using hi
      exact .stop i now R'

theorem serve (R : Registry) (writes : HostWrites) (request : Request) :
    Performs (request.Calls R) R (R.serve writes request).2 := by
  unfold Registry.serve
  split
  · exact .nil R
  · have hp := handleRequest R writes request
    generalize R.handleRequest writes request = handled at hp ⊢
    obtain ⟨_ | _,R₁⟩ := handled
    · exact hp
    · exact hp

theorem monitor (R : Registry) (writes : HostWrites) (now : Nat)
    (decide : WatcherState → LifecycleDecision) :
    Performs (fun _ c => ∃ w ∈ R.list, monitorCall decide now w = some c) R
      (R.monitorProcessLifecycles writes now decide) :=
  performAll writes _ (fun _ _ hc => List.mem_filterMap.1 hc) 0 R

end Registry.Performs

end WatchMe
