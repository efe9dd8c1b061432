import WatchMe.Daemon.Dispatch
import WatchMe.Daemon.Registration
import WatchMe.Mux.Tmux

/-! # Fresh tmux targets

A client in a tmux pane resolves its agent from the process table and registers it with the pane
it runs in. The daemon compares the identity it stored with what tmux and the process table say
about the pane. Both read the same files; only the client adds a digest of its ancestors.
-/
namespace WatchMe
open Effects Program Text

/-- What the process table says about a process is what it lists. -/
structure ProcessInspector.Coherent (inspector : ProcessInspector) : Prop where
  inspected : ∀ pid process, inspector.inspect pid = .ok process → process.pid = pid
  listed : ∀ tty processes, inspector.processesOnTty tty = .ok processes →
    ∀ process ∈ processes, inspector.inspect process.pid = .ok process

section Linux
variable [Digest]

theorem Linux.readProcess_pid {pid : Nat} {files : ProcFiles} {process : ProcessRecord}
    (h : readProcess pid files = .ok process) : process.pid = pid := by
  unfold readProcess at h
  simp only [bind_ok_iff] at h
  obtain ⟨_,_,parsed,_,_,_,uid,_,_,_,final,_,h⟩ := h
  split at h
  · cases h
  · cases h
    rfl

theorem Linux.mem_onTty {files : Nat → ProcFiles} {tty : String} {pids : List Nat}
    {processes : List ProcessRecord} (h : onTty files tty pids = .ok processes) :
    ∀ process ∈ processes, ∃ pid, readProcess pid (files pid) = .ok process := by
  induction pids generalizing processes with
  | nil =>
    cases h
    simp
  | cons pid pids ih =>
    unfold onTty at h
    split at h
    · next process hread =>
      obtain ⟨rest,hrest,h⟩ := bind_ok_iff.1 h
      cases h
      intro p hp
      split at hp
      · rcases List.mem_cons.1 hp with rfl | hp
        · exact ⟨pid,hread⟩
        · exact ih hrest p hp
      · exact ih hrest p hp
    · exact ih h
    · cases h

theorem linuxProcessInspector_coherent (fs : ProcFs) : (linuxProcessInspector fs).Coherent where
  inspected pid process h := Linux.readProcess_pid h
  listed tty processes h process hp := by
    obtain ⟨names,_,h⟩ := bind_ok_iff.1 h
    obtain ⟨pids,_,h⟩ := bind_ok_iff.1 h
    obtain ⟨pid,hread⟩ := Linux.mem_onTty h process hp
    have hpid := Linux.readProcess_pid hread
    subst hpid
    exact hread

end Linux

namespace ProcessResolver
variable {inspector : ProcessInspector}
variable {childPid : Nat}

theorem ancestryFrom_inspected (hinspector : inspector.Coherent) (fuel : Nat)
    (result : List ProcessRecord) (pid : Nat)
    (hresult : ∀ process ∈ result, inspector.inspect process.pid = .ok process) :
    ∀ process ∈ ancestryFrom inspector fuel result pid,
      inspector.inspect process.pid = .ok process := by
  induction fuel generalizing result pid with
  | zero => exact hresult
  | succ fuel ih =>
    unfold ancestryFrom
    split
    · exact hresult
    · next process hprocess =>
      have hnext : ∀ p ∈ result ++ [process], inspector.inspect p.pid = .ok p := by
        refine List.forall_mem_append.2 ⟨hresult,?_⟩
        intro p hp
        obtain rfl := List.mem_singleton.1 hp
        rw [hinspector.inspected pid p hprocess]
        exact hprocess
      dsimp only
      split
      · exact hnext
      · exact ih _ _ hnext

theorem mem_candidates (hinspector : inspector.Coherent) {manifestNames : List String}
    {hints : CandidateHints} {found : List ResolvedProcess}
    (h : candidates manifestNames inspector hints (ancestry inspector childPid) = .ok found) :
    ∀ resolved ∈ found, ∃ process, inspector.inspect process.pid = .ok process ∧
      resolved.identity = process.identity := by
  have hcandidate : ∀ {distance process resolved},
      candidateOf manifestNames hints distance process = some resolved →
        resolved.identity = process.identity := by
    intro distance process resolved hc
    obtain ⟨agent,-,hc⟩ := Option.bind_eq_some_iff.1 hc
    obtain ⟨scored,-,rfl⟩ := Option.map_eq_some_iff.1 hc
    rfl
  have hancestor : ∀ resolved ∈ ancestorCandidates manifestNames hints
      (ancestry inspector childPid), ∃ process, inspector.inspect process.pid = .ok process ∧
        resolved.identity = process.identity := by
    intro resolved hr
    obtain ⟨⟨process,distance⟩,hmem,hc⟩ := List.mem_filterMap.1 hr
    have hprocess : process ∈ ancestry inspector childPid :=
      (List.mem_zipIdx (List.mem_of_mem_drop hmem)).2.2 ▸ List.getElem_mem _
    exact ⟨process,ancestryFrom_inspected hinspector _ [] childPid (by simp) process hprocess,
      hcandidate hc⟩
  unfold candidates at h
  split at h
  · obtain ⟨processes,hlisted,rfl⟩ := map_ok_iff.1 h
    intro resolved hr
    obtain ⟨process,hprocess,hc⟩ := List.mem_filterMap.1 hr
    exact ⟨process,hinspector.listed _ _ hlisted process hprocess,hcandidate hc⟩
  · cases h
    exact hancestor

theorem selectCandidate_mem {found : List ResolvedProcess} {selected : ResolvedProcess}
    (h : selectCandidate found = .ok selected) : selected ∈ found := by
  unfold selectCandidate at h
  split at h
  · cases h
  · next best rest hsorted =>
    split at h
    · cases h
    · split at h
      · cases h
      · cases h
        rw [← List.mem_mergeSort,hsorted]
        exact List.mem_cons_self

theorem resolve_identity [Digest] (hinspector : inspector.Coherent) {manifestNames : List String}
    {hints : CandidateHints} {resolved : ResolvedProcess}
    (h : resolve manifestNames inspector childPid hints = .ok resolved) :
    ∃ process, inspector.inspect process.pid = .ok process ∧
      resolved.identity = { process.identity with
        parentDigest := parentDigest (ancestry inspector childPid) } := by
  obtain ⟨found,hfound,h⟩ := bind_ok_iff.1 h
  obtain ⟨selected,hselected,h⟩ := bind_ok_iff.1 h
  obtain ⟨process,hprocess,hidentity⟩ :=
    mem_candidates hinspector hfound selected (selectCandidate_mem hselected)
  refine ⟨process,hprocess,?_⟩
  cases h
  cases parentDigest (ancestry inspector childPid) with
  | none => exact hidentity
  | some digest =>
    change { selected.identity with parentDigest := some digest } = _
    rw [hidentity]

theorem ancestryFrom_ne_nil (fuel : Nat) {result : List ProcessRecord} (pid : Nat)
    (hresult : result ≠ []) : ancestryFrom inspector fuel result pid ≠ [] := by
  induction fuel generalizing result pid with
  | zero => exact hresult
  | succ fuel ih =>
    unfold ancestryFrom
    split
    · exact hresult
    · dsimp only
      split
      · simp
      · exact ih _ (by simp)

theorem parentDigest_none_iff [Digest] :
    parentDigest (ancestry inspector childPid) = none ↔
      (inspector.inspect childPid).isOk = false := by
  have hnil : parentDigest (ancestry inspector childPid) = none ↔
      ancestry inspector childPid = [] := by
    unfold parentDigest
    split <;> simp_all
  rw [hnil]
  cases hinspect : inspector.inspect childPid with
  | error =>
    have hempty : ancestry inspector childPid = [] := by
      simp only [ancestry,maxAncestors,ancestryFrom,hinspect]
    simp [hempty,Except.isOk,Except.toBool]
  | ok =>
    have hfound : ancestry inspector childPid ≠ [] := by
      rw [ancestry,maxAncestors,ancestryFrom,hinspect]
      dsimp only
      split
      · simp
      · exact ancestryFrom_ne_nil 63 _ (by simp)
    simp [hfound,Except.isOk,Except.toBool]

end ProcessResolver

/-- What tmux and the process table answer, at every time. -/
structure TmuxHost where
  command : List String → Except MuxError (List (List UInt8))
  table : ProcFs

namespace TmuxHost
variable [Digest]

def inspector (host : TmuxHost) : ProcessInspector := linuxProcessInspector host.table

def answer (host : TmuxHost) : (op : TmuxOp) → op.Answer
  | .command args => host.command args
  | .inspect pid => host.inspector.inspect pid

def run {α : Type} (host : TmuxHost) (x : TmuxM α) : Except MuxError α := x.run.eval host.answer

end TmuxHost

structure TmuxEnvironment where
  tmux : Option String
  pane : Option String

namespace Tmux

/-- The socket is what stands before the first comma. -/
def fromEnvironment (env : TmuxEnvironment) : Except MuxError TmuxServer :=
  match env.tmux with
  | none => .error (.command "TMUX is not set")
  | some value =>
    let socket := String.ofList (value.toList.takeWhile (· != ','))
    if socket = "" then .error (.malformed "TMUX has no socket path")
    else (validateArgument socket).map fun _ => .socketPath socket

def currentTarget (server : TmuxServer) (env : TmuxEnvironment) : TmuxM MuxIdentity :=
  match env.pane with
  | none => throw (.command "TMUX_PANE is not set")
  | some pane => do return (← query server pane).identity

/-- `tmux_registration`, in the environment of the client. -/
def register (env : TmuxEnvironment) (resolved : ResolvedProcess) (sessions : OpenSessions)
    (now : Nat) : TmuxM (Except String WatcherState) := do
  let server ← settled (fromEnvironment env)
  let pane ← currentTarget server env
  return tmuxRegistration resolved.identity pane sessions now

def validateTarget [DebugText] (watcher : WatcherState) (identity : MuxIdentity) : TmuxM Unit :=
  ExceptT.mk ((Mux.validateMuxTarget watcher identity).run.interpret readCall)

end Tmux

theorem attachSessions_target (w : WatcherState) (sessions : OpenSessions) :
    (attachSessions w sessions).target = w.target := by
  have hclaude : (attachClaudeSession w sessions.claude).target = w.target := by
    cases sessions.claude with
    | none => rfl
    | some reference =>
      cases hset : w.setClaudeSession reference with
      | error => simp [attachClaudeSession,hset,Except.toOption]
      | ok =>
        obtain ⟨-,heq⟩ := check_ok_iff.1 hset
        cases heq
        simp [attachClaudeSession,hset,Except.toOption]
  unfold attachSessions
  generalize attachClaudeSession w sessions.claude = v at hclaude
  cases sessions.codex with
  | none => exact hclaude
  | some reference =>
    cases hset : v.setCodexSession reference with
    | error => simpa [attachCodexSession,hset,Except.toOption] using hclaude
    | ok =>
      obtain ⟨-,heq⟩ := check_ok_iff.1 hset
      cases heq
      simpa [attachCodexSession,hset,Except.toOption] using hclaude

/-- The identity that the daemon stores for a registered pane. -/
def registeredIdentity (pane : MuxIdentity) (process : ProcessIdentity) : MuxIdentity :=
  ⟨"tmux",pane.serverInstance,pane.server,pane.sessionId,pane.windowId,pane.paneId,pane.tty,process⟩

section Validation
variable [Digest] [DebugText] {host : TmuxHost}
variable {server : TmuxServer} {info : PaneInfo}

theorem validateIdentity_run {expected : MuxIdentity}
    (hquery : host.run (Tmux.query server expected.paneId) = .ok info) :
    host.run (Tmux.validateIdentity server expected) = .ok () ↔
      Tmux.identityMatches info.identity expected = true := by
  unfold TmuxHost.run at hquery ⊢
  rw [Tmux.validateIdentity,eval_run_bind,Tmux.wrapping,eval_run_adapt,hquery,bind_ok_iff]
  constructor
  · rintro ⟨found,hfound,hok⟩
    cases hfound
    by_contra hdiffers
    rw [if_neg hdiffers] at hok
    cases hok
  · intro hmatches
    refine ⟨info,rfl,?_⟩
    rw [if_pos hmatches]
    rfl

theorem validateTarget_run {watcher : WatcherState} {pane : MuxIdentity}
    {process : ProcessIdentity} (htarget : watcher.target = .tmux pane process none) :
    host.run (Tmux.validateTarget watcher (registeredIdentity pane process)) =
      host.run (Tmux.validateIdentity (.socketPath pane.server)
        (registeredIdentity pane process)) := by
  have hconnected : Mux.connected watcher = pure () := by
    simp [Mux.connected,htarget,TargetIdentity.tmux,TargetIdentity.observationContext]
  unfold TmuxHost.run Tmux.validateTarget
  change Program.eval host.answer (Program.interpret Tmux.readCall
    (Mux.validateMuxTarget watcher (registeredIdentity pane process)).run) = _
  rw [eval_interpret,Mux.validateMuxTarget,hconnected]
  change eval (S := muxSig) _ (Mux.orThrow id (host.run (Tmux.validateIdentity
    (.socketPath pane.server) (registeredIdentity pane process)))).run =
      host.run (Tmux.validateIdentity (.socketPath pane.server) (registeredIdentity pane process))
  cases host.run (Tmux.validateIdentity (.socketPath pane.server)
    (registeredIdentity pane process)) <;> rfl

omit [DebugText] in
theorem settled_run {α : Type} (x : Except MuxError α) : host.run (Tmux.settled x) = x := by
  cases x <;> rfl

omit [DebugText] in
theorem bind_run {α β : Type} (x : TmuxM α) (f : α → TmuxM β) :
    host.run (x >>= f) = host.run x >>= fun a => host.run (f a) :=
  eval_run_bind x f

omit [DebugText] in
theorem query_process {target : String} (h : host.run (Tmux.query server target) = .ok info) :
    info.identity.provider = "tmux" ∧ ∃ process, host.inspector.inspect process.pid = .ok process ∧
      info.identity.process = process.identity := by
  simp only [Tmux.query,Tmux.parseMetadata,bind_run,settled_run,bind_ok_iff] at h
  obtain ⟨-,-,output,-,text,-,⟨fields,dead,pid⟩,-,answer,hanswer,process,hprocess,hinfo⟩ := h
  have hread : host.inspector.inspect pid = .ok process := by
    have hanswer : answer = host.inspector.inspect pid := (Except.ok.inj hanswer).symm
    cases hread : host.inspector.inspect pid with
    | error =>
      rw [hanswer,hread] at hprocess
      cases hprocess
    | ok =>
      rw [hanswer,hread] at hprocess
      cases hprocess
      rfl
  have hpid : process.pid = pid := (linuxProcessInspector_coherent host.table).inspected _ _ hread
  subst hpid
  simp only [Tmux.paneInfo,bind_ok_iff] at hinfo
  obtain ⟨_,-,_,-,_,-,_,-,_,-,hinfo⟩ := hinfo
  cases hinfo
  exact ⟨rfl,process,hread,rfl⟩

omit [Digest] [DebugText] in
theorem probe_revalidated {watcher : WatcherState} {identity : MuxIdentity}
    (hidentity : watcherMuxIdentity watcher = .ok (some identity)) (alive : Bool)
    (answer : (op : DaemonOp) → op.Answer) :
    ∃ probed, (Executor.probe watcher alive).run.eval (S := daemonSig) answer = .ok probed ∧
      probed.targetRevalidated = answer (.validateMux watcher identity) := by
  have hask : (Executor.ask (.validateMux watcher identity)).run.eval (S := daemonSig) answer =
      .ok (answer (.validateMux watcher identity)) := rfl
  simp only [Executor.probe,hidentity]
  rw [eval_run_bind,hask]
  cases answer (.validateMux watcher identity) with
  | true => exact ⟨_,rfl,rfl⟩
  | false => exact ⟨_,rfl,rfl⟩

theorem registered_validates_iff {watcher : WatcherState} {pane : MuxIdentity}
    {process : ProcessIdentity} (htarget : watcher.target = .tmux pane process none)
    (hlater : host.run (Tmux.query (.socketPath pane.server) pane.paneId) = .ok info)
    (hsame : info.identity = pane) :
    host.run (Tmux.validateTarget watcher (registeredIdentity pane process)) = .ok () ↔
      process = pane.process := by
  have hprovider : pane.provider = "tmux" := hsame ▸ (query_process hlater).1
  have hquery : host.run (Tmux.query (.socketPath pane.server)
      (registeredIdentity pane process).paneId) = .ok info := hlater
  rw [validateTarget_run htarget,validateIdentity_run hquery]
  simp [Tmux.identityMatches,registeredIdentity,hprovider,hsame]

/-- A fresh tmux target, of an agent that is the process of its pane. If afterwards tmux answers
for the socket and the pane that it reported as it did before, and the process table stays, the
target validates exactly where the client itself could not be inspected: otherwise the stored
identity holds a digest of the client's ancestors that no inspection of the pane reports. -/
theorem fresh_tmux_target_validates_iff {env : TmuxEnvironment} {server : TmuxServer}
    {names : List String} {childPid : Nat} {hints : CandidateHints} {resolved : ResolvedProcess}
    {pane : MuxIdentity} {info : PaneInfo} {sessions : OpenSessions} {now : Nat}
    {watcher : WatcherState}
    (hresolve : ProcessResolver.resolve names host.inspector childPid hints = .ok resolved)
    (hserver : Tmux.fromEnvironment env = .ok server)
    (hpane : host.run (Tmux.currentTarget server env) = .ok pane)
    (hown : resolved.identity.pid = pane.process.pid)
    (hregister : host.run (Tmux.register env resolved sessions now) = .ok (.ok watcher))
    (hlater : host.run (Tmux.query (.socketPath pane.server) pane.paneId) = .ok info)
    (hsame : info.identity = pane) :
    ∃ identity, watcherMuxIdentity watcher = .ok (some identity) ∧
      (host.run (Tmux.validateTarget watcher identity) = .ok () ↔
        (host.inspector.inspect childPid).isOk = false) ∧
      ∀ alive (answer : (op : DaemonOp) → op.Answer),
        answer (.validateMux watcher identity) =
          (host.run (Tmux.validateTarget watcher identity)).isOk →
        ∃ probed, (Executor.probe watcher alive).run.eval (S := daemonSig) answer = .ok probed ∧
          (probed.targetRevalidated = true ↔ (host.inspector.inspect childPid).isOk = false) := by
  have hregistered : tmuxRegistration resolved.identity pane sessions now = .ok watcher := by
    simp only [Tmux.register,bind_run,settled_run,hserver,bind_ok_iff] at hregister
    obtain ⟨_,hs,found,hfound,hdone⟩ := hregister
    cases hs
    obtain rfl := Except.ok.inj (hpane.symm.trans hfound)
    exact Except.ok.inj hdone
  have htarget : watcher.target = .tmux pane resolved.identity none := by
    obtain ⟨-,heq⟩ := check_ok_iff.1 hregistered
    cases heq
    exact attachSessions_target _ sessions
  have hidentity : watcherMuxIdentity watcher =
      .ok (some (registeredIdentity pane resolved.identity)) := by
    simp [watcherMuxIdentity,htarget,TargetIdentity.tmux,registeredIdentity]
  obtain ⟨-,process,hprocess,hpaneProcess⟩ := query_process hlater
  rw [hsame] at hpaneProcess
  obtain ⟨agent,hagent,hresolved⟩ := ProcessResolver.resolve_identity
    (linuxProcessInspector_coherent host.table) hresolve
  -- the table has one record of the pid
  have hagentProcess : agent = process := by
    have hpid : agent.pid = process.pid := by
      rw [hresolved,hpaneProcess] at hown
      exact hown
    rw [hpid] at hagent
    exact Except.ok.inj (hagent.symm.trans hprocess)
  subst hagentProcess
  have hvalidates : host.run (Tmux.validateTarget watcher
      (registeredIdentity pane resolved.identity)) = .ok () ↔
        (host.inspector.inspect childPid).isOk = false := by
    rw [registered_validates_iff htarget hlater hsame,← ProcessResolver.parentDigest_none_iff,
      hpaneProcess]
    constructor
    · intro heq
      rw [hresolved] at heq
      exact congrArg ProcessIdentity.parentDigest heq
    · intro hnone
      have hnone : ProcessResolver.parentDigest (ProcessResolver.ancestry
          (linuxProcessInspector host.table) childPid) = none := hnone
      rw [hresolved,hnone]
      rfl
  refine ⟨_,hidentity,hvalidates,fun alive answer hanswer => ?_⟩
  obtain ⟨probed,hprobed,hrevalidated⟩ := probe_revalidated hidentity alive answer
  refine ⟨probed,hprobed,?_⟩
  rw [hrevalidated,hanswer,← hvalidates]
  cases host.run (Tmux.validateTarget watcher (registeredIdentity pane resolved.identity)) with
  | error => simp [Except.isOk,Except.toBool]
  | ok => simp [Except.isOk,Except.toBool]

end Validation

namespace Sample

def agentFiles : ProcFiles :=
  procFiles "7 (claude) S 1 7 7 34817 7 0 0 0 0 0 0 0 0 0 20 0 1 0 500" "/usr/bin/claude"

def clientFiles : ProcFiles :=
  procFiles "8 (watchme) S 7 7 7 34817 7 0 0 0 0 0 0 0 0 0 20 0 1 0 900" "/usr/bin/watchme"

def processTable (client : ProcFiles) : ProcFs where
  names := .ok [.ok "7",.ok "8"]
  files pid := if pid = 7 then agentFiles else if pid = 8 then client else missingFiles

def paneFields : List String :=
  ["/tmp/tmux","$1","main","@1","shell","0","%4","0","/dev/pts/1","7","claude","/home","0","","",
    ""]

def paneMetadata : List UInt8 :=
  asciiBytes ((String.singleton Tmux.fieldSeparator).intercalate paneFields)

def tmuxHost (client : ProcFiles) : TmuxHost := ⟨fun _ => .ok [paneMetadata],processTable client⟩

def tmuxEnvironment : TmuxEnvironment := ⟨some "/tmp/tmux,123,0",some "%4"⟩

def agentRecord : ProcessRecord :=
  ⟨7,1,500,some "/usr/bin/claude",none,some 1000,some 7,some 7,some "dev:136:1"⟩

def agentPane : MuxIdentity :=
  ⟨"tmux","/tmp/tmux","/tmp/tmux","$1","@1","%4","/dev/pts/1",agentRecord.identity⟩

def clientHints : CandidateHints := ⟨some "dev:136:1",some 7,some 7,some 1000,none⟩

@[reducible] def debugText : DebugText := ⟨fun _ => ""⟩

def agentInfo : PaneInfo where
  identity := agentPane
  serverId := "/tmp/tmux"
  sessionName := "main"
  windowName := "shell"
  windowIndex := 0
  paneIndex := 0
  paneTitle := "shell"
  currentCommand := "claude"
  currentPath := "/home"
  dead := false
  deadStatus := none
  startedAt := none
  deadAt := none

deriving instance DecidableEq for TmuxServer, PaneInfo

attribute [local instance] digest debugText

theorem agent_registers (client : ProcFiles) (test : ResolvedProcess → WatcherState → Bool)
    (h : ((ProcessResolver.resolve [] (tmuxHost client).inspector 8 clientHints).toOption.any
      fun resolved => ((tmuxHost client).run
        (Tmux.register tmuxEnvironment resolved ⟨none,none⟩ 0)).toOption.any
          fun registered => registered.toOption.any (test resolved)) = true) :
    ∃ resolved watcher, ProcessResolver.resolve [] (tmuxHost client).inspector 8 clientHints =
        .ok resolved ∧
      (tmuxHost client).run (Tmux.register tmuxEnvironment resolved ⟨none,none⟩ 0) =
        .ok (.ok watcher) ∧ test resolved watcher = true := by
  obtain ⟨resolved,hresolved,h⟩ := (Option.any_eq_true _ _).1 h
  obtain ⟨registered,hregistered,h⟩ := (Option.any_eq_true _ _).1 h
  obtain ⟨watcher,hwatcher,h⟩ := (Option.any_eq_true _ _).1 h
  cases toOption_eq_some.1 hwatcher
  exact ⟨resolved,watcher,toOption_eq_some.1 hresolved,toOption_eq_some.1 hregistered,h⟩

end Sample

attribute [local instance] Sample.digest Sample.debugText

theorem fresh_tmux_target_validates_unseen :
    let _ := Sample.digest
    let _ := Sample.debugText
    let host := Sample.tmuxHost Sample.missingFiles
    ∃ watcher identity, watcherMuxIdentity watcher = .ok (some identity) ∧
      host.run (Tmux.validateTarget watcher identity) = .ok () := by
  intro _ _ host
  obtain ⟨resolved,watcher,hresolve,hregister,hown⟩ := Sample.agent_registers Sample.missingFiles
    (fun resolved _ => resolved.identity.pid = Sample.agentPane.process.pid) (by decide +kernel)
  obtain ⟨hserver,hpane,hlater⟩ :
      Tmux.fromEnvironment Sample.tmuxEnvironment = .ok (.socketPath "/tmp/tmux") ∧
      host.run (Tmux.currentTarget (.socketPath "/tmp/tmux") Sample.tmuxEnvironment) =
        .ok Sample.agentPane ∧
      host.run (Tmux.query (.socketPath "/tmp/tmux") "%4") = .ok Sample.agentInfo := by
    decide +kernel
  obtain ⟨identity,hwatcher,hvalidates,-⟩ := fresh_tmux_target_validates_iff hresolve
    hserver hpane (of_decide_eq_true hown) hregister hlater rfl
  exact ⟨watcher,identity,hwatcher,hvalidates.2 rfl⟩

/-- The usual registration, from a client below its agent: the target does not validate. -/
theorem fresh_tmux_target_refused :
    let _ := Sample.digest
    let _ := Sample.debugText
    let host := Sample.tmuxHost Sample.clientFiles
    ∃ resolved watcher identity,
      ProcessResolver.resolve [] host.inspector 8 Sample.clientHints = .ok resolved ∧
      resolved.identity.pid = Sample.agentPane.process.pid ∧
      host.run (Tmux.register Sample.tmuxEnvironment resolved ⟨none,none⟩ 0) = .ok (.ok watcher) ∧
      watcherMuxIdentity watcher = .ok (some identity) ∧
      host.run (Tmux.validateTarget watcher identity) ≠ .ok () := by
  intro _ _ host
  obtain ⟨resolved,watcher,hresolve,hregister,h⟩ := Sample.agent_registers Sample.clientFiles
    (fun resolved watcher => resolved.identity.pid = Sample.agentPane.process.pid ∧
      ((watcherMuxIdentity watcher).toOption.any fun found => found.any fun identity =>
        host.run (Tmux.validateTarget watcher identity) ≠ .ok ()) = true) (by decide +kernel)
  obtain ⟨hown,h⟩ := of_decide_eq_true h
  obtain ⟨found,hfound,h⟩ := (Option.any_eq_true _ _).1 h
  obtain ⟨identity,rfl,h⟩ := (Option.any_eq_true _ _).1 h
  exact ⟨resolved,watcher,identity,hresolve,hown,hregister,toOption_eq_some.1 hfound,
    of_decide_eq_true h⟩

end WatchMe
