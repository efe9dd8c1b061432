import WatchMe.Agents.Codex
import WatchMe.Hooks.Claude

/-! # The session that an agent has open

What a registration on Linux finds out about the session of the process it is made for. The session
is taken from what the process itself has open, never from the newest file.
-/
namespace WatchMe
open Text

/-- A file that the process has open and that `bind_safe_file` accepts: its name, the JSON of its
first line, the threads of a thread database and the columns of a goal table. -/
structure OpenFile where
  bound : CodexBoundFile
  name : String
  firstLine : Option Json
  threads : List String
  goalColumns : List String

/-- What `/proc` shows of a process. An entry of its `fd` directory that cannot be resolved, bound
or named is `none`. -/
structure CodexProc where
  cmdline : Option (List UInt8)
  fds : Option (List (Option OpenFile))
  cwd : Option String

def maxCmdlineBytes : Nat := 64 * 1024

def maxOpenFiles : Nat := 4096

def validThreadId (thread : String) : Bool :=
  thread != "" && decide (thread.utf8ByteSize ≤ 256)
    && thread.toList.all fun c => c.isAlphanum || "-_.:".toList.contains c

def arguments (bytes : List UInt8) : Option (List String) :=
  if bytes = [] ∨ maxCmdlineBytes < bytes.length ∨ bytes.getLast? ≠ some 0 then none
  else (bytes.dropLast.splitOn 0).mapM fun part => (fromUtf8 part).toOption.map String.ofList

def resumeThreadId (cmdline : Option (List UInt8)) : Option String := do
  let args ← arguments (← cmdline)
  let resumed := (args.zip args.tail).filter fun pair => pair.1 == "resume"
  match (resumed.map (·.2)).filter validThreadId with
  | [thread] => some thread
  | _ => none

def rolloutMatchesThread (file : OpenFile) (thread : String) : Bool :=
  occurs thread file.name.toList || file.firstLine.any fun value =>
    (value.get "type").bind Json.asStr == some "session_meta"
      && (((value.get "payload").bind (·.get "id")).bind Json.asStr) == some thread

def goalsDbMatches (file : OpenFile) : Bool :=
  ["thread_id","status","updated_at_ms"].all file.goalColumns.contains

def pushUnique (files : List CodexBoundFile) (candidate : CodexBoundFile) : List CodexBoundFile :=
  if files.any fun file => file.device == candidate.device && file.inode == candidate.inode then
    files
  else files ++ [candidate]

structure OpenState where
  rollouts : List CodexBoundFile
  threadDbs : List CodexBoundFile
  goalsDbs : List CodexBoundFile

def isDatabase (start : String) (name : String) : Bool :=
  start.toList.isPrefixOf name.toList && ".sqlite".toList.isSuffixOf name.toList

def OpenState.add (thread : String) (found : OpenState) : Option OpenFile → OpenState
  | none => found
  | some file =>
    if occurs "rollout" file.name.toList && rolloutMatchesThread file thread then
      { found with rollouts := pushUnique found.rollouts file.bound }
    else if isDatabase "state_" file.name && file.threads.contains thread then
      { found with threadDbs := pushUnique found.threadDbs file.bound }
    else if isDatabase "goals_" file.name && goalsDbMatches file then
      { found with goalsDbs := pushUnique found.goalsDbs file.bound }
    else found

def discoverExactOpenState (fds : Option (List (Option OpenFile))) (thread : String) :
    Option CodexStructuredStateReference := do
  let found := ((← fds).take maxOpenFiles).foldl (OpenState.add thread) ⟨[],[],[]⟩
  match found.rollouts, found.threadDbs, found.goalsDbs with
  | [rollout], [threadDb], [goalsDb] => some ⟨rollout,threadDb,goalsDb⟩
  | _, _, _ => none

/-- `target_session` of `codex_attachment`: the session that the context names. -/
def codexTargetSession (target : TargetIdentity) : Option String :=
  match target.observationContext with
  | some (.tmux _ _ sessionId _ _ _) => some sessionId
  | some (.herdr _ _ workspaceId _ _ _ _) => some workspaceId
  | none => none

/-- The reference that `attach_process_correlated_codex_session_at` sets, if any. -/
def codexReference (target : TargetIdentity) (herdrSession : Option String) (proc : CodexProc) :
    Option CodexSessionReference := do
  let threadId ← resumeThreadId proc.cmdline
  guard (herdrSession.all (· == threadId))
  let structuredState ← discoverExactOpenState proc.fds threadId
  let processCwd ← proc.cwd
  return {
    threadId
    rolloutPath := structuredState.rollout.canonicalPath
    processStartTime := target.processOf.startTime
    processCwd
    targetSession := codexTargetSession target
    rolloutBinding := none
    appServerStatePath := none
    structuredState := some structuredState }

theorem codexReference_targetSession {target : TargetIdentity} {herdrSession : Option String}
    {proc : CodexProc} {s : CodexSessionReference}
    (h : codexReference target herdrSession proc = some s) :
    s.targetSession = codexTargetSession target := by
  simp only [codexReference,Option.bind_eq_bind,Option.bind_eq_some_iff] at h
  obtain ⟨thread,-,-,-,state,-,cwd,-,h⟩ := h
  cases h
  rfl

/-- The environment of the registration, and what the process has open: the paths of its files as
the links give them and in canonical form, and the transcripts below the projects of the user with
the session that each names. -/
structure ClaudeProc where
  markerVariable : Option String
  stateHome : Option String
  home : Option String
  supplied : Option (String × String)
  links : List String
  canonicalFds : List String
  transcripts : List (String × String)
  canonical : String → Option String
  isFile : String → Bool
  binding : String → Option TranscriptBinding
  cwd : Option String

def joinPath (base relative : String) : String :=
  if base = "" then relative
  else if base.toList.getLast? = some '/' then base ++ relative
  else base ++ "/" ++ relative

def markerPath (proc : ClaudeProc) : String :=
  match proc.markerVariable with
  | some path => path
  | none =>
    let state := proc.stateHome.orElse fun _ => proc.home.map (joinPath · ".local/state")
    joinPath (state.getD "/nonexistent") "watchme/claude-stop-failure.jsonl"

def openTranscriptMatches (proc : ClaudeProc) (transcript : String) : Bool :=
  (proc.canonical transcript).any proc.canonicalFds.contains

/-- `discover_linux_open_transcript`: the candidates are sorted and cleared of doubles. -/
def discoverOpenTranscript (proc : ClaudeProc) : Option (String × String) :=
  match proc.transcripts.dedup with
  | [candidate] => some candidate
  | _ => none

def claudeCandidate (proc : ClaudeProc) : Option (String × String) :=
  match proc.supplied with
  | some candidate => if openTranscriptMatches proc candidate.2 then some candidate else none
  | none => discoverOpenTranscript proc

/-- The reference that `attach_process_correlated_claude_session` sets, if any. Its
`target_session` is the field of the target, not that of the context. -/
def claudeReference (target : TargetIdentity) (proc : ClaudeProc) :
    Option ClaudeSessionReference := do
  let (sessionId,transcript) ← claudeCandidate proc
  let transcriptPath ← proc.canonical transcript
  guard (proc.isFile transcriptPath)
  let transcriptBinding ← proc.binding transcriptPath
  guard (isAbsolute (markerPath proc))
  guard (proc.links.contains transcriptPath)
  let processCwd ← proc.cwd
  return {
    sessionId
    transcriptPath
    markerPath := markerPath proc
    processStartTime := target.processOf.startTime
    processCwd
    targetSession := target.session
    transcriptBinding := some transcriptBinding }

theorem claudeReference_targetSession {target : TargetIdentity} {proc : ClaudeProc}
    {s : ClaudeSessionReference} (h : claudeReference target proc = some s) :
    s.targetSession = target.session := by
  simp only [claudeReference,Option.bind_eq_bind,Option.bind_eq_some_iff] at h
  obtain ⟨candidate,-,path,-,-,-,binding,-,-,-,-,-,cwd,-,h⟩ := h
  cases h
  rfl

end WatchMe
