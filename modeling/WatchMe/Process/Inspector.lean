import WatchMe.Model.Identity

/-! # Processes and their identities

What an inspector reports about the process table, how the agent process of a client is
resolved from it, and how a monitor decides whether a watched process is still there. The
inspector is a value: what it reports at one moment.
-/
namespace WatchMe

inductive AgentKind where
  | claude
  | codex
  | manifest
  deriving DecidableEq, Repr

structure ProcessRecord where
  pid : Nat
  parentPid : Nat
  startTime : Nat
  executable : Option String
  argvDigest : Option String
  uid : Option Nat
  processGroupId : Option Nat
  sessionLeaderId : Option Nat
  tty : Option String
  deriving DecidableEq

/-- The ancestors of a process are no part of its identity. -/
def ProcessRecord.identity (process : ProcessRecord) : ProcessIdentity :=
  { ProcessIdentity.new process.pid process.startTime with
    executable := process.executable
    argvDigest := process.argvDigest
    uid := process.uid
    processGroupId := process.processGroupId
    sessionLeaderId := process.sessionLeaderId
    tty := process.tty }

inductive ProcessError where
  | disappeared (pid : Nat)
  | malformed (pid : Nat) (reason : String)
  | inspection (reason : String)
  | incompleteEnumeration (reason : String)
  | ambiguous (candidates : List Nat)
  | noConfidentCandidate (examined : Nat)
  deriving DecidableEq, Repr

def ProcessError.text : ProcessError → String
  | disappeared pid => "process " ++ toString pid ++ " disappeared during inspection"
  | malformed pid reason => "malformed process metadata for PID " ++ toString pid ++ ": " ++ reason
  | inspection reason => "process inspection failed: " ++ reason
  | incompleteEnumeration reason => "process enumeration was incomplete: " ++ reason
  | ambiguous candidates => "agent process discovery is ambiguous ([" ++
      ", ".intercalate (candidates.map toString) ++
      "]); run `watchme doctor` for pane and process evidence"
  | noConfidentCandidate _ => "no agent process has sufficient correlated evidence; invoke " ++
      "through `!watchme` and run `watchme doctor`"

structure ProcessInspector where
  inspect : Nat → Except ProcessError ProcessRecord
  processesOnTty : String → Except ProcessError (List ProcessRecord)

structure CandidateHints where
  tty : Option String
  processGroupId : Option Nat
  sessionLeaderId : Option Nat
  uid : Option Nat
  executableHint : Option String

structure ResolvedProcess where
  identity : ProcessIdentity
  agent : AgentKind
  score : Int
  reasons : List String

def minimumConfidence : Int := 10

def basename (path : String) : List Char :=
  (path.toList.reverse.takeWhile (· != '/')).reverse

def identifyAgent (executable : String) : Option AgentKind :=
  let name := (basename executable).map Char.toLower
  if name = "claude".toList ∨ name = "claude-code".toList ∨ "claude-".toList <+: name then
    some .claude
  else if name = "codex".toList ∨ name = "codex-cli".toList ∨ "codex-".toList <+: name then
    some .codex
  else none

structure Score where
  total : Int
  correlations : Nat
  reasons : List String

def Score.counted (s : Score) (points : Int) (reason : String) : Score :=
  ⟨s.total + points,s.correlations + 1,s.reasons ++ [reason]⟩

/-- A field that the process and the pane both have must agree. -/
def correlate {α : Type} [DecidableEq α] (label : String) (actual expected : Option α)
    (points : Int) (s : Score) : Option Score :=
  match actual, expected with
  | some actual, some expected =>
    if actual ≠ expected then none
    else some (s.counted points (label ++ " matches pane (+" ++ toString points ++ ")"))
  | _, _ => some s

def ancestryScore (s : Score) : Option Nat → Score
  | none => s
  | some distance =>
    let points : Int := 6 - (min distance 4 : Nat)
    { s with
      total := s.total + points
      reasons := s.reasons ++
        ["agent ancestor distance " ++ toString distance ++ " (+" ++ toString points ++ ")"] }

def hintScore (process : ProcessRecord) (hints : CandidateHints) (s : Score) : Option Score :=
  match process.executable, hints.executableHint with
  | some executable, some hint =>
    if basename executable ≠ hint.toList then none
    else some (s.counted 2 "pane executable hint (+2)")
  | _, _ => some s

def score (process : ProcessRecord) (hints : CandidateHints) (distance : Option Nat) :
    Option (Int × List String) := do
  let s := ancestryScore ⟨8,0,["known agent executable (+8)"]⟩ distance
  let s ← correlate "tty" process.tty hints.tty 4 s
  let s ← correlate "process group" process.processGroupId hints.processGroupId 2 s
  let s ← correlate "session" process.sessionLeaderId hints.sessionLeaderId 2 s
  let s ← correlate "uid" process.uid hints.uid 2 s
  let s ← hintScore process hints s
  if 0 < s.correlations then some (s.total,s.reasons) else none

namespace ProcessResolver

def maxAncestors : Nat := 64

/-- `result` is the chain so far, the child first. -/
def ancestryFrom (inspector : ProcessInspector) : Nat → List ProcessRecord → Nat →
    List ProcessRecord
  | 0, result, _ => result
  | fuel + 1, result, pid =>
    match inspector.inspect pid with
    | .error _ => result
    | .ok process =>
      let result := result ++ [process]
      if process.parentPid ≤ 1 ∨ result.any (·.pid == process.parentPid) then result
      else ancestryFrom inspector fuel result process.parentPid

def ancestry (inspector : ProcessInspector) (childPid : Nat) : List ProcessRecord :=
  ancestryFrom inspector maxAncestors [] childPid

def agentFor (manifestNames : List String) (process : ProcessRecord) : Option AgentKind :=
  process.executable.bind fun executable =>
    (identifyAgent executable).or
      (if manifestNames.any (fun known => known.toList == basename executable) then
        some .manifest
      else none)

def candidate (process : ProcessRecord) (agent : AgentKind) (hints : CandidateHints)
    (distance : Option Nat) : Option ResolvedProcess :=
  (score process hints distance).map fun scored =>
    ⟨process.identity,agent,scored.1,scored.2⟩

def candidateOf (manifestNames : List String) (hints : CandidateHints) (distance : Option Nat)
    (process : ProcessRecord) : Option ResolvedProcess :=
  (agentFor manifestNames process).bind fun agent => candidate process agent hints distance

/-- The sort is stable, and equal best scores are refused. -/
def selectCandidate (candidates : List ResolvedProcess) : Except ProcessError ResolvedProcess :=
  match candidates.mergeSort (fun left right => decide (right.score ≤ left.score)) with
  | [] => .error (.noConfidentCandidate 0)
  | best :: rest =>
    if best.score < minimumConfidence then
      .error (.noConfidentCandidate (rest.length + 1))
    else if rest.head?.any (fun next => next.score == best.score) then
      .error (.ambiguous (((best :: rest).takeWhile (·.score == best.score)).map
        (·.identity.pid)))
    else .ok best

/-- The ancestors that are candidates, the child itself apart. -/
def ancestorCandidates (manifestNames : List String) (hints : CandidateHints)
    (ancestry : List ProcessRecord) : List ResolvedProcess :=
  (ancestry.zipIdx.drop 1).filterMap fun (process,distance) =>
    candidateOf manifestNames hints (some distance) process

def candidates (manifestNames : List String) (inspector : ProcessInspector)
    (hints : CandidateHints) (ancestry : List ProcessRecord) :
    Except ProcessError (List ResolvedProcess) :=
  match ancestorCandidates manifestNames hints ancestry, hints.tty with
  | [], some tty =>
    (inspector.processesOnTty tty).map (List.filterMap (candidateOf manifestNames hints none))
  | found, _ => .ok found

def toLeBytes (width n : Nat) : List UInt8 :=
  (List.range width).map fun i => UInt8.ofNat (n / 256 ^ i)

def parentDigest [Digest] (ancestry : List ProcessRecord) : Option String :=
  if ancestry = [] then none
  else some (Digest.sha256Hex
    (ancestry.flatMap fun process => toLeBytes 4 process.pid ++ toLeBytes 8 process.startTime))

def resolve [Digest] (manifestNames : List String) (inspector : ProcessInspector)
    (childPid : Nat) (hints : CandidateHints) : Except ProcessError ResolvedProcess := do
  let ancestry := ancestry inspector childPid
  let selected ← selectCandidate (← candidates manifestNames inspector hints ancestry)
  return match parentDigest ancestry with
    | none => selected
    | some digest =>
      { selected with identity := { selected.identity with parentDigest := some digest } }

end ProcessResolver

structure LifecycleMonitor where
  identity : ProcessIdentity
  graceMs : Nat
  missingSince : Option Nat
  deriving DecidableEq

inductive LifecycleDecision where
  | alive
  | grace
  | reexecAccepted (process : ProcessIdentity)
  | terminate
  deriving DecidableEq

def sameProcess (identity : ProcessIdentity) (process : ProcessRecord) : Bool :=
  identity.pid == process.pid && identity.startTime == process.startTime
    && identity.executable == process.executable

/-- No known group or session differs, and one that is known agrees. -/
def continuityMatches (identity : ProcessIdentity) (process : ProcessRecord) : Bool :=
  let pairs := [(identity.processGroupId,process.processGroupId),
    (identity.sessionLeaderId,process.sessionLeaderId)]
  !pairs.any (fun (left,right) => left.isSome && right.isSome && left != right)
    && pairs.any fun (left,right) => left.isSome && left == right

def strongReexecMatch (identity : ProcessIdentity) (process : ProcessRecord) : Bool :=
  let originalAgent := identity.executable.bind identifyAgent
  let replacementAgent := process.executable.bind identifyAgent
  identity.tty.isSome && identity.tty == process.tty && identity.uid.isSome
    && identity.uid == process.uid && continuityMatches identity process
    && originalAgent.isSome && originalAgent == replacementAgent

namespace LifecycleMonitor

def withReexecGrace (identity : ProcessIdentity) (graceMs : Nat) : LifecycleMonitor :=
  ⟨identity,graceMs,none⟩

/-- The process on the terminal of a vanished one that is taken for its replacement. -/
def replacement (m : LifecycleMonitor) (inspector : ProcessInspector) : LifecycleDecision :=
  match m.identity.tty with
  | none => .grace
  | some tty =>
    match inspector.processesOnTty tty with
    | .error _ => .grace
    | .ok processes =>
      match processes.filter (strongReexecMatch m.identity) with
      | [process] => .reexecAccepted process.identity
      | _ => .grace

def observeMissing (m : LifecycleMonitor) (inspector : ProcessInspector) (now : Nat) :
    LifecycleDecision × LifecycleMonitor :=
  let missingSince := m.missingSince.getD now
  let m := { m with missingSince := some missingSince }
  if m.graceMs < now - missingSince then (.terminate,m) else (m.replacement inspector,m)

def observe (m : LifecycleMonitor) (inspector : ProcessInspector) (now : Nat) :
    LifecycleDecision × LifecycleMonitor :=
  match inspector.inspect m.identity.pid with
  | .ok process => (if sameProcess m.identity process then .alive else .terminate,m)
  | .error (.disappeared _) =>
    if 0 < m.graceMs then m.observeMissing inspector now else (.terminate,m)
  | .error _ => (.terminate,m)

def commitReexec (m : LifecycleMonitor) (identity : ProcessIdentity) : LifecycleMonitor :=
  { m with identity, missingSince := none }

end LifecycleMonitor

end WatchMe
