import WatchMe.Mux.Actuator
import WatchMe.Process.Linux

/-! # The tmux adapter

`Tmux` as a program whose requests are the tmux commands it runs and the inspections of the
process table. A command is answered with all chunks of its output; what the adapter keeps of
them is part of the model.
-/
namespace WatchMe
open Effects Program Text

/-- `{:?}` of a process identity, in the text of an error. -/
class DebugText where
  processIdentity : ProcessIdentity → String

inductive TmuxOp where
  | command (args : List String)
  | inspect (pid : Nat)

@[reducible] def TmuxOp.Answer : TmuxOp → Type
  | command _ => Except MuxError (List (List UInt8))
  | inspect _ => Except ProcessError ProcessRecord

abbrev tmuxSig : Signature := ⟨TmuxOp,TmuxOp.Answer⟩
abbrev TmuxEvent := tmuxSig.Event
abbrev TmuxM := ExceptT MuxError (Program tmuxSig)

inductive TmuxServer where
  | default
  | socketName (name : String)
  | socketPath (path : String)

structure PaneInfo where
  identity : MuxIdentity
  serverId : String
  sessionName : String
  windowName : String
  windowIndex : Nat
  paneIndex : Nat
  paneTitle : String
  currentCommand : String
  currentPath : String
  dead : Bool
  deadStatus : Option Int
  startedAt : Option Nat
  deadAt : Option Nat

namespace Tmux

def fieldSeparator : Char := Char.ofNat 0x1f
def outputLimit : Nat := 256 * 1024
def utf8BoundaryLookahead : Nat := 3

def metadataFormat : String :=
  (String.singleton fieldSeparator).intercalate
    (["socket_path","session_id","session_name","window_id","window_name","window_index",
      "pane_id","pane_index","pane_tty","pane_pid","pane_current_command","pane_current_path",
      "pane_dead","pane_dead_status","pane_start_time","pane_dead_time"].map
      fun field => "#\x7b" ++ field ++ "\x7d")

def ask (op : TmuxOp) : TmuxM op.Answer := ExceptT.lift (request (S := tmuxSig) op)

def settled {α : Type} : Except MuxError α → TmuxM α
  | .ok a => pure a
  | .error error => throw error

def args : TmuxServer → List String
  | .default => []
  | .socketName name => ["-L",name]
  | .socketPath path => ["-S",path]

/-- `run_bounded` keeps one byte more than the limit. -/
def run (server : TmuxServer) (arguments : List String) (limit : Nat) : TmuxM (List UInt8) := do
  let chunks ← settled (← ask (.command (args server ++ arguments)))
  return readBounded limit chunks

def escapeDefault (c : Char) : List Char :=
  match c with
  | '\t' => ['\\','t']
  | '\r' => ['\\','r']
  | '\n' => ['\\','n']
  | '\'' | '"' | '\\' => ['\\',c]
  | _ =>
    if 0x20 ≤ c.toNat ∧ c.toNat ≤ 0x7e then [c]
    else "\\u\x7b".toList ++ Nat.toDigits 16 c.toNat ++ ['\x7d']

def invalidSelector (value : String) : MuxError :=
  .invalidSelector (.ofList (value.toList.flatMap escapeDefault))

def validateArgument (value : String) : Except MuxError Unit :=
  if value.toList.any fun c => c == Char.ofNat 0 || c == '\n' || c == '\r' then
    .error (invalidSelector value)
  else .ok ()

def isOctal (b : UInt8) : Bool := decide (0x30 ≤ b) && decide (b ≤ 0x37)

/-- An octal escape has one to three digits. -/
def octalEscape (digits : List UInt8) (rest : Except MuxError (List UInt8)) :
    Except MuxError (List UInt8) :=
  let code := digits.foldl (fun code digit => code * 8 + (digit.toNat - 0x30)) 0
  if 0xff < code then .error (.malformed "tmux octal escape out of byte range")
  else rest.map (UInt8.ofNat code :: ·)

def decodeEscapes : List UInt8 → Except MuxError (List UInt8)
  | [] => .ok []
  | 0x5c :: 0x5c :: bytes => (decodeEscapes bytes).map (0x5c :: ·)
  | 0x5c :: a :: b :: c :: bytes =>
    if isOctal a && isOctal b && isOctal c then octalEscape [a,b,c] (decodeEscapes bytes)
    else if isOctal a && isOctal b then octalEscape [a,b] (decodeEscapes (c :: bytes))
    else if isOctal a then octalEscape [a] (decodeEscapes (b :: c :: bytes))
    else (decodeEscapes (a :: b :: c :: bytes)).map (0x5c :: ·)
  | 0x5c :: [a,b] =>
    if isOctal a && isOctal b then octalEscape [a,b] (.ok [])
    else if isOctal a then octalEscape [a] (decodeEscapes [b])
    else (decodeEscapes [a,b]).map (0x5c :: ·)
  | 0x5c :: [a] => if isOctal a then octalEscape [a] (.ok []) else .ok [0x5c,a]
  | b :: bytes => (decodeEscapes bytes).map (b :: ·)

def decodeTmuxDisplayEscapes (value : List Char) : Except MuxError (List Char) := do
  let bytes ← decodeEscapes (value.flatMap String.utf8EncodeChar)
  (fromUtf8 bytes).mapError fun _ => .invalidUtf8

def number (fields : List (List Char)) (index : Nat) (name : String) : Except MuxError Nat :=
  match parseUnsigned Linux.u32Max (fields.getD index []) with
  | some value => .ok value
  | none => .error (.malformed ("invalid " ++ name))

def optional {α : Type} (parse : List Char → Option α) (fields : List (List Char))
    (index : Nat) : Except MuxError (Option α) :=
  match fields.getD index [] with
  | [] => .ok none
  | field =>
    match parse field with
    | some value => .ok (some value)
    | none => .error (.malformed ("invalid optional numeric field " ++ toString index))

def requireFields (fields : List (List Char)) : List Nat → Except MuxError Unit
  | [] => .ok ()
  | index :: indices =>
    if fields.getD index [] = [] then
      .error (.malformed ("required field " ++ toString index ++ " is empty"))
    else requireFields fields indices

def deadMarker (field : List Char) : Except MuxError Bool :=
  if field = ['0'] then .ok false
  else if field = ['1'] then .ok true
  else .error (.malformed "pane dead marker must be 0 or 1")

/-- The fields of the metadata, as far as the process of the pane. -/
def splitMetadata (value : List Char) : Except MuxError (List (List Char) × Bool × Nat) := do
  let decoded ← decodeTmuxDisplayEscapes value
  let fields := decoded.splitOn fieldSeparator
  if fields.length ≠ 16 then
    throw (.malformed ("expected 16 fields, got " ++ toString fields.length))
  else
    requireFields fields [0,1,3,6,8]
    let dead ← deadMarker (fields.getD 12 [])
    let pid ← number fields 9 "pane PID"
    return (fields,dead,pid)

def paneInfo (fields : List (List Char)) (dead : Bool) (process : ProcessIdentity) :
    Except MuxError PaneInfo := do
  let field := fun index => String.ofList (fields.getD index [])
  let windowIndex ← number fields 5 "window index"
  let paneIndex ← number fields 7 "pane index"
  let deadStatus ← optional (parseSigned (2 ^ 31 - 1)) fields 13
  let startedAt ← optional (parseUnsigned Linux.u64Max) fields 14
  let deadAt ← optional (parseUnsigned Linux.u64Max) fields 15
  return {
    identity := ⟨"tmux",field 0,field 0,field 1,field 3,field 6,field 8,process⟩
    serverId := field 0, sessionName := field 2, windowName := field 4
    windowIndex, paneIndex, paneTitle := field 4, currentCommand := field 10
    currentPath := field 11, dead, deadStatus, startedAt, deadAt }

def parseMetadata (value : List Char) : TmuxM PaneInfo := do
  let (fields,dead,pid) ← settled (splitMetadata value)
  let process ← settled ((← ask (.inspect pid)).mapError fun error => .identityChanged error.text)
  settled (paneInfo fields dead process.identity)

def trimEnd (text : List Char) : List Char := (text.reverse.dropWhile isWhiteSpace).reverse

def queryArguments (target : String) : List String :=
  ["display-message","-p","-t",target,metadataFormat]

def query (server : TmuxServer) (target : String) : TmuxM PaneInfo := do
  settled (validateArgument target)
  let output ← run server (queryArguments target) outputLimit
  let text ← settled ((fromUtf8 output).mapError fun _ => .invalidUtf8)
  parseMetadata (trimEnd text)

/-- `Err(error)` of a query, wrapped by its caller. -/
def wrapping {α : Type} (wrap : MuxError → MuxError) (x : TmuxM α) : TmuxM α :=
  ExceptT.adapt wrap x

/-- All fields but the server instance are compared, the process as a whole. -/
def identityMatches (actual expected : MuxIdentity) : Bool :=
  actual.provider == expected.provider && actual.server == expected.server
    && actual.sessionId == expected.sessionId && actual.windowId == expected.windowId
    && actual.paneId == expected.paneId && actual.tty == expected.tty
    && decide (expected.process = actual.process)

def validateIdentity [DebugText] (server : TmuxServer) (expected : MuxIdentity) : TmuxM Unit := do
  let info ← wrapping (fun error => .identityChanged
    ("pane " ++ expected.paneId ++ " is no longer the recorded target: " ++ error.text))
    (query server expected.paneId)
  let actual := info.identity
  if identityMatches actual expected then return ()
  else throw (.identityChanged ("expected pane " ++ expected.paneId ++ " process "
    ++ DebugText.processIdentity expected.process ++ ", found pane " ++ actual.paneId
    ++ " process " ++ DebugText.processIdentity actual.process))

/-- The output, or what precedes a scalar value that was cut off behind the bound. -/
def validPart (output : List UInt8) (maxBytes : Nat) : Except MuxError (List UInt8) :=
  match fromUtf8 output with
  | .ok _ => .ok output
  | .error error =>
    if error.errorLen = none ∧ maxBytes ≤ error.validUpTo ∧ maxBytes < output.length then
      .ok (output.take error.validUpTo)
    else .error .invalidUtf8

def truncateCapture (output : List UInt8) (maxBytes : Nat) :
    Except MuxError (List Char × Nat × Bool) := do
  let validBytes ← validPart output maxBytes
  let _ ← (fromUtf8 validBytes).mapError fun _ => MuxError.invalidUtf8
  let boundary := backToBoundary validBytes (min validBytes.length maxBytes)
  -- the slice of a text up to a boundary of its scalar values
  return (lossy (validBytes.take boundary),boundary,decide (maxBytes < output.length))

def captureArguments (pane : String) (lines : Nat) : List String :=
  ["capture-pane","-p","-J","-S","-" ++ toString lines,"-t",pane]

def captureTail [DebugText] (server : TmuxServer) (identity : MuxIdentity)
    (lines maxBytes : Nat) : TmuxM Capture := do
  validateIdentity server identity
  if lines = 0 ∨ maxBytes = 0 then return ⟨"",0,false⟩
  else
    let output ← run server (captureArguments identity.paneId lines)
      (maxBytes + utf8BoundaryLookahead)
    validateIdentity server identity
    let (text,bytes,truncated) ← settled (truncateCapture output maxBytes)
    return ⟨.ofList text,bytes,truncated⟩

def readCall [DebugText] : (op : MuxOp) → Program tmuxSig op.Answer
  | .validateIdentity identity => (validateIdentity (.socketPath identity.server) identity).run
  | .captureTail identity lines maxBytes =>
    (captureTail (.socketPath identity.server) identity lines maxBytes).run
  -- commands, and what is asked of a Herdr target
  | .connect _ | .agentStateEvents _ _ _ | .sendLiteral _ _ | .submitLiteral _ _ | .sendKey _ _ =>
    .done (.error (.command "not a read of a tmux target"))

def observe [DebugText] (watcher : WatcherState) (identity : MuxIdentity) :
    TmuxM ComposerState :=
  ExceptT.mk ((Mux.observeComposer watcher identity).run.interpret readCall)

end Tmux

end WatchMe
