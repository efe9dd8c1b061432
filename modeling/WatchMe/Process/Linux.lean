import WatchMe.Process.Inspector
import WatchMe.Text.Reading

/-! # The process table of Linux

What an inspector reads below `/proc`: the fields of `stat`, the user of `status`, the link to
the executable and the arguments.
-/
namespace WatchMe
open Text

inductive FileFailure where
  | notFound
  | other (reason : String)
  deriving DecidableEq, Repr

/-- What the reads of one inspection find; `stat` is read twice. -/
structure ProcFiles where
  stat : Except FileFailure (List UInt8)
  status : Except FileFailure (List UInt8)
  exe : Option String
  cmdline : Except FileFailure (List UInt8)
  finalStat : Except FileFailure (List UInt8)

structure ProcFs where
  names : Except String (List (Except String String))
  files : Nat → ProcFiles

namespace Linux

def u32Max : Nat := 2 ^ 32 - 1
def u64Max : Nat := 2 ^ 64 - 1
def i64Max : Nat := 2 ^ 63 - 1

def maxProcFileBytes : Nat := 64 * 1024
def maxProcEntries : Nat := 32 * 1024

structure ParsedProcStat where
  parentPid : Nat
  processGroupId : Nat
  sessionLeaderId : Nat
  tty : Option String
  startTime : Nat
  deriving DecidableEq

def readBounded (pid : Nat) : Except FileFailure (List UInt8) → Except ProcessError (List UInt8)
  | .error .notFound => .error (.disappeared pid)
  | .error (.other reason) => .error (.inspection reason)
  | .ok bytes =>
    if maxProcFileBytes < (bytes.take (maxProcFileBytes + 1)).length then
      .error (.malformed pid "proc file exceeds size limit")
    else .ok bytes

def boundedUtf8 (pid : Nat) (bytes : List UInt8) : Except ProcessError (List Char) :=
  if maxProcFileBytes < bytes.length then .error (.malformed pid "proc field exceeds size limit")
  else (fromUtf8 bytes).mapError fun _ => .malformed pid "proc field is not UTF-8"

def parseField {α : Type} (pid : Nat) (parse : List Char → Option α) (value : List Char)
    (name : String) : Except ProcessError α :=
  match parse value with
  | some a => .ok a
  | none => .error (.malformed pid ("invalid " ++ name))

def canonicalDevice (device : Nat) : String :=
  let major := ((device >>> 8) &&& 0xfff) ||| ((device >>> 32) &&& 0xfffff000)
  let minor := (device &&& 0xff) ||| ((device >>> 12) &&& 0xffffff00)
  "dev:" ++ toString major ++ ":" ++ toString minor

def canonicalTty (device : Int) : Option String :=
  if 0 < device then some (canonicalDevice device.toNat) else none

/-- The fields after the name of the command, which may itself hold blanks and brackets. -/
def statFields (input : List Char) : Option (List (List Char)) :=
  (afterLast ") ".toList input).map words

def parseProcStat (pid : Nat) (bytes : List UInt8) : Except ProcessError ParsedProcStat := do
  let input ← boundedUtf8 pid bytes
  match statFields input with
  | none => throw (.malformed pid "missing command terminator")
  | some fields =>
    if fields.length ≤ 19 then throw (.malformed pid "truncated stat fields")
    else
      let field := fun index => fields.getD index []
      let parentPid ← parseField pid (parseUnsigned u32Max) (field 1) "parent PID"
      let processGroupId ← parseField pid (parseUnsigned u32Max) (field 2) "process group"
      let sessionLeaderId ← parseField pid (parseUnsigned u32Max) (field 3) "session leader"
      let tty ← parseField pid (parseSigned i64Max) (field 4) "controlling tty"
      let startTime ← parseField pid (parseUnsigned u64Max) (field 19) "start time"
      return ⟨parentPid,processGroupId,sessionLeaderId,canonicalTty tty,startTime⟩

def uidOf (line : List Char) : Option (List Char) :=
  if "Uid:".toList.isPrefixOf line then some (line.drop 4) else none

def parseStatusUid (pid : Nat) (bytes : List UInt8) : Except ProcessError Nat := do
  let input ← boundedUtf8 pid bytes
  match ((textLines input).findSome? uidOf).bind (fun values => (words values).head?) with
  | none => throw (.malformed pid "missing real UID")
  | some value => parseField pid (parseUnsigned u32Max) value "real UID"

def argvDigest [Digest] (pid : Nat) (cmdline : Except FileFailure (List UInt8)) :
    Option String :=
  match readBounded pid cmdline with
  | .ok (b :: bytes) => some (Digest.sha256Hex (b :: bytes))
  | _ => none

def readProcess [Digest] (pid : Nat) (files : ProcFiles) : Except ProcessError ProcessRecord := do
  let parsed ← parseProcStat pid (← readBounded pid files.stat)
  let uid ← parseStatusUid pid (← readBounded pid files.status)
  let finalIdentity ← parseProcStat pid (← readBounded pid files.finalStat)
  if finalIdentity.startTime ≠ parsed.startTime then throw (.disappeared pid)
  else
    return ⟨pid,parsed.parentPid,parsed.startTime,files.exe,argvDigest pid files.cmdline,
      some uid,some parsed.processGroupId,some parsed.sessionLeaderId,parsed.tty⟩

def collectProcPidNames : Nat → List (Except String String) → Except ProcessError (List Nat)
  | _, [] => .ok []
  | index, name :: names =>
    if maxProcEntries ≤ index then
      .error (.incompleteEnumeration
        ("proc entry limit " ++ toString maxProcEntries ++ " exceeded"))
    else match name with
      | .error error => .error (.incompleteEnumeration ("proc directory entry failed: " ++ error))
      | .ok name => do
        let pids ← collectProcPidNames (index + 1) names
        return match parseUnsigned u32Max name.toList with
          | some pid => pid :: pids
          | none => pids

/-- The processes whose terminal is the given one; those that disappear are passed over. -/
def onTty [Digest] (files : Nat → ProcFiles) (tty : String) :
    List Nat → Except ProcessError (List ProcessRecord)
  | [] => .ok []
  | pid :: pids =>
    match readProcess pid (files pid) with
    | .ok process => do
      let processes ← onTty files tty pids
      return if process.tty = some tty then process :: processes else processes
    | .error (.disappeared _) => onTty files tty pids
    | .error error => .error error

end Linux

def linuxProcessInspector [Digest] (fs : ProcFs) : ProcessInspector where
  inspect pid := Linux.readProcess pid (fs.files pid)
  processesOnTty tty := do
    let names ← fs.names.mapError .inspection
    Linux.onTty fs.files tty (← Linux.collectProcPidNames 0 names)

namespace Sample

def asciiBytes (text : String) : List UInt8 := text.toList.map fun c => UInt8.ofNat c.toNat

def procFiles (stat exe : String) : ProcFiles where
  stat := .ok (asciiBytes stat)
  status := .ok (asciiBytes "Uid:\t1000\t1000\t1000\t1000\n")
  exe := some exe
  cmdline := .ok []
  finalStat := .ok (asciiBytes stat)

def missingFiles : ProcFiles :=
  ⟨.error .notFound,.error .notFound,none,.error .notFound,.error .notFound⟩

end Sample

end WatchMe
