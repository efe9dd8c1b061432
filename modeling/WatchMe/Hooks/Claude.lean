import WatchMe.Agents.Codex

/-! # The markers of Claude's hook

A `StopFailure` hook appends one line to a marker file. A watcher takes the newest marker of its
own session and transcript, after it has checked that the transcript is the file it was bound to.
-/
namespace WatchMe

def isAbsolute (path : String) : Bool := path.toList.head? == some '/'

/-- The components by which paths are compared: empty ones do not count, and a dot only at the
start of a relative path. -/
def pathComponents (path : String) : Bool × List (List Char) :=
  match path.toList.splitOn '/' with
  | [] => (false,[])
  | first :: rest =>
    let rest := rest.filter fun part => part ≠ [] ∧ part ≠ ['.']
    (isAbsolute path,if first = [] then rest else first :: rest)

def samePath (a b : String) : Bool := pathComponents a == pathComponents b

structure HookMarker where
  sessionId : String
  transcriptPath : String
  errorType : String
  detail : String
  deriving DecidableEq, Repr

namespace HookMarker

/-- `serde_json::from_str`: the four fields, each once and no others, or their values in order. -/
def ofJson : Json → Option HookMarker
  | .object fields =>
    if fields.length = 4 then do
      let text (key : String) : Option String := (fields.lookup key).bind Json.asStr
      return ⟨← text "session_id",← text "transcript_path",← text "error_type",← text "detail"⟩
    else none
  | .array [.string session,.string transcript,.string error,.string detail] =>
    some ⟨session,transcript,error,detail⟩
  | _ => none

def valid (marker : HookMarker) : Bool :=
  marker.sessionId != "" && decide (marker.sessionId.utf8ByteSize ≤ 256)
    && isAbsolute marker.transcriptPath && decide (marker.transcriptPath.utf8ByteSize ≤ 4096)
    && decide (marker.errorType.utf8ByteSize ≤ 128) && decide (marker.detail.utf8ByteSize ≤ 4096)

end HookMarker

/-- What the machine answers when a marker file is read: the length of a regular file of the
owner alone, whether the opened file is the same one, and its lines. -/
structure MarkerFile where
  checked : Except String Nat
  opened : Except String Bool
  lines : List (Except String String)

def maxMarkers : Nat := 256

/-- A line that is too long, does not parse or is not valid is passed over; of the others the
newest are kept. -/
def keepMarker [Texts] (kept : List HookMarker) (line : String) : List HookMarker :=
  if 8192 < line.utf8ByteSize then kept
  else match ((Texts.fromStr line).bind HookMarker.ofJson).filter HookMarker.valid with
    | none => kept
    | some marker => (if kept.length = maxMarkers then kept.tail else kept) ++ [marker]

def readMarkers [Texts] (file : MarkerFile) : Except String (List HookMarker) := do
  let length ← file.checked
  refuseIf (decide (1048576 < length)) "hook marker exceeds size limit"
  let same ← file.opened
  refuseIf (!same) "hook marker changed while opening"
  let lines ← file.lines.mapM id
  return lines.foldl keepMarker []

/-- The newest marker of the session and the transcript. -/
def correlateMarker (markers : List HookMarker) (sessionId transcript : String) :
    Option HookMarker :=
  markers.reverse.find? fun marker =>
    marker.sessionId == sessionId && samePath marker.transcriptPath transcript

/-- What the machine answers about the directory of a process, the transcript and the markers.
A path is resolved twice, and once more when the transcript is bound. -/
structure HookHost where
  cwdOf : Nat → Option String
  canonicalize : String → Option String
  canonicalizeExpected : String → Option String
  bindTranscript : String → Except String TranscriptBinding
  markerFile : String → MarkerFile

def processCwdMatches (host : HookHost) (pid : Nat) (expected : String) : Bool :=
  (host.cwdOf pid).any fun actual => samePath actual expected

def transcriptMatchesBinding (host : HookHost) (path expected : String)
    (binding : TranscriptBinding) : Bool :=
  match host.canonicalize path, host.canonicalizeExpected expected with
  | some canonical, some expectedCanonical =>
    samePath canonical expectedCanonical && canonical == binding.canonicalPath
      && match host.bindTranscript canonical with
        | .ok current => current == binding
        | .error _ => false
  | _, _ => false

end WatchMe
