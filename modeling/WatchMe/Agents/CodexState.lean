import WatchMe.Agents.Codex

/-! # The last turn of a Codex rollout

A rollout is a log with one JSON record a line. A goal is blocked by capacity if the log says that
its last turn ended with the capacity message. Only the end of a long log is read.
-/
namespace WatchMe
open Text

def maxRolloutTailBytes : Nat := 1024 * 1024

def maxRolloutRecordBytes : Nat := 256 * 1024

def capacityMessage : String := "Selected model is at capacity. Please try a different model."

namespace Json

def pointer (value : Json) (path : List String) : Option Json := path.foldlM get value

def stringAt (value : Json) (path : List String) : Option String :=
  (value.pointer path).bind asStr

end Json

def assistantHasExactCapacityMessage (value : Json) : Bool :=
  (((value.pointer ["payload","content"]).bind Json.asArray).getD []).any fun part =>
    part.stringAt ["type"] == some "output_text" && part.stringAt ["text"] == some capacityMessage

inductive RolloutRecord where
  | started (turn : Option String)
  | complete (turn : Option String)
  | user
  | assistant (capacity : Bool)
  | other
  deriving DecidableEq

def Json.rolloutRecord (value : Json) : RolloutRecord :=
  let kind := value.stringAt ["type"]
  let turn := value.stringAt ["payload","turn_id"]
  let role := value.stringAt ["payload","role"]
  if kind = some "event_msg" then
    if value.stringAt ["payload","type"] = some "task_started" then .started turn
    else if value.stringAt ["payload","type"] = some "task_complete" then .complete turn
    else .other
  else if kind = some "response_item" then
    if role = some "user" then .user
    else if role = some "assistant" then .assistant (assistantHasExactCapacityMessage value)
    else .other
  else .other

structure RolloutScan where
  currentTurn : Option String
  capacityTurn : Option String
  terminalCapacity : Bool

namespace RolloutScan

def start : RolloutScan := ⟨none,none,false⟩

def step (s : RolloutScan) : RolloutRecord → RolloutScan
  | .started turn => ⟨turn,none,false⟩
  | .complete turn => ⟨none,s.capacityTurn,turn.isSome && turn == s.capacityTurn⟩
  | .user => ⟨s.currentTurn,none,false⟩
  | .assistant true => { s with capacityTurn := s.currentTurn }
  | .assistant false | .other => s

end RolloutScan

def rolloutLines (bytes : List UInt8) : List (List UInt8) := (bytes.splitOn 10).filter (· ≠ [])

def RolloutScan.read [Texts] (s : RolloutScan) (line : List UInt8) : Option RolloutScan :=
  if maxRolloutRecordBytes < line.length then none
  else (fromSlice line).map fun value => s.step value.rolloutRecord

def scanRollout [Texts] (bytes : List UInt8) : Option Bool :=
  ((rolloutLines bytes).foldlM RolloutScan.read .start).map (·.terminalCapacity)

/-- The bytes from an offset on, without the line in whose middle they may start. -/
def rolloutTail (offset : Nat) (file : List UInt8) : Option (List UInt8) :=
  let bytes := file.drop offset
  if bytes ≠ [] ∧ bytes.getLast? ≠ some 10 then none
  else if 0 < offset then (bytes.idxOf? 10).map fun newline => bytes.drop (newline + 1)
  else some bytes

/-- The answers of the host: the file of the binding, where `revalidate_file` accepts it before
and after it is read. -/
structure RolloutFile where
  revalidated : Bool
  content : Option (List UInt8)
  revalidatedAfter : Bool

def readRolloutTail (file : RolloutFile) : Option (List UInt8) := do
  guard file.revalidated
  let content ← file.content
  guard file.revalidatedAfter
  rolloutTail (content.length - maxRolloutTailBytes) content

def latestTerminalTurnHasCapacity [Texts] (file : RolloutFile) : Option Bool := do
  scanRollout (← readRolloutTail file)

/-- The records of a file. A line that cannot be read is none of those that matter. -/
def rolloutLog [Texts] (bytes : List UInt8) : List RolloutRecord :=
  (rolloutLines bytes).map fun line => ((fromSlice line).map Json.rolloutRecord).getD .other

theorem rolloutLines_append (before after : List UInt8) :
    rolloutLines (before ++ 10 :: after) = rolloutLines before ++ rolloutLines after := by
  simp [rolloutLines,List.splitOn,List.splitOnP_append_cons]

theorem rolloutTail_lines {offset : Nat} {file tail : List UInt8}
    (h : rolloutTail offset file = some tail) :
    ∃ before, rolloutLines file = before ++ rolloutLines tail := by
  simp only [rolloutTail] at h
  split at h
  · simp at h
  split at h
  · obtain ⟨newline,hnewline,rfl⟩ := Option.map_eq_some_iff.1 h
    obtain ⟨hlt,hbyte,-⟩ := List.idxOf?_eq_some_iff.1 hnewline
    refine ⟨rolloutLines (file.take offset ++ (file.drop offset).take newline),?_⟩
    rw [← rolloutLines_append,List.append_assoc,← hbyte,List.getElem_cons_drop,
      List.take_append_drop,List.take_append_drop]
  · obtain rfl : offset = 0 := by omega
    exact ⟨[],by simp_all⟩

section
variable [Texts]

theorem read_eq {s s' : RolloutScan} {lines : List (List UInt8)}
    (h : lines.foldlM RolloutScan.read s = some s') :
    s' = (lines.map fun line => ((fromSlice line).map Json.rolloutRecord).getD .other).foldl
      RolloutScan.step s := by
  induction lines generalizing s with
  | nil => simpa using h.symm
  | cons line lines ih =>
    obtain ⟨next,hread,hrest⟩ := Option.bind_eq_some_iff.1 (by simpa using h)
    unfold RolloutScan.read at hread
    split at hread
    · cases hread
    · obtain ⟨value,hvalue,rfl⟩ := Option.map_eq_some_iff.1 hread
      simpa [hvalue] using ih hrest

theorem read_readable {lines : List (List UInt8)}
    (h : ∀ line ∈ lines, line.length ≤ maxRolloutRecordBytes ∧ (fromSlice line).isSome)
    (s : RolloutScan) : (lines.foldlM RolloutScan.read s).isSome := by
  induction lines generalizing s with
  | nil => rfl
  | cons line lines ih =>
    obtain ⟨⟨hlength,hvalue⟩,hlines⟩ := List.forall_mem_cons.1 h
    obtain ⟨value,hvalue⟩ := Option.isSome_iff_exists.1 hvalue
    simpa [RolloutScan.read,hvalue,Nat.not_lt.2 hlength] using ih hlines _

theorem scanRollout_eq {bytes : List UInt8} {capacity : Bool}
    (h : scanRollout bytes = some capacity) :
    ((rolloutLog bytes).foldl RolloutScan.step .start).terminalCapacity = capacity := by
  obtain ⟨s,hs,rfl⟩ := Option.map_eq_some_iff.1 h
  rw [read_eq hs,rolloutLog]

end

theorem start_or_eq (s : RolloutScan) (log : List RolloutRecord) :
    log.foldl RolloutScan.step .start = .start ∨
      log.foldl RolloutScan.step .start = log.foldl RolloutScan.step s := by
  induction log generalizing s with
  | nil => exact .inl rfl
  | cons x log ih =>
    rcases x with turn | turn | - | (- | -) | -
    · exact .inr rfl
    · have hnothing : RolloutScan.start.step (.complete turn) = .start := by cases turn <;> rfl
      rw [List.foldl_cons,hnothing]
      exact ih (s.step (.complete turn))
    all_goals exact ih _

theorem terminalCapacity_append {before after : List RolloutRecord}
    (h : (after.foldl RolloutScan.step .start).terminalCapacity = true) :
    ((before ++ after).foldl RolloutScan.step .start).terminalCapacity = true := by
  rw [List.foldl_append]
  obtain hnothing | heq := start_or_eq (before.foldl RolloutScan.step .start) after
  · rw [hnothing] at h
    cases h
  · rwa [← heq]

theorem rolloutLog_tail [Texts] {offset : Nat} {file tail : List UInt8}
    (htail : rolloutTail offset file = some tail) (h : scanRollout tail = some true) :
    ((rolloutLog file).foldl RolloutScan.step .start).terminalCapacity = true := by
  obtain ⟨before,hlines⟩ := rolloutTail_lines htail
  rw [rolloutLog,hlines,List.map_append]
  exact terminalCapacity_append (scanRollout_eq h)

theorem tail_capacity [Texts] {file tail : List UInt8} {offset : Nat}
    (hfile : ∀ line ∈ rolloutLines file,
      line.length ≤ maxRolloutRecordBytes ∧ (fromSlice line).isSome)
    (htail : rolloutTail offset file = some tail) (h : scanRollout tail = some true) :
    scanRollout file = some true := by
  obtain ⟨s,hs⟩ := Option.isSome_iff_exists.1 (read_readable hfile .start)
  have hscan : scanRollout file = some s.terminalCapacity := by rw [scanRollout,hs,Option.map_some]
  rw [hscan,← scanRollout_eq hscan,rolloutLog_tail htail h]

namespace Sample

def turnRecord (kind : String) : String × Json :=
  ("\x7b\"type\":\"event_msg\",\"payload\":\x7b\"type\":\"" ++ kind
      ++ "\",\"turn_id\":\"one\"\x7d\x7d",
    .object [("type",.string "event_msg"),
      ("payload",.object [("type",.string kind),("turn_id",.string "one")])])

def messageRecord (text : String) : String × Json :=
  ("\x7b\"type\":\"response_item\",\"payload\":\x7b\"role\":\"assistant\",\"content\":"
      ++ "[\x7b\"type\":\"output_text\",\"text\":\"" ++ text ++ "\"\x7d]\x7d\x7d",
    .object [("type",.string "response_item"),("payload",.object [("role",.string "assistant"),
      ("content",.array [.object [("type",.string "output_text"),("text",.string text)]])])])

def rolloutRecords : List (String × Json) :=
  [turnRecord "task_started",messageRecord capacityMessage,messageRecord "Done.",
    turnRecord "task_complete"]

@[reducible] def rolloutTexts : Texts where
  parseFromRfc3339 _ := none
  fromStr text := rolloutRecords.lookup text
  toRfc3339 _ := ""

def rollout (records : List Nat) : List UInt8 :=
  records.flatMap fun i => utf8Bytes (rolloutRecords[i]?.elim "" (·.1)) ++ [10]

end Sample

theorem tail_capacity_cut :
    let _ := Sample.rolloutTexts
    scanRollout (Sample.rollout [2,0,1,3]) = some true := by
  let _ := Sample.rolloutTexts
  have hlines : (∀ line ∈ rolloutLines (Sample.rollout [2,0,1,3]),
      line.length ≤ maxRolloutRecordBytes ∧ (fromSlice line).isSome) ∧
      (rolloutTail 20 (Sample.rollout [2,0,1,3])).bind scanRollout = some true := by decide +kernel
  obtain ⟨tail,htail,hscan⟩ := Option.bind_eq_some_iff.1 hlines.2
  exact tail_capacity hlines.1 htail hscan

/-- The log says that the turn it completed last ended with the capacity message, and nothing
that asks for another turn came after it. -/
def CapacityBlock (log : List RolloutRecord) : Prop :=
  ∃ turn before l r after,
    log = before ++ .started (some turn) :: (l ++ .assistant true :: (r ++
      .complete (some turn) :: after)) ∧
    (∀ capacity, .assistant capacity ∉ r) ∧ .user ∉ r ++ after ∧
    ∀ turn, .started turn ∉ after ∧ .complete turn ∉ after

/-- The records between the last capacity message before the last completion and the completion,
the last one first. -/
def afterCapacity (log : List RolloutRecord) : List RolloutRecord :=
  (log.reverse.dropWhile fun | .complete _ => false | _ => true).tail.takeWhile
    (· ≠ .assistant true)

/-- The turn showed the message, and its user was silent since. -/
def Capacity (turn : String) (log : List RolloutRecord) : Prop :=
  ∃ l r, log = l ++ .assistant true :: r ∧ .started (some turn) ∈ l ∧
    .assistant true ∉ r ∧ .user ∉ r

structure Scanned (log : List RolloutRecord) (s : RolloutScan) : Prop where
  current : ∀ turn ∈ s.currentTurn, .started (some turn) ∈ log
  capacity : ∀ turn ∈ s.capacityTurn, Capacity turn log
  terminal : s.terminalCapacity = true → ∃ turn l after, log = l ++ .complete (some turn) :: after ∧
    Capacity turn l ∧ .user ∉ after ∧ ∀ turn, .started turn ∉ after ∧ .complete turn ∉ after

theorem Capacity.snoc {turn : String} {log : List RolloutRecord} {x : RolloutRecord}
    (h : Capacity turn log) (hx : x ≠ .assistant true ∧ x ≠ .user) :
    Capacity turn (log ++ [x]) := by
  obtain ⟨l,r,rfl,hstarted,hr⟩ := h
  refine ⟨l,r ++ [x],by simp,hstarted,?_⟩
  simpa [hx.1.symm,hx.2.symm] using hr

theorem Scanned.step {log : List RolloutRecord} {s : RolloutScan} (h : Scanned log s)
    (x : RolloutRecord) : Scanned (log ++ [x]) (s.step x) := by
  have hcurrent : ∀ turn ∈ s.currentTurn, .started (some turn) ∈ log ++ [x] := fun turn hturn =>
    List.mem_append_left _ (h.current turn hturn)
  -- a record that starts, completes and asks nothing leaves the last completion as it is
  have hterminal : x ≠ .user → (∀ turn, x ≠ .started turn ∧ x ≠ .complete turn) →
      s.terminalCapacity = true → ∃ turn l after, log ++ [x] = l ++ .complete (some turn) :: after ∧
        Capacity turn l ∧ .user ∉ after ∧ ∀ turn, .started turn ∉ after ∧
          .complete turn ∉ after := by
    intro huser hx ht
    obtain ⟨turn,l,after,rfl,hcapacity,hafter,hquiet⟩ := h.terminal ht
    refine ⟨turn,l,after ++ [x],by simp,hcapacity,?_,fun turn => ?_⟩
    · simpa [huser.symm] using hafter
    · simpa [(hx turn).1.symm,(hx turn).2.symm] using hquiet turn
  rcases x with turn | turn | - | (- | -) | -
  · exact ⟨fun t ht => by simp_all [RolloutScan.step],by simp [RolloutScan.step],
      by simp [RolloutScan.step]⟩
  · refine ⟨by simp [RolloutScan.step],fun t ht => (h.capacity t ht).snoc (by simp),fun ht => ?_⟩
    obtain ⟨hsome,heq⟩ : turn.isSome ∧ turn = s.capacityTurn := by simpa [RolloutScan.step] using ht
    obtain ⟨t,rfl⟩ := Option.isSome_iff_exists.1 hsome
    exact ⟨t,log,[],rfl,h.capacity t heq.symm,by simp,by simp⟩
  · exact ⟨hcurrent,by simp [RolloutScan.step],by simp [RolloutScan.step]⟩
  · exact ⟨hcurrent,fun t ht => (h.capacity t ht).snoc (by simp),hterminal (by simp) (by simp)⟩
  · exact ⟨hcurrent,fun t ht => ⟨log,[],rfl,h.current t ht,by simp,by simp⟩,
      hterminal (by simp) (by simp)⟩
  · exact ⟨hcurrent,fun t ht => (h.capacity t ht).snoc (by simp),hterminal (by simp) (by simp)⟩

theorem scanned (log : List RolloutRecord) : Scanned log (log.foldl RolloutScan.step .start) := by
  induction log using List.reverseRecOn with
  | nil => exact ⟨nofun,nofun,nofun⟩
  | append_singleton log x ih =>
    rw [List.foldl_append]
    exact ih.step x

theorem afterCapacity_eq {l r after : List RolloutRecord} {turn : Option String}
    (hr : .assistant true ∉ r) (hafter : ∀ turn, .complete turn ∉ after) :
    afterCapacity (l ++ .assistant true :: (r ++ .complete turn :: after)) = r.reverse := by
  have hdrop : ∀ x ∈ after.reverse, (match x with | .complete _ => false | _ => true) = true := by
    intro x hx
    rcases x with _ | turn | _ | _ | _
    case complete => exact absurd (List.mem_reverse.1 hx) (hafter turn)
    all_goals rfl
  have htake : ∀ x ∈ r.reverse, decide (x ≠ .assistant true) = true := fun x hx => by
    refine decide_eq_true fun heq => hr ?_
    rwa [heq,List.mem_reverse] at hx
  simp only [afterCapacity,List.reverse_append,List.reverse_cons,List.append_assoc,
    List.nil_append,List.cons_append]
  rw [List.dropWhile_append_of_pos hdrop,List.dropWhile_cons_of_neg (by simp),List.tail_cons,
    List.takeWhile_append_of_pos htake,List.takeWhile_cons_of_neg (by simp),List.append_nil]

theorem CapacityBlock.silent {log : List RolloutRecord} (h : CapacityBlock log) :
    .assistant false ∉ afterCapacity log := by
  obtain ⟨turn,before,l,r,after,rfl,hr,-,hafter⟩ := h
  rw [← List.cons_append,← List.append_assoc,
    afterCapacity_eq (hr true) fun turn => (hafter turn).2,List.mem_reverse]
  exact hr false

theorem capacity_block_iff [Texts] (file : RolloutFile) {content : List UInt8}
    (hcontent : file.content = some content)
    (h : latestTerminalTurnHasCapacity file = some true) :
    CapacityBlock (rolloutLog content) ↔ .assistant false ∉ afterCapacity (rolloutLog content) := by
  obtain ⟨tail,htail,hscan⟩ := Option.bind_eq_some_iff.1 h
  simp only [readRolloutTail,Option.bind_eq_bind,Option.bind_eq_some_iff] at htail
  obtain ⟨-,-,_,hread,-,-,htail⟩ := htail
  obtain rfl := Option.some.inj (hcontent.symm.trans hread)
  refine ⟨CapacityBlock.silent,fun hsilent => ?_⟩
  obtain ⟨turn,-,after,hlog,⟨l,r,rfl,hstarted,hr,huser⟩,hafter,hquiet⟩ :=
    (scanned _).terminal (rolloutLog_tail htail hscan)
  obtain ⟨before,l,rfl⟩ := List.append_of_mem hstarted
  simp only [List.append_assoc,List.cons_append] at hlog
  rw [hlog,← List.cons_append,← List.append_assoc,afterCapacity_eq hr fun turn => (hquiet turn).2,
    List.mem_reverse] at hsilent
  refine ⟨turn,before,l,r,after,hlog,fun capacity => ?_,by simp [huser,hafter],hquiet⟩
  cases capacity
  · exact hsilent
  · exact hr

def Sample.rolloutFile (records : List Nat) : RolloutFile := ⟨true,some (rollout records),true⟩

theorem capacity_block_shown :
    let _ := Sample.rolloutTexts
    CapacityBlock (rolloutLog (Sample.rollout [0,1,3])) := by
  let _ := Sample.rolloutTexts
  exact (capacity_block_iff (Sample.rolloutFile [0,1,3]) rfl (by decide +kernel)).2
    (by decide +kernel)

theorem capacity_block_answered :
    let _ := Sample.rolloutTexts
    latestTerminalTurnHasCapacity (Sample.rolloutFile [0,1,2,3]) = some true ∧
      ¬ CapacityBlock (rolloutLog (Sample.rollout [0,1,2,3])) := by
  let _ := Sample.rolloutTexts
  have hlog : latestTerminalTurnHasCapacity (Sample.rolloutFile [0,1,2,3]) = some true ∧
      .assistant false ∈ afterCapacity (rolloutLog (Sample.rollout [0,1,2,3])) := by decide +kernel
  exact ⟨hlog.1,fun h => h.silent hlog.2⟩

end WatchMe
