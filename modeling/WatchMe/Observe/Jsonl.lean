import WatchMe.Agents.Codex
import WatchMe.Text.Lines

/-! # Reading a log while it grows

A cursor reads a file with one JSON record a line from where it stopped. It keeps the line that
has not ended, gives up a line that grows too long and throws its rest away, and hands out no more
records at once than it may. A guard samples what was read, so that a file that was rewritten is
read from its start.
-/
namespace WatchMe
open Text

structure ReadLimits where
  maxReadBytes : Nat
  maxRecordBytes : Nat
  maxRecords : Nat

structure JsonlBatch where
  records : List Json
  malformed : Nat
  oversized : Nat
  bytesRead : Nat

/-- The hashes of the guard. -/
class JsonlHash where
  digest : List UInt8 → Nat
  rollingDigest : Nat → List UInt8 → Nat

structure JsonlFile where
  identity : Nat × Nat
  mode : Nat
  content : List UInt8

def JsonlFile.readExactAt (file : JsonlFile) (position length : Nat) : Option (List UInt8) :=
  if position + length ≤ file.content.length then
    some ((file.content.drop position).take length)
  else none

structure GuardSample where
  position : Nat
  length : Nat
  digest : Nat

structure GenerationGuard where
  identity : Nat × Nat
  consumedPrefixLen : Nat
  mode : Nat
  samples : List GuardSample
  rollingChunkAccumulator : Nat

namespace GenerationGuard
variable [JsonlHash]

def regionBytes : Nat := 1024

def addSample (file : JsonlFile) (region : Nat) (samples : List GuardSample) (position : Nat) :
    Option (List GuardSample) :=
  if samples.any (·.position == position) then some samples
  else (file.readExactAt position region).map fun bytes =>
    samples ++ [⟨position,region,JsonlHash.digest bytes⟩]

/-- The outer option is an error of the file. -/
def atOffset (file : JsonlFile) (offset key rolling : Nat) : Option (Option GenerationGuard) :=
  if offset = 0 then some none
  else
    let region := min regionBytes offset
    let maximumStart := offset - region
    let positions := [0,maximumStart / 2,key % (maximumStart + 1),maximumStart]
    (positions.foldlM (addSample file region) []).map fun samples =>
      some ⟨file.identity,offset,file.mode,samples,rolling⟩

def GuardSample.shows (sample : GuardSample) (file : JsonlFile) : Bool :=
  (file.readExactAt sample.position sample.length).any (JsonlHash.digest · == sample.digest)

def matchesFile (guard : GenerationGuard) (file : JsonlFile) : Bool :=
  file.identity == guard.identity && decide (guard.consumedPrefixLen ≤ file.content.length)
    && file.mode == guard.mode
    && (List.range guard.samples.length).all fun index =>
      guard.samples[(guard.rollingChunkAccumulator + index) % guard.samples.length]?.any
        (GuardSample.shows · file)

end GenerationGuard

structure JsonlCursor where
  limits : ReadLimits
  identity : Option (Nat × Nat)
  offset : Nat
  partialLine : List UInt8
  pending : List Json
  discarding : Bool
  generationGuard : Option GenerationGuard
  guardKey : Nat
  rollingChunkAccumulator : Nat

namespace JsonlCursor

def new (limits : ReadLimits) (guardKey : Nat) : JsonlCursor :=
  ⟨limits,none,0,[],[],false,none,guardKey,0⟩

/-- A file that is not the one that was read is read from its start. -/
def reset [JsonlHash] (cursor : JsonlCursor) (file : JsonlFile) : JsonlCursor :=
  if cursor.identity ≠ some file.identity ∨ file.content.length < cursor.offset ∨
      cursor.generationGuard.any (fun guard => !guard.matchesFile file) then
    { new cursor.limits cursor.guardKey with identity := some file.identity }
  else cursor

structure LineScan where
  discarding : Bool
  pending : List Json
  malformed : Nat
  oversized : Nat

def takeLine [Texts] (limits : ReadLimits) (s : LineScan) (line : List UInt8) : LineScan :=
  if s.discarding then { s with discarding := false, oversized := s.oversized + 1 }
  else if limits.maxRecordBytes < line.length then { s with oversized := s.oversized + 1 }
  else
    match fromSlice line with
    | some value => { s with pending := s.pending ++ [value] }
    | none => { s with malformed := s.malformed + 1 }

def giveUp (cursor : JsonlCursor) : JsonlCursor :=
  if cursor.limits.maxRecordBytes < cursor.partialLine.length then
    { cursor with partialLine := [], discarding := true }
  else cursor

def deliver (cursor : JsonlCursor) (batch : JsonlBatch) : JsonlCursor × Option JsonlBatch :=
  ({ cursor with pending := cursor.pending.drop cursor.limits.maxRecords },
    some { batch with records := batch.records ++ cursor.pending.take cursor.limits.maxRecords })

variable [Texts]

/-- What is read is split behind its last newline. -/
def takeLines (cursor : JsonlCursor) (bytes : List UInt8) : JsonlCursor × JsonlBatch :=
  let text := cursor.partialLine ++ bytes
  let read := (completeLines 10 text).foldl (takeLine cursor.limits)
    ⟨cursor.discarding,cursor.pending,0,0⟩
  ({ cursor with
      partialLine := fragment 10 text, pending := read.pending, discarding := read.discarding },
    ⟨[],read.malformed,read.oversized,bytes.length⟩)

/-- No batch is an error of the file. -/
def readNew [JsonlHash] (old : JsonlCursor) (file : JsonlFile) : JsonlCursor × Option JsonlBatch :=
  let cursor := old.reset file
  if cursor.pending ≠ [] then cursor.deliver ⟨[],0,0,0⟩
  else
    let bytes := (file.content.drop cursor.offset).take cursor.limits.maxReadBytes
    let offset := cursor.offset + bytes.length
    let rolling := JsonlHash.rollingDigest cursor.rollingChunkAccumulator bytes
    let cursor := { cursor with offset, rollingChunkAccumulator := rolling }
    match GenerationGuard.atOffset file offset cursor.guardKey rolling with
    | none => (cursor,none)
    | some generationGuard =>
      let read := takeLines { cursor with generationGuard } bytes
      read.1.giveUp.deliver read.2

end JsonlCursor

def JsonlFile.append (file : JsonlFile) (bytes : List UInt8) : JsonlFile :=
  { file with content := file.content ++ bytes }

section Guard
variable [JsonlHash] {file : JsonlFile}

omit [JsonlHash] in
theorem readExactAt_append {position length : Nat} {bytes : List UInt8}
    (h : file.readExactAt position length = some bytes) (more : List UInt8) :
    (file.append more).readExactAt position length = some bytes := by
  unfold JsonlFile.readExactAt JsonlFile.append at *
  split at h
  · next hle =>
    have hlength : length ≤ (file.content.drop position).length := by
      rw [List.length_drop]
      omega
    rw [if_pos (by rw [List.length_append]; omega),List.drop_append_of_le_length (by omega),
      List.take_append_of_le_length hlength]
    exact h
  · cases h

/-- The sample is what the file shows, and goes on to be. -/
def GuardSample.Holds (file : JsonlFile) (sample : GuardSample) : Prop :=
  ∃ bytes, file.readExactAt sample.position sample.length = some bytes ∧
    JsonlHash.digest bytes = sample.digest

theorem addSample_holds {region position : Nat} {samples : List GuardSample}
    (hle : position + region ≤ file.content.length)
    (h : ∀ sample ∈ samples, GuardSample.Holds file sample) :
    ∃ samples', GenerationGuard.addSample file region samples position = some samples' ∧
      ∀ sample ∈ samples', GuardSample.Holds file sample := by
  unfold GenerationGuard.addSample
  split
  · exact ⟨samples,rfl,h⟩
  · have hread : file.readExactAt position region =
        some ((file.content.drop position).take region) := if_pos hle
    refine ⟨_,congrArg (Option.map _) hread,fun sample hsample => ?_⟩
    obtain hsample | hsample := List.mem_append.1 hsample
    · exact h sample hsample
    · obtain rfl := List.mem_singleton.1 hsample
      exact ⟨_,hread,rfl⟩

theorem atOffset_holds {offset : Nat} (h : offset ≤ file.content.length) (key rolling : Nat) :
    ∃ guard, GenerationGuard.atOffset file offset key rolling = some guard ∧
      ∀ g ∈ guard, ∀ more, g.matchesFile (file.append more) = true := by
  unfold GenerationGuard.atOffset
  split
  · exact ⟨none,rfl,nofun⟩
  dsimp only
  generalize hregion : min GenerationGuard.regionBytes offset = region
  have hsamples : ∀ (positions : List Nat) (samples : List GuardSample),
      (∀ position ∈ positions, position + region ≤ file.content.length) →
      (∀ sample ∈ samples, GuardSample.Holds file sample) →
      ∃ samples', positions.foldlM (GenerationGuard.addSample file region) samples =
        some samples' ∧ ∀ sample ∈ samples', GuardSample.Holds file sample := by
    intro positions
    induction positions with
    | nil => exact fun samples _ h => ⟨samples,rfl,h⟩
    | cons position positions ih =>
      intro samples hpositions h
      obtain ⟨hposition,hpositions⟩ := List.forall_mem_cons.1 hpositions
      obtain ⟨samples',hadd,h'⟩ := addSample_holds hposition h
      rw [List.foldlM_cons,hadd]
      exact ih samples' hpositions h'
  have hmod : key % (offset - region + 1) < offset - region + 1 := Nat.mod_lt _ (Nat.succ_pos _)
  obtain ⟨samples,heq,hholds⟩ := hsamples
    [0,(offset - region) / 2,key % (offset - region + 1),offset - region] [] (by simp; omega) nofun
  refine ⟨_,by rw [heq]; rfl,?_⟩
  rintro g hg more
  obtain rfl := Option.some.inj hg
  have hlength : offset ≤ (file.append more).content.length := by
    rw [JsonlFile.append,List.length_append]
    omega
  simp only [GenerationGuard.matchesFile,JsonlFile.append,beq_self_eq_true,Bool.true_and,
    Bool.and_true,Bool.and_eq_true,List.all_eq_true,List.mem_range]
  refine ⟨decide_eq_true hlength,fun index hindex => ?_⟩
  obtain ⟨sample,hsample⟩ : ∃ sample, samples[(rolling + index) % samples.length]? = some sample :=
    ⟨_,List.getElem?_eq_getElem (Nat.mod_lt _ (by omega))⟩
  obtain ⟨bytes,hread,hdigest⟩ := hholds sample (List.mem_of_getElem? hsample)
  have hread' := readExactAt_append hread more
  rw [JsonlFile.append] at hread'
  simp [hsample,GenerationGuard.GuardSample.shows,hread',hdigest]

end Guard

section Lines
variable [Texts]

def admitted (limits : ReadLimits) (line : List UInt8) : Option Json :=
  if limits.maxRecordBytes < line.length then none else fromSlice line

def admissible (limits : ReadLimits) (content : List UInt8) : List Json :=
  (completeLines 10 content).filterMap (admitted limits)

theorem takeLines_kept (limits : ReadLimits) {s : JsonlCursor.LineScan} (h : s.discarding = false)
    (lines : List (List UInt8)) :
    (lines.foldl (JsonlCursor.takeLine limits) s).pending =
        s.pending ++ lines.filterMap (admitted limits) ∧
      (lines.foldl (JsonlCursor.takeLine limits) s).discarding = false := by
  induction lines generalizing s with
  | nil => simp [h]
  | cons line lines ih =>
    rw [List.foldl_cons,JsonlCursor.takeLine,if_neg (by simp [h]),List.filterMap_cons,admitted]
    split
    · exact ih h
    · cases fromSlice line with
      | none => exact ih h
      | some value => simpa using ih (s := { s with pending := s.pending ++ [value] }) h

theorem taken (limits : ReadLimits) (s : JsonlCursor.LineScan) (lines : List (List UInt8)) :
    (lines.foldl (JsonlCursor.takeLine limits) s).pending =
        s.pending ++ (if s.discarding then lines.tail else lines).filterMap (admitted limits) ∧
      (lines.foldl (JsonlCursor.takeLine limits) s).discarding =
        (s.discarding && lines.isEmpty) := by
  cases hdiscarding : s.discarding with
  | false => simpa using takeLines_kept limits hdiscarding lines
  | true =>
    cases lines with
    | nil => simp [hdiscarding]
    | cons line lines =>
      rw [List.foldl_cons,JsonlCursor.takeLine,hdiscarding,if_pos rfl]
      simpa using takeLines_kept limits (s := { s with discarding := false, oversized := _ }) rfl
        lines

theorem lines_read (limits : ReadLimits) (bytes : List UInt8) {last kept : List UInt8}
    {discarding : Bool} (hlast : 10 ∉ last) (hsuffix : kept <:+ last) (hkept : discarding = false → kept = last) :
    let lines := completeLines 10 (kept ++ bytes)
    let taken := (if discarding then lines.tail else lines).filterMap (admitted limits)
    let there := (completeLines 10 (last ++ bytes)).filterMap (admitted limits)
    taken.Sublist there ∧ fragment 10 (kept ++ bytes) <:+ fragment 10 (last ++ bytes) ∧
      ((discarding && lines.isEmpty) = false →
        fragment 10 (kept ++ bytes) = fragment 10 (last ++ bytes)) ∧
      ((discarding → limits.maxRecordBytes < last.length ∧ (kept ≠ [] ∨ bytes.head? ≠ some 10)) →
        taken = there ∧
        ((discarding && lines.isEmpty) = true →
          limits.maxRecordBytes < (fragment 10 (last ++ bytes)).length)) := by
  cases discarding with
  | false =>
    obtain rfl := hkept rfl
    simp
  | true =>
    obtain ⟨cut,rfl⟩ := hsuffix
    obtain ⟨hread,hfile,hreadRest,hfileRest⟩ | ⟨rest,after,rfl,hread,hfile,hrest⟩ :=
      completeLines_cut hlast bytes
    · simp only [hread,hfile,hreadRest,hfileRest]
      refine ⟨by simp,List.suffix_append _ _,by simp,fun h => ⟨by simp,fun _ => ?_⟩⟩
      have hlong := (h trivial).1
      simp only [List.length_append] at hlong ⊢
      omega
    · simp only [hread,hfile,hrest]
      refine ⟨.filterMap _ (?_ : List.Sublist _ _),List.suffix_refl _,fun _ => trivial,fun h => ?_⟩
      · refine .trans ?_ (List.sublist_append_right _ _)
        by_cases hempty : kept ++ rest = []
        · simpa [hempty] using List.tail_sublist _
        · simp [hempty]
      · obtain ⟨hlong,hfirst⟩ := h trivial
        have hne : kept ++ rest ≠ [] := fun hnil => by simp_all
        have hlonger : limits.maxRecordBytes < (cut ++ kept ++ rest).length := by
          rw [List.length_append]
          omega
        have hnone : admitted limits (cut ++ (kept ++ rest)) = none := by
          rw [← List.append_assoc]
          exact if_pos hlonger
        simp [hne,hnone]

end Lines

structure JsonlRun where
  file : JsonlFile
  cursor : JsonlCursor
  delivered : List Json

inductive JsonlAct where
  | append (bytes : List UInt8)
  | read

section Runs
variable [Texts] [JsonlHash]

namespace JsonlRun

def step (s : JsonlRun) : JsonlAct → JsonlRun
  | .append bytes => { s with file := s.file.append bytes }
  | .read =>
    let read := s.cursor.readNew s.file
    { s with cursor := read.1, delivered := s.delivered ++ read.2.elim [] (·.records) }

def run (limits : ReadLimits) (key : Nat) (file : JsonlFile) (acts : List JsonlAct) : JsonlRun :=
  acts.foldl step ⟨file,.new limits key,[]⟩

def consumed (s : JsonlRun) : List UInt8 := s.file.content.take s.cursor.offset

/-- The next byte is the end of a line that was given up. -/
def AtLineEnd (s : JsonlRun) : Prop :=
  s.cursor.pending = [] ∧ s.cursor.discarding = true ∧ s.cursor.partialLine = [] ∧
    s.file.content[s.cursor.offset]? = some 10

/-- What the cursor knows of the file. Nothing is lost as long as no read starts at the end of a
line that was given up. -/
structure Tracks (limits : ReadLimits) (exact : Prop) (s : JsonlRun) : Prop where
  limited : s.cursor.limits = limits
  fresh : s.cursor.identity = none → s.cursor = .new limits s.cursor.guardKey
  identity : ∀ id ∈ s.cursor.identity, id = s.file.identity
  offset : s.cursor.offset ≤ s.file.content.length
  guarded : ∀ g ∈ s.cursor.generationGuard, ∀ more, g.matchesFile (s.file.append more) = true
  kept : s.cursor.partialLine <:+ fragment 10 s.consumed
  whole : s.cursor.discarding = false → s.cursor.partialLine = fragment 10 s.consumed
  sound : (s.delivered ++ s.cursor.pending).Sublist (admissible limits s.consumed)
  complete : exact → s.delivered ++ s.cursor.pending = admissible limits s.consumed ∧
    (s.cursor.discarding = true → limits.maxRecordBytes < (fragment 10 s.consumed).length)

variable {limits : ReadLimits} {exact : Prop} {s : JsonlRun}

theorem Tracks.append (h : Tracks limits exact s) (bytes : List UInt8) :
    Tracks limits exact (s.step (.append bytes)) := by
  have hconsumed : (s.step (.append bytes)).consumed = s.consumed :=
    List.take_append_of_le_length h.offset
  refine ⟨h.limited,h.fresh,h.identity,?_,fun g hg more => ?_,hconsumed ▸ h.kept,
    hconsumed ▸ h.whole,hconsumed ▸ h.sound,hconsumed ▸ h.complete⟩
  · simpa [step,JsonlFile.append] using Nat.le_add_right_of_le h.offset
  · simpa [step,JsonlFile.append] using h.guarded g hg (bytes ++ more)

theorem Tracks.reset (h : Tracks limits exact s) :
    s.cursor.reset s.file = { s.cursor with identity := some s.file.identity } := by
  unfold JsonlCursor.reset
  cases hidentity : s.cursor.identity with
  | none =>
    rw [if_pos (by simp),h.fresh hidentity]
    rfl
  | some id =>
    obtain rfl := h.identity id hidentity
    rw [if_neg,← hidentity]
    rintro (hne | hlt | hguard)
    · exact hne rfl
    · exact absurd h.offset (Nat.not_le.2 hlt)
    · obtain ⟨g,hg,hfails⟩ := (Option.any_eq_true _ _).1 hguard
      have hmatches := h.guarded g hg []
      simp_all [JsonlFile.append]

theorem Tracks.giveUp (h : Tracks limits exact s) :
    Tracks limits exact { s with cursor := s.cursor.giveUp } := by
  unfold JsonlCursor.giveUp
  split
  · next hlong =>
    refine ⟨h.limited,fun hnone => ?_,h.identity,h.offset,h.guarded,List.nil_suffix,nofun,h.sound,
      fun he => ⟨(h.complete he).1,fun _ => ?_⟩⟩
    · rw [h.fresh hnone] at hlong
      exact absurd hlong (Nat.not_lt_zero _)
    · have hle := h.kept.length_le
      rw [h.limited] at hlong
      exact Nat.lt_of_lt_of_le hlong hle
  · exact h

theorem Tracks.deliver (h : Tracks limits exact s) {batch : JsonlBatch} (hbatch : batch.records = []) :
    Tracks limits exact { s with
      cursor := (s.cursor.deliver batch).1,
      delivered := s.delivered ++ (s.cursor.deliver batch).2.elim [] (·.records) } := by
  have hsplit : s.delivered ++ (s.cursor.deliver batch).2.elim [] (·.records) ++
      (s.cursor.deliver batch).1.pending = s.delivered ++ s.cursor.pending := by
    simp [JsonlCursor.deliver,hbatch]
  refine ⟨h.limited,fun hnone => ?_,h.identity,h.offset,h.guarded,h.kept,h.whole,
    hsplit ▸ h.sound,fun he => ⟨hsplit.trans (h.complete he).1,(h.complete he).2⟩⟩
  dsimp only [JsonlCursor.deliver]
  rw [h.fresh hnone]
  simp [JsonlCursor.new]

theorem Tracks.takeLines (h : Tracks limits exact s) (hexact : exact → ¬ s.AtLineEnd)
    (hpending : s.cursor.pending = []) (cursor : JsonlCursor) {bytes : List UInt8}
    (hcursor : cursor.limits = limits ∧ cursor.partialLine = s.cursor.partialLine ∧
      cursor.pending = [] ∧ cursor.discarding = s.cursor.discarding ∧
      cursor.identity = some s.file.identity ∧ cursor.offset = s.cursor.offset + bytes.length)
    (hbytes : bytes <+: s.file.content.drop s.cursor.offset)
    (hguarded : ∀ g ∈ cursor.generationGuard, ∀ more, g.matchesFile (s.file.append more) = true) :
    Tracks limits exact { s with cursor := (cursor.takeLines bytes).1 } := by
  obtain ⟨hlimits,hcut,hnone,hdiscarding,hidentity,hoffset⟩ := hcursor
  obtain ⟨after,hafter⟩ := hbytes
  have hconsumed : s.file.content.take (s.cursor.offset + bytes.length) = s.consumed ++ bytes := by
    rw [List.take_add,← hafter,List.take_left,consumed]
  obtain ⟨hlines,hrest⟩ := completeLines_append 10 s.consumed bytes
  obtain ⟨hsound,hsuffix,hwhole,hcomplete⟩ :=
    lines_read limits bytes (notMem_fragment s.consumed) h.kept h.whole
  have hadmissible : admissible limits (s.consumed ++ bytes) = admissible limits s.consumed ++
      (completeLines 10 (fragment 10 s.consumed ++ bytes)).filterMap (admitted limits) := by
    rw [admissible,hlines,List.filterMap_append,admissible]
  obtain ⟨htaken,hflag⟩ : (cursor.takeLines bytes).1.pending = _ ∧
      (cursor.takeLines bytes).1.discarding = _ := taken cursor.limits _ _
  have hnext : { s with cursor := (cursor.takeLines bytes).1 }.consumed = s.consumed ++ bytes := by
    rw [← hconsumed,← hoffset]
    rfl
  have hfragment : (cursor.takeLines bytes).1.partialLine =
      fragment 10 (s.cursor.partialLine ++ bytes) := by
    rw [← hcut]
    rfl
  simp only [hlimits,hcut,hnone,hdiscarding,List.nil_append] at htaken hflag
  refine ⟨hlimits,fun hfresh => ?_,fun id hid => ?_,?_,hguarded,?_,?_,?_,fun he => ?_⟩
  · cases hidentity.symm.trans hfresh
  · exact (Option.some.inj (hidentity.symm.trans hid)).symm
  · have hlength := congrArg List.length hafter
    rw [List.length_append,List.length_drop] at hlength
    have hle := h.offset
    change cursor.offset ≤ s.file.content.length
    omega
  · rwa [hnext,hrest,hfragment]
  · rw [hnext,hrest,hfragment]
    exact fun hfalse => hwhole (hflag.symm.trans hfalse)
  · rw [hnext,hadmissible,htaken]
    have hbefore := h.sound
    rw [hpending,List.append_nil] at hbefore
    exact hbefore.append hsound
  · obtain ⟨hrecords,hlong⟩ := h.complete he
    rw [hpending,List.append_nil] at hrecords
    have hfirst (hd : s.cursor.discarding = true) :
        s.cursor.partialLine ≠ [] ∨ bytes.head? ≠ some 10 := by
      by_contra hend
      obtain ⟨hkept,hhead⟩ := not_or.1 hend
      refine hexact he ⟨hpending,hd,not_not.1 hkept,?_⟩
      rw [← List.head?_drop,← hafter,List.head?_append,not_not.1 hhead]
      rfl
    obtain ⟨hall,hstill⟩ := hcomplete fun hd => ⟨hlong hd,hfirst hd⟩
    rw [hnext,hadmissible,htaken,hrest,hrecords,hall]
    exact ⟨rfl,fun htrue => hstill (hflag.symm.trans htrue)⟩

theorem Tracks.read (h : Tracks limits exact s) (hexact : exact → ¬ s.AtLineEnd) :
    Tracks limits exact (s.step .read) := by
  rw [step,JsonlCursor.readNew,h.reset]
  dsimp only
  split
  · next hpending =>
    have hidentity : Tracks limits exact
        { s with cursor := { s.cursor with identity := some s.file.identity } } :=
      ⟨h.limited,nofun,fun id hid => (Option.some.inj hid).symm,h.offset,h.guarded,h.kept,h.whole,
        h.sound,h.complete⟩
    exact hidentity.deliver rfl
  · next hpending =>
    generalize hbytes : (s.file.content.drop s.cursor.offset).take _ = bytes
    have hoffset : s.cursor.offset + bytes.length ≤ s.file.content.length := by
      have hlength := congrArg List.length hbytes
      rw [List.length_take,List.length_drop] at hlength
      have := h.offset
      omega
    obtain ⟨guard,hguard,hmatches⟩ := atOffset_holds hoffset s.cursor.guardKey
      (JsonlHash.rollingDigest s.cursor.rollingChunkAccumulator bytes)
    rw [hguard]
    exact (h.takeLines hexact (not_not.1 hpending)
      { s.cursor with
        identity := some s.file.identity, offset := s.cursor.offset + bytes.length,
        generationGuard := guard, rollingChunkAccumulator := _ }
      ⟨h.limited,rfl,not_not.1 hpending,rfl,rfl,rfl⟩ (hbytes ▸ List.take_prefix _ _)
      hmatches).giveUp.deliver rfl

theorem tracks_run (exact : Prop) (limits : ReadLimits) (key : Nat) (file : JsonlFile)
    (acts : List JsonlAct) (h : ∀ before after, acts = before ++ .read :: after → exact →
      ¬ (run limits key file before).AtLineEnd) :
    Tracks limits exact (run limits key file acts) := by
  induction acts using List.reverseRecOn with
  | nil =>
    have hnothing : (⟨file,.new limits key,[]⟩ : JsonlRun).consumed = [] := List.take_zero
    refine ⟨rfl,fun _ => rfl,nofun,Nat.zero_le _,nofun,List.nil_suffix,fun _ => ?_,
      List.nil_sublist _,fun _ => ⟨?_,nofun⟩⟩
    all_goals rw [run,List.foldl_nil,hnothing]; rfl
  | append_singleton acts act ih =>
    have hbefore := ih fun before after heq => h before (after ++ [act]) (by simp [heq])
    rw [run,List.foldl_append]
    cases act with
    | append bytes => exact hbefore.append bytes
    | read => exact hbefore.read (h acts [] rfl)

/-- A further read finds nothing to hand out and no bytes. -/
def Quiet (s : JsonlRun) : Prop :=
  (s.cursor.readNew s.file).2.any fun batch => batch.records.isEmpty && batch.bytesRead == 0

theorem Tracks.quiet (h : Tracks limits exact s) (hread : 0 < limits.maxReadBytes)
    (hrecords : 0 < limits.maxRecords) (hquiet : s.Quiet) :
    s.cursor.pending = [] ∧ s.consumed = s.file.content := by
  obtain ⟨batch,hbatch,hempty⟩ := (Option.any_eq_true _ _).1 hquiet
  simp only [Bool.and_eq_true,List.isEmpty_iff,beq_iff_eq] at hempty
  obtain ⟨hnone,hbytes⟩ := hempty
  rw [JsonlCursor.readNew,h.reset] at hbatch
  dsimp only at hbatch
  split at hbatch
  · next hpending =>
    obtain rfl := Option.some.inj hbatch
    rw [h.limited,List.nil_append,List.take_eq_nil_iff] at hnone
    exact absurd (hnone.resolve_left (Nat.ne_of_gt hrecords)) hpending
  · next hpending =>
    refine ⟨not_not.1 hpending,List.take_of_length_le ?_⟩
    split at hbatch
    · cases hbatch
    · obtain rfl := Option.some.inj hbatch
      dsimp only [JsonlCursor.takeLines] at hbytes
      rw [h.limited,List.length_take,List.length_drop] at hbytes
      omega

end JsonlRun

omit [JsonlHash] in
theorem admissible_take (limits : ReadLimits) (content : List UInt8) (offset : Nat) :
    (admissible limits (content.take offset)).Sublist (admissible limits content) := by
  rw [← content.take_append_drop offset,admissible,admissible,(completeLines_append 10 _ _).1,
    List.filterMap_append,List.take_append_drop]
  exact List.sublist_append_left _ _

theorem jsonl_sound (limits : ReadLimits) (key : Nat) (file : JsonlFile) (acts : List JsonlAct) :
    (JsonlRun.run limits key file acts).delivered.Sublist
      (admissible limits (JsonlRun.run limits key file acts).file.content) := by
  have htracks := JsonlRun.tracks_run False limits key file acts fun _ _ _ => False.elim
  exact ((List.sublist_append_left _ _).trans htracks.sound).trans (admissible_take _ _ _)

theorem jsonl_complete (limits : ReadLimits) (key : Nat) (file : JsonlFile) {acts : List JsonlAct}
    (hlimits : 0 < limits.maxReadBytes ∧ 0 < limits.maxRecords)
    (hreads : ∀ before after, acts = before ++ .read :: after →
      ¬ (JsonlRun.run limits key file before).AtLineEnd)
    (hquiet : (JsonlRun.run limits key file acts).Quiet) :
    (JsonlRun.run limits key file acts).delivered =
      admissible limits (JsonlRun.run limits key file acts).file.content := by
  have htracks := JsonlRun.tracks_run True limits key file acts fun before after heq _ =>
    hreads before after heq
  obtain ⟨hpending,hconsumed⟩ := htracks.quiet hlimits.1 hlimits.2 hquiet
  simpa [hpending,hconsumed] using (htracks.complete trivial).1

end Runs

namespace Sample

@[reducible] def jsonlTexts : Texts where
  parseFromRfc3339 _ := none
  fromStr text := if text = "1" then some (.number 1) else none
  toRfc3339 _ := ""

@[reducible] def lengthHash : JsonlHash := ⟨List.length,fun _ _ => 0⟩

def jsonlRun (maxReadBytes : Nat) (acts : List JsonlAct) : JsonlRun :=
  let _ := jsonlTexts
  let _ := lengthHash
  .run ⟨maxReadBytes,4,8⟩ 0 ⟨(1,1),0,utf8Bytes "abcdef\n1\n"⟩ acts

end Sample

attribute [local instance] Sample.jsonlTexts Sample.lengthHash

theorem jsonl_complete_twice :
    (Sample.jsonlRun 7 [.read,.read]).delivered =
      admissible ⟨7,4,8⟩ (Sample.jsonlRun 7 [.read,.read]).file.content := by
  have hruns : (Sample.jsonlRun 7 []).cursor.discarding = false ∧
      (Sample.jsonlRun 7 [.read]).cursor.discarding = false ∧
      (Sample.jsonlRun 7 [.read,.read]).Quiet := by
    unfold JsonlRun.Quiet
    decide +kernel
  refine jsonl_complete ⟨7,4,8⟩ 0 _ (by decide) (fun before after heq hend => ?_) hruns.2.2
  match before, heq with
  | [], _ => cases hend.2.1.symm.trans hruns.1
  | [_], rfl => cases hend.2.1.symm.trans hruns.2.1
  | _ :: _ :: _, heq => simp at heq

/-- The first read ends right before the end of the line that is too long. -/
theorem jsonl_record_lost :
    (Sample.jsonlRun 6 [.read,.read]).Quiet ∧ (Sample.jsonlRun 6 [.read,.read]).delivered = [] ∧
      admissible ⟨6,4,8⟩ (Sample.jsonlRun 6 [.read,.read]).file.content = [.number 1] := by
  unfold JsonlRun.Quiet
  decide +kernel

end WatchMe
