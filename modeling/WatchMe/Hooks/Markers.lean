import Mathlib.Data.List.DropRight
import WatchMe.Effects.Ensures
import WatchMe.Effects.Play
import WatchMe.Hooks.Claude
import WatchMe.Text.Json
import WatchMe.Text.Lines

/-! # Writing markers

A hook appends the record of its marker and then, by a second write, the newline that ends it.
Records that several hooks append are read back as long as none of them starts in the line of
another. The writer bounds a record, the reader also the file: markers are read back, the newest
256 of them, as long as the file keeps within that bound.
-/
namespace WatchMe
open Effects Program Text

def HookMarker.json (marker : HookMarker) : String :=
  jsonObject [("session_id",jsonString marker.sessionId),
    ("transcript_path",jsonString marker.transcriptPath),
    ("error_type",jsonString marker.errorType),("detail",jsonString marker.detail)]

inductive MarkerOp where
  | checkParent
  | pathExists
  | checkedFile
  | openAppend
  | append (text : List Char)
  | syncData
  deriving DecidableEq

@[reducible] def MarkerOp.Answer : MarkerOp → Type
  | pathExists => Bool
  | checkParent | checkedFile | openAppend | append _ | syncData => Except String Unit

abbrev markerSig : Signature := ⟨MarkerOp,MarkerOp.Answer⟩

abbrev MarkerEvent := markerSig.Event

namespace HookMarker

def call (op : MarkerOp) : Program markerSig op.Answer := Program.request (S := markerSig) op

def checked (result : Except String Unit) : ExceptT String (Program markerSig) Unit :=
  ExceptT.mk (pure result)

def locate : ExceptT String (Program markerSig) Unit := do
  ExceptT.mk (call .checkParent)
  let found ← ExceptT.lift (call .pathExists)
  if found = true then ExceptT.mk (call .checkedFile)

/-- The file is checked once more after it was opened. -/
def openChecked : ExceptT String (Program markerSig) Unit := do
  ExceptT.mk (call .openAppend)
  ExceptT.mk (call .checkedFile)

def write (marker : HookMarker) : ExceptT String (Program markerSig) Unit := do
  checked (refuseIf (!marker.valid) "invalid hook marker")
  locate
  checked (refuseIf (decide (8192 < marker.json.utf8ByteSize)) "hook marker exceeds size limit")
  openChecked
  ExceptT.mk (call (.append marker.json.toList))
  ExceptT.mk (call (.append ['\n']))
  ExceptT.mk (call .syncData)

def main (marker : HookMarker) : Program markerSig (Empty ⊕ Except String Unit) :=
  marker.write.run >>= fun result => pure (.inr result)

end HookMarker

def hookMachine : Machine markerSig HookMarker (Except String Unit) :=
  Program.machine nofun HookMarker.main

/-- The text of the marker file. A write that fails has written nothing. -/
def markerWorld : World markerSig (List Char) where
  Answers file e file' := match e with
    | ⟨.append text,.ok ()⟩ => file' = file ++ text
    | _ => file' = file
  Restarts _ _ := False

/-- A marker that the checks of the writer let through. -/
def HookMarker.Admissible (marker : HookMarker) : Prop :=
  marker.valid = true ∧ marker.json.utf8ByteSize ≤ 8192

def MarkerOp.Prepares : MarkerOp → Prop
  | checkParent | pathExists | checkedFile | openAppend => True
  | append _ | syncData => False

inductive HookStage where
  | preparing (marker : HookMarker)
  | recorded (marker : HookMarker)
  | terminated (marker : HookMarker)
  | synced (marker : HookMarker)

/-- A hook whose write fails returns, in the stage that it has come to. -/
inductive HookStage.Step : HookStage → MarkerEvent → HookStage → Prop
  | prepares {marker : HookMarker} {e : MarkerEvent} : MarkerOp.Prepares e.op →
      Step (.preparing marker) e (.preparing marker)
  | recorded {marker : HookMarker} : marker.Admissible →
      Step (.preparing marker) ⟨.append marker.json.toList,.ok ()⟩ (.recorded marker)
  | unrecorded {marker : HookMarker} {error : String} :
      Step (.preparing marker) ⟨.append marker.json.toList,.error error⟩ (.preparing marker)
  | terminated {marker : HookMarker} :
      Step (.recorded marker) ⟨.append ['\n'],.ok ()⟩ (.terminated marker)
  | unterminated {marker : HookMarker} {error : String} :
      Step (.recorded marker) ⟨.append ['\n'],.error error⟩ (.recorded marker)
  | synced {marker : HookMarker} : Step (.terminated marker) ⟨.syncData,.ok ()⟩ (.synced marker)
  | unsynced {marker : HookMarker} {error : String} :
      Step (.terminated marker) ⟨.syncData,.error error⟩ (.terminated marker)

variable {marker : HookMarker} {h : List MarkerEvent} {s s' : HookStage} {e : MarkerEvent}

def writerMachine : Machine markerSig HookMarker Empty where
  State := HookStage
  start := .preparing
  Step := HookStage.Step
  result _ := none

namespace HookMarker

theorem asks_locate : locate.run.Asks (S := markerSig) MarkerOp.Prepares := by
  refine ⟨trivial,fun r => ?_⟩
  cases r with
  | error => trivial
  | ok =>
    refine ⟨trivial,fun found => ?_⟩
    cases found with
    | false => trivial
    | true => exact ⟨trivial,fun _ => trivial⟩

theorem asks_openChecked : openChecked.run.Asks (S := markerSig) MarkerOp.Prepares := by
  refine ⟨trivial,fun r => ?_⟩
  cases r with
  | error => trivial
  | ok => exact ⟨trivial,fun _ => trivial⟩

def Written (marker : HookMarker) (s : HookStage) (result : Except String Unit) : Prop :=
  result = .ok () → s = .synced marker

theorem conforms_prepares {x : ExceptT String (Program markerSig) Unit}
    {f : Unit → ExceptT String (Program markerSig) Unit}
    (hx : x.run.Asks (S := markerSig) MarkerOp.Prepares)
    (hf : Conforms writerMachine marker.Written (f ()).run (HookStage.preparing marker)) :
    Conforms writerMachine marker.Written (x >>= f).run (HookStage.preparing marker) := by
  have hstay := hx.conforms (M := writerMachine) (s := HookStage.preparing marker) rfl
    fun e he => HookStage.Step.prepares he
  refine conforms_run_bind.2 (hstay.mono ?_)
  rintro _ (error | u) rfl
  · exact nofun
  · exact hf

theorem conforms_checked {bad : Bool} {error : String}
    {f : Unit → ExceptT String (Program markerSig) Unit}
    (hf : bad = false → Conforms writerMachine marker.Written (f ()).run s) :
    Conforms writerMachine marker.Written (checked (refuseIf bad error) >>= f).run s := by
  refine conforms_run_bind.2 ?_
  cases bad with
  | true => exact nofun
  | false => exact hf rfl

theorem write_conforms (marker : HookMarker) :
    Conforms writerMachine marker.Written marker.write.run (HookStage.preparing marker) := by
  have hadmissible : (!marker.valid) = false →
      decide (8192 < marker.json.utf8ByteSize) = false → marker.Admissible :=
    fun hvalid hsize => ⟨by simpa using hvalid,by simpa using hsize⟩
  unfold write
  -- The length is not to be computed while the program is unfolded.
  generalize decide (8192 < marker.json.utf8ByteSize) = long at hadmissible ⊢
  refine conforms_checked fun hvalid => conforms_prepares asks_locate ?_
  refine conforms_checked fun hsize => conforms_prepares asks_openChecked ?_
  refine ⟨rfl,fun r => ?_⟩
  cases r with
  | error => exact ⟨_,HookStage.Step.unrecorded,nofun⟩
  | ok u =>
    refine ⟨_,HookStage.Step.recorded (hadmissible hvalid hsize),rfl,fun r => ?_⟩
    cases r with
    | error => exact ⟨_,HookStage.Step.unterminated,nofun⟩
    | ok u =>
      refine ⟨_,HookStage.Step.terminated,rfl,fun r => ?_⟩
      cases r with
      | error => exact ⟨_,HookStage.Step.unsynced,nofun⟩
      | ok => exact ⟨_,HookStage.Step.synced,fun _ => rfl⟩

end HookMarker

section Runs
variable {p : hookMachine.State}

theorem hook_runs (hr : hookMachine.Runs marker h p) :
    ∃ s : HookStage, writerMachine.Runs marker h s ∧
      ∀ result, hookMachine.result p = some result → marker.Written s result := by
  have hmain : Conforms writerMachine (fun s x => match x with
      | .inl i => i.elim
      | .inr result => marker.Written s result) marker.main (HookStage.preparing marker) :=
    conforms_bind.2 marker.write_conforms
  obtain ⟨s,hs,hp⟩ := Conforms.runs (fun _ i _ => i.elim) hmain hr
  refine ⟨s,hs,fun result hresult => ?_⟩
  rcases p with (i | a) | ⟨op,next⟩
  · exact i.elim
  · cases hresult
    exact hp
  · cases hresult

end Runs

def isEnd : MarkerEvent → Bool
  | ⟨.append text,.ok ()⟩ => decide (text = ['\n'])
  | _ => false

def isRecord : MarkerEvent → Bool
  | ⟨.append text,.ok ()⟩ => decide (text ≠ ['\n'])
  | _ => false

theorem HookMarker.newline_not_mem_json (marker : HookMarker) : '\n' ∉ marker.json.toList := by
  unfold HookMarker.json
  refine newline_not_mem_jsonObject fun field hfield => ?_
  simp only [List.mem_cons,List.not_mem_nil,or_false] at hfield
  rcases hfield with rfl | rfl | rfl | rfl <;> exact newline_not_mem_jsonString _

theorem HookMarker.json_singleLine (marker : HookMarker) :
    SingleLine '\n' '\r' marker.json.toList := by
  refine ⟨marker.newline_not_mem_json,?_⟩
  rw [HookMarker.json,getLast?_jsonObject]
  decide

theorem HookMarker.json_ne_newline (marker : HookMarker) : marker.json.toList ≠ ['\n'] := by
  intro h
  exact marker.newline_not_mem_json (h ▸ List.mem_singleton_self _)

def HookStage.Tallies (marker : HookMarker) (h : List MarkerEvent) : HookStage → Prop
  | preparing m => m = marker ∧ h.countP isRecord = 0 ∧ h.countP isEnd = 0
  | recorded m => m = marker ∧ marker.Admissible ∧ h.countP isRecord = 1 ∧ h.countP isEnd = 0
  | terminated m | synced m =>
    m = marker ∧ marker.Admissible ∧ h.countP isRecord = 1 ∧ h.countP isEnd = 1

theorem HookStage.Tallies.step (ht : s.Tallies marker h) (hs : HookStage.Step s e s') :
    s'.Tallies marker (h ++ [e]) := by
  have hjson := marker.json_ne_newline
  cases hs with
  | prepares hprepares =>
    obtain ⟨rfl,hrecord,hend⟩ := ht
    obtain ⟨op,answer⟩ := e
    refine ⟨rfl,?_,?_⟩
    · rw [List.countP_append,hrecord]
      cases op <;> first | exact hprepares.elim | rfl
    · rw [List.countP_append,hend]
      cases op <;> first | exact hprepares.elim | rfl
  | recorded hadmissible =>
    obtain ⟨rfl,hrecord,hend⟩ := ht
    exact ⟨rfl,hadmissible,by simp [hrecord,isRecord,hjson],by simp [hend,isEnd,hjson]⟩
  | unrecorded =>
    obtain ⟨rfl,hrecord,hend⟩ := ht
    exact ⟨rfl,by simp [hrecord,isRecord],by simp [hend,isEnd]⟩
  | terminated | unterminated | synced | unsynced =>
    obtain ⟨rfl,hadmissible,hrecord,hend⟩ := ht
    exact ⟨rfl,hadmissible,by simp [hrecord,isRecord],by simp [hend,isEnd]⟩

theorem writer_tallies (hr : writerMachine.Runs marker h s) : s.Tallies marker h :=
  have hstart : (HookStage.preparing marker).Tallies marker [] := ⟨rfl,rfl,rfl⟩
  hr.invariant hstart
    fun _ _ _ _ ht hs => HookStage.Tallies.step ht hs

/-- The file as the reader finds it: checked, the same when it is opened, every line readable. -/
def markerFile (file : List Char) : MarkerFile :=
  ⟨.ok (String.ofList file).utf8ByteSize,.ok true,
    (bufLines '\n' '\r' file).map fun line => .ok (String.ofList line)⟩

def markerLines (markers : List HookMarker) : List Char :=
  terminated '\n' (markers.map fun marker => marker.json.toList)

theorem markerLines_concat (markers : List HookMarker) (marker : HookMarker) :
    markerLines (markers ++ [marker]) = markerLines markers ++ marker.json.toList ++ ['\n'] := by
  simp [markerLines,terminated]

theorem bufLines_markerLines (markers : List HookMarker) :
    bufLines '\n' '\r' (markerLines markers) = markers.map fun marker => marker.json.toList := by
  refine bufLines_terminated fun line hline => ?_
  obtain ⟨marker,-,rfl⟩ := List.mem_map.1 hline
  exact marker.json_singleLine

theorem rtake_push {α : Type} {n : Nat} (hn : 0 < n) (l : List α) (x : α) :
    (if (l.rtake n).length = n then (l.rtake n).tail else l.rtake n) ++ [x] =
      (l ++ [x]).rtake n := by
  obtain ⟨k,rfl⟩ := Nat.exists_eq_add_one.2 hn
  rw [List.rtake_concat_succ]
  simp only [List.rtake,List.length_drop,List.tail_drop]
  split <;> congr 2 <;> omega

section Reading
variable [Texts] {markers : List HookMarker}

def HookMarker.Parses (marker : HookMarker) : Prop :=
  (Texts.fromStr marker.json).bind HookMarker.ofJson = some marker

theorem keepMarker_rtake (hadmissible : marker.Admissible) (hparses : marker.Parses) :
    keepMarker (markers.rtake maxMarkers) marker.json =
      (markers ++ [marker]).rtake maxMarkers := by
  have hread : ((Texts.fromStr marker.json).bind HookMarker.ofJson).filter HookMarker.valid =
      some marker := by
    rw [hparses]
    exact Option.filter_some_pos hadmissible.1
  rw [keepMarker,if_neg (Nat.not_lt.2 hadmissible.2),hread]
  exact rtake_push (by decide) markers marker

theorem foldl_keepMarker (h : ∀ marker ∈ markers, marker.Admissible ∧ marker.Parses) :
    (markers.map HookMarker.json).foldl keepMarker [] = markers.rtake maxMarkers := by
  -- The reader goes on from the newest markers of what it has read.
  induction markers using List.reverseRecOn with
  | nil => exact (List.rtake_nil maxMarkers).symm
  | append_singleton markers marker ih =>
    obtain ⟨hmarkers,hmarker⟩ := List.forall_mem_append.1 h
    obtain ⟨hadmissible,hparses⟩ := hmarker marker (List.mem_singleton_self _)
    rw [List.map_append,List.foldl_append,ih hmarkers,List.map_singleton,List.foldl_cons,
      List.foldl_nil]
    exact keepMarker_rtake hadmissible hparses

theorem readMarkers_markerLines (h : ∀ marker ∈ markers, marker.Admissible ∧ marker.Parses) :
    readMarkers (markerFile (markerLines markers)) =
      if 1048576 < (String.ofList (markerLines markers)).utf8ByteSize
      then .error "hook marker exceeds size limit" else .ok (markers.rtake maxMarkers) := by
  have hlines : (markerFile (markerLines markers)).lines.mapM id =
      .ok (markers.map HookMarker.json) := by
    simp only [markerFile,bufLines_markerLines,List.mapM_map,Function.comp_def,
      String.ofList_toList]
    exact List.mapM_pure
  rw [readMarkers,hlines]
  by_cases hsize : 1048576 < (String.ofList (markerLines markers)).utf8ByteSize
  · simp only [markerFile,Bind.bind,Except.bind,hsize,decide_true,if_true]
    rfl
  · simp only [markerFile,Bind.bind,Except.bind,hsize,decide_false,if_false]
    exact congrArg Except.ok (foldl_keepMarker h)

end Reading

def HookStage.text : HookStage → List Char
  | preparing _ => []
  | recorded marker => marker.json.toList
  | terminated marker | synced marker => marker.json.toList ++ ['\n']

theorem HookStage.Step.text (hs : HookStage.Step s e s')
    {file file' : List Char} (hw : markerWorld.Answers file e file') {before : List Char}
    (hfile : file = before ++ s.text) : file' = before ++ s'.text := by
  cases hs with
  | prepares hprepares =>
    obtain ⟨op,answer⟩ := e
    cases op with
    | append | syncData => exact hprepares.elim
    | checkParent | pathExists | checkedFile | openAppend => exact Eq.trans hw hfile
  | unrecorded | unterminated | synced | unsynced => exact Eq.trans hw hfile
  | recorded =>
    rw [show file' = file ++ _ from hw,hfile]
    simp [HookStage.text]
  | terminated =>
    rw [show file' = file ++ _ from hw,hfile]
    simp [HookStage.text]

theorem writer_text (hr : writerMachine.Runs marker h s) {file file' : List Char}
    (hw : markerWorld.Answered file h file') : file' = file ++ s.text := by
  refine hr.invariant (fun file' hw => ?_) (fun h s e s' ih hs file' hw => ?_)
    file' hw
  · simp [hw.nil_inv,writerMachine,HookStage.text]
  · obtain ⟨between,hbefore,hlast⟩ := hw.append_inv
    obtain ⟨after,hanswer,hnil⟩ := hlast.cons_inv
    rw [hnil.nil_inv]
    exact HookStage.Step.text hs hanswer (ih between hbefore)

inductive Wrote : List Char → List HookMarker → List Char → Prop
  | nil (file : List Char) : Wrote file [] file
  | cons {file file' file'' : List Char} {marker : HookMarker} {markers : List HookMarker}
      {h : List MarkerEvent} : Traces marker.main h (.inr (.ok ())) →
      markerWorld.Answered file h file' → Wrote file' markers file'' →
      Wrote file (marker :: markers) file''

theorem Wrote.file {file file' : List Char} {markers : List HookMarker}
    (h : Wrote file markers file') :
    file' = file ++ markerLines markers ∧ ∀ marker ∈ markers, marker.Admissible := by
  induction h with
  | nil => exact ⟨by simp [markerLines,terminated],by simp⟩
  | @cons file between file' marker markers es htraces hw _ ih =>
    have hruns : hookMachine.Runs marker es ((Program.done (.inr (.ok ()))).unroll nofun) :=
      htraces.runs_main _
    obtain ⟨stage,hstage,hwritten⟩ := hook_runs hruns
    obtain rfl := hwritten (.ok ()) rfl rfl
    obtain ⟨-,hadmissible,-⟩ := writer_tallies hstage
    refine ⟨?_,List.forall_mem_cons.2 ⟨hadmissible,ih.2⟩⟩
    rw [ih.1,writer_text hstage hw]
    simp [markerLines,terminated,HookStage.text]

/-- Of the markers that hooks have written one after another the reader returns the newest, as
long as the file is not too large for it. -/
theorem sequential_markers_read_iff [Texts] {markers : List HookMarker} {file : List Char}
    (h : Wrote [] markers file) (hparses : ∀ marker ∈ markers, marker.Parses) :
    readMarkers (markerFile file) = .ok (markers.rtake maxMarkers) ↔
      (String.ofList file).utf8ByteSize ≤ 1048576 := by
  obtain ⟨hfile,hadmissible⟩ := h.file
  rw [List.nil_append] at hfile
  subst hfile
  rw [readMarkers_markerLines fun marker hm => ⟨hadmissible marker hm,hparses marker hm⟩]
  split
  · simp
    omega
  · simp
    omega

def writeEvents (marker : HookMarker) : List MarkerEvent :=
  [⟨.checkParent,.ok ()⟩,⟨.pathExists,false⟩,⟨.openAppend,.ok ()⟩,⟨.checkedFile,.ok ()⟩,
    ⟨.append marker.json.toList,.ok ()⟩,⟨.append ['\n'],.ok ()⟩,⟨.syncData,.ok ()⟩]

theorem traces_writeEvents (h : marker.Admissible) :
    Traces marker.main (writeEvents marker) (.inr (.ok ())) := by
  have hvalid : (!marker.valid) = false := by rw [h.1]; rfl
  have hsize : decide (8192 < marker.json.utf8ByteSize) = false :=
    decide_eq_false (Nat.not_lt.2 h.2)
  unfold HookMarker.main HookMarker.write
  rw [hvalid,hsize]
  exact .ask _ (.ask _ (.ask _ (.ask _ (.ask _ (.ask _ (.ask _ (.done _)))))))

theorem wrote_replicate (h : marker.Admissible) (n : Nat) (file : List Char) :
    Wrote file (List.replicate n marker) (file ++ markerLines (List.replicate n marker)) := by
  induction n generalizing file with
  | zero =>
    simp only [List.replicate_zero,markerLines,terminated,List.map_nil,List.flatMap_nil,
      List.append_nil]
    exact .nil file
  | succ n ih =>
    have hanswered : markerWorld.Answered file (writeEvents marker)
        (file ++ marker.json.toList ++ ['\n']) :=
      .cons rfl (.cons rfl (.cons rfl (.cons rfl (.cons rfl (.cons rfl (.cons rfl (.nil _)))))))
    have hrest := ih (file ++ marker.json.toList ++ ['\n'])
    have hlines : file ++ marker.json.toList ++ ['\n'] ++ markerLines (List.replicate n marker) =
        file ++ markerLines (List.replicate (n + 1) marker) := by
      simp [markerLines,terminated,List.replicate_succ]
    rw [hlines] at hrest
    exact .cons (traces_writeEvents h) hanswered hrest

theorem size_replicate (marker : HookMarker) (n : Nat) :
    (String.ofList (markerLines (List.replicate n marker))).utf8ByteSize =
      n * (marker.json.utf8ByteSize + 1) := by
  have hnewline : (String.ofList ['\n']).utf8ByteSize = 1 := by decide
  induction n with
  | zero => simp [markerLines,terminated]
  | succ n ih =>
    rw [List.replicate_succ',markerLines_concat,String.ofList_append,String.ofList_append,
      String.utf8ByteSize_append,String.utf8ByteSize_append,ih,String.ofList_toList,hnewline,
      Nat.succ_mul,Nat.add_assoc]

namespace Sample

def firstMarker : HookMarker := ⟨"session-1","/work/session-1.jsonl","rate_limit","one"⟩

def secondMarker : HookMarker := ⟨"session-2","/work/session-2.jsonl","rate_limit","two"⟩

def recordOf (marker : HookMarker) : Json :=
  .object [("session_id",.string marker.sessionId),
    ("transcript_path",.string marker.transcriptPath),("error_type",.string marker.errorType),
    ("detail",.string marker.detail)]

@[reducible] def markerTexts : Texts where
  parseFromRfc3339 _ := none
  fromStr text := ([firstMarker,secondMarker].find? (·.json == text)).map recordOf
  toRfc3339 _ := ""

theorem firstMarker_size : firstMarker.json.utf8ByteSize = 109 := by decide +kernel

theorem firstMarker_admissible : firstMarker.Admissible :=
  ⟨by decide +kernel,by rw [firstMarker_size]; decide⟩

theorem markers_parse : @HookMarker.Parses markerTexts firstMarker ∧
    @HookMarker.Parses markerTexts secondMarker := by
  unfold HookMarker.Parses
  decide +kernel

end Sample

theorem sequential_markers_read_two :
    let _ := Sample.markerTexts
    ∃ file, Wrote [] [Sample.firstMarker,Sample.firstMarker] file ∧
      readMarkers (markerFile file) = .ok [Sample.firstMarker,Sample.firstMarker] := by
  intro _
  have hwrote := wrote_replicate Sample.firstMarker_admissible 2 []
  have hsize : (String.ofList ([] ++
      markerLines (List.replicate 2 Sample.firstMarker))).utf8ByteSize ≤ 1048576 := by
    rw [List.nil_append,size_replicate]
    have hrecord := Sample.firstMarker_admissible.2
    omega
  exact ⟨_,hwrote,(sequential_markers_read_iff hwrote fun marker hmarker => by
    rw [List.eq_of_mem_replicate hmarker]
    exact Sample.markers_parse.1).2 hsize⟩

/-- A file that hooks have filled is not read at all, however new its last marker. -/
theorem sequential_markers_unread :
    let _ := Sample.markerTexts
    ∃ markers file, Wrote [] markers file ∧ (∀ marker ∈ markers, marker.Parses) ∧
      readMarkers (markerFile file) = .error "hook marker exceeds size limit" := by
  intro _
  have hmarkers : ∀ marker ∈ List.replicate 10000 Sample.firstMarker,
      marker.Admissible ∧ marker.Parses := fun marker hmarker => by
    rw [List.eq_of_mem_replicate hmarker]
    exact ⟨Sample.firstMarker_admissible,Sample.markers_parse.1⟩
  refine ⟨_,_,wrote_replicate Sample.firstMarker_admissible 10000 [],
    fun marker hmarker => (hmarkers marker hmarker).2,?_⟩
  rw [List.nil_append,readMarkers_markerLines hmarkers,if_pos]
  rw [size_replicate,Sample.firstMarker_size]
  decide

def AtLineStart (file : List Char) : Prop := ∀ c, file.getLast? = some c → c = '\n'

/-- A record is appended where a line starts. -/
def Unbroken : Discipline markerSig HookMarker (Except String Unit) (List Char) := fun V l =>
  match l with
  | .act _ ⟨.append text,.ok ()⟩ => text = ['\n'] ∨ AtLineStart V.shared
  | _ => True

def InLine (h : List MarkerEvent) : Prop := h.countP isRecord = 1 ∧ h.countP isEnd = 0

theorem inLine_quiet (hrecord : isRecord e = false)
    (hend : isEnd e = false) : InLine (h ++ [e]) ↔ InLine h := by
  simp [InLine,hrecord,hend]

abbrev HooksReach (D : Discipline markerSig HookMarker (Except String Unit) (List Char))
    (P : Pool hookMachine (List Char)) : Prop :=
  Pool.Reachable hookMachine markerWorld D [] P

/-- The file consists of the records of the hooks that have ended their line, and of that of at
most one hook more. -/
structure Filed (P : Pool hookMachine (List Char)) (order : List HookMarker) : Prop where
  counted : ∀ marker, order.count marker = Pool.total (Pool.tally (· == marker) isEnd) P
  file : (P.shared = markerLines order ∧ ∀ t ∈ P.threads, ¬ InLine t.history) ∨
    ∃ (i : Nat) (t : Thread hookMachine), P.threads[i]? = some t ∧ InLine t.history ∧
      (∀ (j : Nat) (u : Thread hookMachine),
        P.threads[j]? = some u → InLine u.history → j = i) ∧
      P.shared = markerLines order ++ t.call.json.toList

section Steps
variable {P : Pool hookMachine (List Char)} {order : List HookMarker} {i : Nat}
  {t : Thread hookMachine} {e : MarkerEvent} {s : hookMachine.State}
  {P' : Pool hookMachine (List Char)} {l : Label markerSig HookMarker}

theorem Filed.quiet (h : Filed P order) (hs : Pool.Step markerWorld P l P')
    (hshared : P'.shared = P.shared)
    (hquiet : ∀ i e, l = .act i e → isRecord e = false ∧ isEnd e = false) : Filed P' order := by
  have hback : ∀ {j : Nat} {u : Thread hookMachine}, P'.threads[j]? = some u →
      InLine u.history → ∃ t, P.threads[j]? = some t ∧ InLine t.history := by
    intro j u hu hin
    cases hs.change hu with
    | spawned => cases hin.1
    | beside _ ht | waits ht => exact ⟨u,ht,hin⟩
    | acts ht =>
      obtain ⟨hrecord,hend⟩ := hquiet _ _ rfl
      exact ⟨_,ht,(inLine_quiet hrecord hend).1 hin⟩
    | killed _ hrestart => exact hrestart.elim
  refine ⟨fun m => ?_,?_⟩
  · rw [h.counted m]
    cases hs with
    | spawn => rw [Pool.total_tally_spawn]
    | act i t e s shared ht =>
      rw [Pool.total_tally_act ht]
      simp [(hquiet i e rfl).2]
    | crash _ hrestart => exact hrestart.elim
  rcases h.file with ⟨hfile,hnone⟩ | ⟨i,t,ht,hin,hunique,hfile⟩
  · refine .inl ⟨hshared.trans hfile,fun u hu hin => ?_⟩
    obtain ⟨j,hj⟩ := List.mem_iff_getElem?.1 hu
    obtain ⟨t,ht,hin⟩ := hback hj hin
    exact hnone t (List.mem_of_getElem? ht) hin
  · obtain ⟨u,hu,⟨rfl,-⟩ | ⟨e,s,rfl,-,rfl⟩ | ⟨rfl,-⟩⟩ := hs.keeps ht
    · refine .inr ⟨i,u,hu,hin,fun j v hv hj => ?_,hshared.trans hfile⟩
      obtain ⟨w,hw,hj⟩ := hback hv hj
      exact hunique j w hw hj
    · obtain ⟨hrecord,hend⟩ := hquiet _ _ rfl
      refine .inr ⟨i,_,hu,(inLine_quiet hrecord hend).2 hin,fun j v hv hj => ?_,
        hshared.trans hfile⟩
      obtain ⟨w,hw,hj⟩ := hback hv hj
      exact hunique j w hw hj
    · cases hs with
      | crash _ hrestart => exact hrestart.elim

theorem Filed.record (h : Filed P order) (ht : P.threads[i]? = some t)
    (hstart : AtLineStart P.shared) (hrecord : isRecord e = true) (hend : isEnd e = false)
    (hnone : t.history.countP isRecord = 0) (hnoEnd : t.history.countP isEnd = 0) :
    Filed ⟨P.shared ++ t.call.json.toList,P.threads.set i (t.advance e s)⟩ order := by
  have hlt := (List.getElem?_eq_some_iff.1 ht).1
  have hin : InLine (t.advance e s).history := by
    simp [InLine,Thread.advance,hrecord,hend,hnone,hnoEnd]
  refine ⟨fun m => by rw [Pool.total_tally_act ht,h.counted m]; simp [hend],?_⟩
  rcases h.file with ⟨hfile,hclosed⟩ | ⟨k,u,hu,-,-,hfile⟩
  · refine .inr ⟨i,t.advance e s,List.getElem?_set_self hlt,hin,fun j v hv hj => ?_,?_⟩
    · rcases Pool.getElem?_act ht hv with ⟨rfl,-⟩ | ⟨-,hv⟩
      · rfl
      · exact (hclosed v (List.mem_of_getElem? hv) hj).elim
    · change P.shared ++ t.call.json.toList = _
      rw [hfile]
      rfl
  · have hlast : P.shared.getLast? = some '\x7d' := by
      rw [hfile,List.getLast?_append,HookMarker.json,getLast?_jsonObject]
      rfl
    have hbrace := hstart _ hlast
    simp at hbrace

theorem Filed.finish (h : Filed P order) (ht : P.threads[i]? = some t) (hin : InLine t.history)
    (hend : isEnd e = true) :
    Filed ⟨P.shared ++ ['\n'],P.threads.set i (t.advance e s)⟩ (order ++ [t.call]) := by
  refine ⟨fun m => ?_,?_⟩
  · rw [Pool.total_tally_act ht,← h.counted m,List.count_append,List.count_singleton]
    simp [hend]
  · rcases h.file with ⟨-,hclosed⟩ | ⟨k,u,hu,-,hunique,hfile⟩
    · exact (hclosed t (List.mem_of_getElem? ht) hin).elim
    · obtain rfl := hunique i t ht hin
      obtain rfl : u = t := Option.some.inj (hu.symm.trans ht)
      refine .inl ⟨?_,fun v hv hv' => ?_⟩
      · change P.shared ++ ['\n'] = _
        rw [hfile,markerLines_concat]
      · obtain ⟨j,hj⟩ := List.mem_iff_getElem?.1 hv
        rcases Pool.getElem?_act ht hj with ⟨-,rfl⟩ | ⟨hne,hj⟩
        · have hended := hv'.2
          simp [Thread.advance,hend] at hended
        · exact hne (hunique j v hj hv')

end Steps

theorem HooksReach.filed {P : Pool hookMachine (List Char)} (hr : HooksReach Unbroken P) :
    ∃ order, Filed P order := by
  refine Pool.Reachable.invariant
    ⟨[],fun _ => rfl,.inl ⟨rfl,by simp⟩⟩ ?_ hr
  rintro P l P' hr ⟨order,hfiled⟩ hd hs
  have hstep := hs
  cases hs with
  | spawn => exact ⟨order,hfiled.quiet hstep rfl nofun⟩
  | crash shared hrestart => exact hrestart.elim
  | act i t e s shared ht ha hm hw =>
    obtain ⟨stage',hruns,-⟩ := hook_runs ((hr.runs_at ht).snoc hm)
    obtain ⟨stage,hstage,hwriter⟩ := hruns.snoc_inv
    have htallies := writer_tallies hstage
    cases hwriter with
    | prepares hprepares =>
      obtain ⟨op,answer⟩ := e
      cases op with
      | append | syncData => exact hprepares.elim
      | checkParent | pathExists | checkedFile | openAppend =>
        exact ⟨order,hfiled.quiet hstep hw (by rintro _ _ ⟨⟩; exact ⟨rfl,rfl⟩)⟩
    | unrecorded | unterminated | synced | unsynced =>
      exact ⟨order,hfiled.quiet hstep hw (by rintro _ _ ⟨⟩; exact ⟨rfl,rfl⟩)⟩
    | recorded =>
      obtain ⟨rfl,hnone,hnoEnd⟩ := htallies
      obtain rfl : shared = P.shared ++ t.call.json.toList := hw
      have hne := t.call.json_ne_newline
      have hstart : AtLineStart P.shared := hd.resolve_left hne
      exact ⟨order,hfiled.record ht hstart (by simp [isRecord,hne]) (by simp [isEnd,hne]) hnone
        hnoEnd⟩
    | terminated =>
      obtain ⟨rfl,-,hrecord,hend⟩ := htallies
      obtain rfl : shared = P.shared ++ ['\n'] := hw
      exact ⟨_,hfiled.finish ht ⟨hrecord,hend⟩ rfl⟩

def written (P : Pool hookMachine (List Char)) : List HookMarker :=
  (P.threads.filter fun t => t.history.any isEnd).map Thread.call

section Written
variable {D : Discipline markerSig HookMarker (Except String Unit) (List Char)}
  {P : Pool hookMachine (List Char)} {t : Thread hookMachine}

theorem HooksReach.ends (hr : HooksReach D P) (ht : t ∈ P.threads) :
    t.history.countP isEnd = 0 ∨ t.history.countP isEnd = 1 ∧ t.call.Admissible := by
  obtain ⟨stage,hstage,-⟩ := hook_runs (hr.runs t ht)
  have htallies := writer_tallies hstage
  cases stage with
  | preparing => exact .inl htallies.2.2
  | recorded => exact .inl htallies.2.2.2
  | terminated | synced => exact .inr ⟨htallies.2.2.2,htallies.2.1⟩

theorem any_isEnd : h.any isEnd = true ↔ 0 < h.countP isEnd := by
  rw [List.any_eq_true,List.countP_pos_iff]

theorem HooksReach.admissible (hr : HooksReach D P)
    (hmarker : marker ∈ written P) : marker.Admissible := by
  obtain ⟨t,ht,rfl⟩ := List.mem_map.1 hmarker
  obtain ⟨ht,hend⟩ := List.mem_filter.1 ht
  rcases hr.ends ht with hnone | ⟨-,hadmissible⟩
  · exact absurd (any_isEnd.1 hend) (by omega)
  · exact hadmissible

end Written

/-- Each marker is read back once in every run in which no record is appended within the line of
another. -/
theorem concurrent_markers_read [Texts] {P : Pool hookMachine (List Char)}
    (hr : HooksReach Unbroken P) (hended : ∀ t ∈ P.threads, ¬ InLine t.history)
    (hparses : ∀ t ∈ P.threads, t.call.Parses) (hcount : (written P).length ≤ maxMarkers)
    (hsize : (String.ofList P.shared).utf8ByteSize ≤ 1048576) :
    (∃ markers, readMarkers (markerFile P.shared) = .ok markers ∧ markers.Perm (written P)) ∧
      ∀ t ∈ P.threads, t.view.result = some (.ok ()) → t.history.any isEnd = true := by
  obtain ⟨order,hfiled⟩ := hr.filed
  have hperm : order.Perm (written P) := by
    refine List.perm_iff_count.2 fun marker => (hfiled.counted marker).trans ?_
    refine Pool.total_tally_call (fun t ht => ?_) marker
    rcases hr.ends ht with h | ⟨h,-⟩ <;> omega
  have hfile : P.shared = markerLines order := by
    rcases hfiled.file with ⟨hfile,-⟩ | ⟨i,t,ht,hin,-,-⟩
    · exact hfile
    · exact (hended t (List.mem_of_getElem? ht) hin).elim
  have hreadable : ∀ marker ∈ order, marker.Admissible ∧ marker.Parses := by
    intro marker hmarker
    have hwritten := hperm.subset hmarker
    refine ⟨hr.admissible hwritten,?_⟩
    obtain ⟨t,ht,rfl⟩ := List.mem_map.1 hwritten
    exact hparses t (List.mem_filter.1 ht).1
  refine ⟨⟨order,?_,hperm⟩,fun t ht hresult => ?_⟩
  · rw [hfile] at hsize ⊢
    rw [readMarkers_markerLines hreadable,if_neg (Nat.not_lt.2 hsize),List.rtake,
      Nat.sub_eq_zero_of_le (hperm.length_eq ▸ hcount),List.drop_zero]
  · obtain ⟨stage,hstage,hwritten⟩ := hook_runs (hr.runs t ht)
    obtain rfl := hwritten (.ok ()) hresult rfl
    obtain ⟨-,-,-,hend⟩ := writer_tallies hstage
    exact any_isEnd.2 (by omega)

def markerHost : Host markerWorld where
  answer file
    | .pathExists => (false,file)
    | .append text => (.ok (),file ++ text)
    | .checkParent | .checkedFile | .openAppend | .syncData => (.ok (),file)
  answers file op _ := by cases op <;> rfl

def unbroken (P : Pool hookMachine (List Char)) : Label markerSig HookMarker → Bool
  | .act _ ⟨.append text,_⟩ => text == ['\n'] || P.shared.getLast?.all (· == '\n')
  | _ => true

theorem unbroken_of_unbroken (P : Pool hookMachine (List Char)) (l : Label markerSig HookMarker)
    (h : unbroken P l = true) : Unbroken P.view l := by
  unfold Unbroken
  split
  · rcases Bool.or_eq_true_iff.1 h with h | h
    · exact .inl (eq_of_beq h)
    · exact .inr fun c hc => eq_of_beq ((Option.all_eq_true _ _).1 h c hc)
  · trivial

namespace Sample

def hookActs (i steps : Nat) : List (Move markerWorld HookMarker) :=
  List.replicate steps (.act i markerHost)

def noHooks : Pool hookMachine (List Char) := ⟨[],[]⟩

def oneHook : List (Move markerWorld HookMarker) := .spawn firstMarker :: hookActs 0 7

/-- The second hook comes between the record of the first one and its newline. -/
def merged : Pool hookMachine (List Char) :=
  noHooks.play (.spawn firstMarker :: .spawn secondMarker ::
    (hookActs 0 5 ++ hookActs 1 5 ++ hookActs 0 2 ++ hookActs 1 2))

end Sample

theorem concurrent_markers_read_one :
    let _ := Sample.markerTexts
    ∃ P : Pool hookMachine (List Char), HooksReach Unbroken P ∧
      written P = [Sample.firstMarker] ∧
      ∃ markers, readMarkers (markerFile P.shared) = .ok markers ∧ markers.Perm (written P) := by
  intro _
  obtain ⟨hallows,hwritten,hended,hsize⟩ :
      Sample.noHooks.allows unbroken Sample.oneHook = true ∧
      written (Sample.noHooks.play Sample.oneHook) = [Sample.firstMarker] ∧
      ((Sample.noHooks.play Sample.oneHook).threads.all fun t =>
        t.history.any isEnd && t.call == Sample.firstMarker) = true ∧
      (String.ofList (Sample.noHooks.play Sample.oneHook).shared).utf8ByteSize ≤ 1048576 := by
    decide +kernel
  have hreach : HooksReach Unbroken (Sample.noHooks.play Sample.oneHook) :=
    Pool.Reachable.init.play_at unbroken _ unbroken_of_unbroken hallows
  have hthread := fun t ht => Bool.and_eq_true_iff.1 (List.all_eq_true.1 hended t ht)
  refine ⟨_,hreach,hwritten,(concurrent_markers_read hreach (fun t ht hin => ?_)
    (fun t ht => ?_) ?_ hsize).1⟩
  · exact absurd hin.2 (any_isEnd.1 (hthread t ht).1).ne'
  · rw [eq_of_beq (hthread t ht).2]
    exact Sample.markers_parse.1
  · rw [hwritten]
    decide

/-- Both hooks return without an error, and neither of the markers is read back. -/
theorem concurrent_markers_merge :
    let _ := Sample.markerTexts
    ∃ P : Pool hookMachine (List Char), HooksReach (fun _ _ => True) P ∧
      written P = [Sample.firstMarker,Sample.secondMarker] ∧
      (∀ t ∈ P.threads, t.call.Parses ∧ t.view.result = some (.ok ())) ∧
      (String.ofList P.shared).utf8ByteSize ≤ 1048576 ∧
      readMarkers (markerFile P.shared) = .ok [] := by
  intro _
  obtain ⟨hwritten,hreturned,hread⟩ :
      written Sample.merged = [Sample.firstMarker,Sample.secondMarker] ∧
      (Sample.merged.threads.all fun t => t.call == Sample.firstMarker && decide (t.view.result =
        some (.ok ())) || t.call == Sample.secondMarker && decide (t.view.result =
          some (.ok ()))) = true ∧
      (String.ofList Sample.merged.shared).utf8ByteSize ≤ 1048576 ∧
      readMarkers (markerFile Sample.merged.shared) = .ok [] := by
    decide +kernel
  refine ⟨_,Pool.Reachable.init.play _ fun _ _ _ => trivial,hwritten,fun t ht => ?_,hread⟩
  have hthread := List.all_eq_true.1 hreturned t ht
  simp only [Bool.or_eq_true,Bool.and_eq_true,beq_iff_eq,decide_eq_true_iff] at hthread
  rcases hthread with ⟨hcall,hresult⟩ | ⟨hcall,hresult⟩
  · exact ⟨hcall ▸ Sample.markers_parse.1,hresult⟩
  · exact ⟨hcall ▸ Sample.markers_parse.2,hresult⟩

end WatchMe
