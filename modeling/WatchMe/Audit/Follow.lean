import WatchMe.Audit.Retention

/-! # Reading the log as it is written

A reader that follows the log takes the events of the next bytes and goes on where these end. It
misses the event in whose line they end. A retention with the file for itself leaves the longest
end of the events that fits.
-/
namespace WatchMe
open Effects Program Text

section Follow
variable [AuditText]

def followed (watcherId : Option String) (line : List Char) : Option AuditEvent :=
  if trim (.ofList line) = "" then none
  else ((AuditText.eventOfStr (.ofList line)).map AuditEvent.redact).filter fun event =>
    watcherId.all fun id => event.watcherId == some id

def followFrom (file : List UInt8) (offset : Nat) (watcherId : Option String) (maxBytes : Nat) :
    List AuditEvent × Nat :=
  let start := min offset file.length
  let buf := ((file.drop start).take (maxBytes + 1)).take maxBytes
  ((textLines (lossy buf)).filterMap (followed watcherId),start + buf.length)

omit [AuditText] in
theorem lossy_linesOf (events : List AuditEvent) :
    lossy (linesOf events) = terminated '\n' (events.map fun event => event.json.toList) := by
  rw [← lossy_encodeUtf8 (terminated '\n' _)]
  refine congrArg lossy ?_
  induction events with
  | nil => rfl
  | cons event events ih =>
    rw [linesOf_cons,ih]
    simp [terminated,AuditEvent.line,encodeUtf8,String.utf8EncodeChar]

def shown (watcherId : Option String) (events : List AuditEvent) : List AuditEvent :=
  (events.map AuditEvent.redact).filter fun event => watcherId.all fun id =>
    event.watcherId == some id

theorem followed_linesOf (watcherId : Option String) {events : List AuditEvent}
    (h : ∀ event ∈ events, AuditText.eventOfStr event.json = some event) :
    (textLines (lossy (linesOf events))).filterMap (followed watcherId) =
      shown watcherId events := by
  have hlines : ∀ line ∈ events.map fun event => event.json.toList, SingleLine '\n' '\r' line := by
    intro line hline
    obtain ⟨event,-,rfl⟩ := List.mem_map.1 hline
    exact event.json_singleLine
  rw [lossy_linesOf,textLines_terminated hlines]
  clear hlines
  induction events with
  | nil => rfl
  | cons event events ih =>
    obtain ⟨hevent,hevents⟩ := List.forall_mem_cons.1 h
    have hfirst : followed watcherId event.json.toList = (some event.redact).filter fun event =>
        watcherId.all fun id => event.watcherId == some id := by
      rw [followed,String.ofList_toList,if_neg event.trim_json,hevent,Option.map_some]
    rw [List.map_cons,List.filterMap_cons,hfirst,ih hevents,shown,shown,List.map_cons,
      List.filter_cons]
    by_cases hshown : (watcherId.all fun id => event.redact.watcherId == some id) = true
    · simp [Option.filter,hshown]
    · simp [Option.filter,hshown]

inductive FollowAct where
  | write (bytes : List UInt8)
  | follow

structure FollowRun where
  file : List UInt8
  offset : Nat
  returned : List AuditEvent

def FollowRun.step (watcherId : Option String) (maxBytes : Nat) (s : FollowRun) :
    FollowAct → FollowRun
  | .write bytes => { s with file := s.file ++ bytes }
  | .follow =>
    let read := followFrom s.file s.offset watcherId maxBytes
    { s with offset := read.2, returned := s.returned ++ read.1 }

def FollowRun.run (watcherId : Option String) (maxBytes : Nat) (acts : List FollowAct) :
    FollowRun :=
  acts.foldl (step watcherId maxBytes) ⟨[],0,[]⟩

def AtLineEnd (events : List AuditEvent) (offset : Nat) : Prop :=
  ∃ done, done <+: events ∧ offset = (linesOf done).length

structure Follows (watcherId : Option String) (events : List AuditEvent) (s : FollowRun) :
    Prop where
  offset : s.offset ≤ s.file.length
  read : ∃ done, done <+: events ∧ s.offset = (linesOf done).length ∧
    s.returned = shown watcherId done

variable {watcherId : Option String} {maxBytes : Nat} {events : List AuditEvent} {s : FollowRun}

omit [AuditText] in
theorem linesOf_append (events events' : List AuditEvent) :
    linesOf (events ++ events') = linesOf events ++ linesOf events' :=
  List.flatMap_append

omit [AuditText] in
theorem take_eq_linesOf {file : List UInt8} {done : List AuditEvent} {n : Nat}
    (hfile : file <+: linesOf events) (hdone : done <+: events) (hn : n = (linesOf done).length)
    (hle : n ≤ file.length) : file.take n = linesOf done := by
  obtain ⟨rest,rfl⟩ := hdone
  rw [List.prefix_iff_eq_take.1 hfile,List.take_take,Nat.min_eq_left hle,linesOf_append,hn,
    List.take_left]

theorem Follows.follow (h : Follows watcherId events s) (hfile : s.file <+: linesOf events)
    (hevents : ∀ event ∈ events, AuditText.eventOfStr event.json = some event)
    (hend : AtLineEnd events (s.step watcherId maxBytes .follow).offset) :
    Follows watcherId events (s.step watcherId maxBytes .follow) := by
  obtain ⟨hoffset,done,hdone,hstart,hreturned⟩ := h
  obtain ⟨done',hdone',hnext⟩ := hend
  generalize hbuf : (s.file.drop s.offset).take maxBytes = buf
  have hread : s.step watcherId maxBytes .follow = { s with
      offset := s.offset + buf.length,
      returned := s.returned ++ (textLines (lossy buf)).filterMap (followed watcherId) } := by
    simp [FollowRun.step,followFrom,Nat.min_eq_left hoffset,← hbuf,List.take_take]
  have hle : s.offset + buf.length ≤ s.file.length := by
    rw [← hbuf,List.length_take,List.length_drop]
    omega
  rw [hread] at hnext ⊢
  -- what was read so far are whole lines, and the same with the window
  have hlines : linesOf done' = linesOf done ++ buf := by
    rw [← take_eq_linesOf hfile hdone' hnext hle,← take_eq_linesOf hfile hdone hstart hoffset,
      List.take_add,← hbuf,List.take_eq_take_min,List.length_take]
    simp
  rcases List.prefix_or_prefix_of_prefix hdone hdone' with ⟨mid,rfl⟩ | hback
  · rw [linesOf_append,List.append_cancel_left_eq] at hlines
    refine ⟨hle,_,hdone',hnext,?_⟩
    dsimp only
    rw [hreturned,← hlines,followed_linesOf _ fun event hevent =>
      hevents event (hdone'.subset (List.mem_append_right _ hevent))]
    simp [shown]
  · obtain ⟨mid,rfl⟩ := hback
    have hshort := congrArg List.length hlines
    rw [linesOf_append,List.length_append,List.length_append] at hshort
    obtain rfl : buf = [] := List.length_eq_zero_iff.1 (by omega)
    exact ⟨hle,_,hdone,hstart,by simpa [lossy,scan,textLines] using hreturned⟩

theorem follow_snoc (watcherId : Option String) (maxBytes : Nat) (acts : List FollowAct)
    (act : FollowAct) : FollowRun.run watcherId maxBytes (acts ++ [act]) =
      (FollowRun.run watcherId maxBytes acts).step watcherId maxBytes act := by
  rw [FollowRun.run,List.foldl_append]
  rfl

theorem follows_run {acts : List FollowAct}
    (hevents : ∀ event ∈ events, AuditText.eventOfStr event.json = some event)
    (hfile : (FollowRun.run watcherId maxBytes acts).file <+: linesOf events)
    (hwindows : ∀ before after, acts = before ++ .follow :: after →
      AtLineEnd events (FollowRun.run watcherId maxBytes (before ++ [.follow])).offset) :
    Follows watcherId events (FollowRun.run watcherId maxBytes acts) := by
  induction acts using List.reverseRecOn with
  | nil => exact ⟨Nat.zero_le _,[],List.nil_prefix,rfl,rfl⟩
  | append_singleton acts act ih =>
    have hstart (before after) (heq : acts = before ++ .follow :: after) :=
      hwindows before (after ++ [act]) (by simp [heq])
    rw [follow_snoc] at hfile ⊢
    cases act with
    | write =>
      obtain ⟨hoffset,hread⟩ := ih ((List.prefix_append _ _).trans hfile) hstart
      refine ⟨?_,hread⟩
      rw [FollowRun.step,List.length_append]
      exact Nat.le_add_right_of_le hoffset
    | follow =>
      refine (ih hfile hstart).follow hfile hevents ?_
      rw [← follow_snoc]
      exact hwindows acts [] rfl

theorem follow_complete (watcherId : Option String) (maxBytes : Nat) {events : List AuditEvent}
    {acts : List FollowAct}
    (hevents : ∀ event ∈ events, AuditText.eventOfStr event.json = some event)
    (hfile : (FollowRun.run watcherId maxBytes acts).file = linesOf events)
    (hwindows : ∀ before after, acts = before ++ .follow :: after →
      AtLineEnd events (FollowRun.run watcherId maxBytes (before ++ [.follow])).offset)
    (hend : (FollowRun.run watcherId maxBytes acts).offset = (linesOf events).length) :
    (FollowRun.run watcherId maxBytes acts).returned = shown watcherId events := by
  obtain ⟨-,done,⟨rest,rfl⟩,hoffset,hreturned⟩ :=
    follows_run hevents (hfile ▸ List.prefix_rfl) hwindows
  rw [hoffset,linesOf_append,List.length_append,Nat.left_eq_add,List.length_eq_zero_iff,
    linesOf_eq_nil] at hend
  rw [hreturned,hend,List.append_nil]

end Follow

attribute [local instance] Sample.auditText

theorem Sample.followed :
    let whole := FollowRun.run none 1000 [.write auditEvent.line,.follow]
    let cut := FollowRun.run none 1000 [.write (auditEvent.line.take 5),.follow,
      .write (auditEvent.line.drop 5),.follow]
    (whole.file = linesOf [auditEvent] ∧ whole.offset = (linesOf [auditEvent]).length) ∧
      cut.file = linesOf [auditEvent] ∧ cut.offset = (linesOf [auditEvent]).length ∧
      cut.returned = [] := by
  decide +kernel

theorem follow_complete_whole :
    (FollowRun.run none 1000 [.write Sample.auditEvent.line,.follow]).returned =
      [Sample.auditEvent] := by
  have hrun := Sample.followed.1
  refine follow_complete none 1000 (List.forall_mem_singleton.2 (if_pos rfl)) hrun.1
    (fun before after heq => ?_) hrun.2
  match before, heq with
  | [_], rfl => exact ⟨_,List.prefix_rfl,hrun.2⟩
  | _ :: _ :: _, heq => simp at heq

/-- A call reads the first five bytes of a line, and the next one the rest. -/
theorem follow_misses :
    let acts : List FollowAct := [.write (Sample.auditEvent.line.take 5),.follow,
      .write (Sample.auditEvent.line.drop 5),.follow]
    (FollowRun.run none 1000 acts).file = linesOf [Sample.auditEvent] ∧
      (FollowRun.run none 1000 acts).offset = (linesOf [Sample.auditEvent]).length ∧
      (FollowRun.run none 1000 acts).returned = [] :=
  Sample.followed.2

section Retention
variable [AuditText]

def WellFormed (bytes : List UInt8) (events : List AuditEvent) : Prop :=
  List.Forall₂ (fun line event => ∃ text, fromUtf8 line = .ok text ∧ trim (.ofList text) ≠ "" ∧
    AuditText.eventOfStr (.ofList text) = some event) (bufLines 10 13 bytes) events

theorem WellFormed.readAll {bytes : List UInt8} {events : List AuditEvent}
    (h : WellFormed bytes events) : readAll bytes = .ok (events.map AuditEvent.redact) := by
  unfold WatchMe.readAll
  unfold WellFormed at h
  generalize bufLines 10 13 bytes = lines at h
  induction h with
  | nil => rfl
  | @cons line event lines events hline _ ih =>
    obtain ⟨text,htext,hblank,hevent⟩ := hline
    obtain ⟨texts,htexts,hread⟩ := bind_ok_iff.1 ih
    have hcons : ((line :: lines).mapM fun line => (fromUtf8 line).mapError fun _ =>
        "stream did not contain valid UTF-8") = .ok (text :: texts) := by
      rw [List.mapM_cons,htext,htexts]
      rfl
    rw [hcons]
    have hrest := Except.ok.inj hread
    refine congrArg Except.ok ?_
    rw [List.filterMap_cons,if_neg hblank,hevent,hrest]
    rfl

/-- An operation that did not fail. A failure to set the permissions is passed over. -/
def Succeeds : LogEvent → Prop
  | ⟨.read,.error _⟩ | ⟨.openTruncate,.error _⟩ | ⟨.write _ _,.error _⟩ => False
  | _ => True

omit [AuditText] in
theorem writeFrom_ensures (rest : List AuditEvent) (s : AuditFile) :
    auditWorld.Ensures (AuditLog.writeFrom s.bytes.length rest).run s fun h s' r =>
      (∀ e ∈ h, Succeeds e) → r = .ok () ∧ s'.bytes = s.bytes ++ linesOf rest := by
  induction rest generalizing s with
  | nil => exact World.ensures_done.2 fun _ => ⟨rfl,(List.append_nil _).symm⟩
  | cons event rest ih =>
    refine World.ensures_run_bind.2 (World.ensures_ask.2 fun r s' hw => World.ensures_done.2 ?_)
    cases r with
    | error => exact fun hall => (hall _ List.mem_cons_self).elim
    | ok =>
      obtain rfl : s' = ⟨s.bytes ++ event.line,s.journal⟩ := by
        rw [← writeAt_length]
        exact hw
      have hnext := ih ⟨s.bytes ++ event.line,s.journal⟩
      rw [List.length_append] at hnext
      refine hnext.mono fun h s' r hrest hall => ?_
      rw [linesOf_cons,← List.append_assoc]
      exact hrest fun e he => hall e (List.mem_append_right _ he)

theorem rewrite_ensures (policy : RetentionPolicy) (time : Int) {s : AuditFile}
    {events : List AuditEvent} (hfile : WellFormed s.bytes events) :
    auditWorld.Ensures (do
      let events ← AuditLog.load
      ExceptT.mk (AuditLog.call .openTruncate)
      let _ ← ExceptT.lift (AuditLog.call .setPermissions)
      AuditLog.writeFrom 0 (policy.kept time events)).run s fun h s' r =>
        (∀ e ∈ h, Succeeds e) → r = .ok () ∧
          s'.bytes = linesOf (policy.kept time (events.map AuditEvent.redact)) := by
  have hload : auditWorld.Ensures AuditLog.load.run s fun h s' r => (∀ e ∈ h, Succeeds e) →
      r = .ok (events.map AuditEvent.redact) := by
    refine World.ensures_run_bind.2 (World.ensures_ask.2 fun found s' hw =>
      World.ensures_done.2 ?_)
    obtain ⟨rfl,habsent⟩ := hw
    cases found with
    | false =>
      refine World.ensures_done.2 fun _ => ?_
      rw [habsent rfl] at hfile
      cases hfile
      rfl
    | true =>
      refine World.ensures_run_bind.2 (World.ensures_ask.2 fun r s' hw => World.ensures_done.2 ?_)
      cases r with
      | error error => exact fun hall => (hall ⟨.read,.error error⟩ (by simp)).elim
      | ok =>
        obtain ⟨rfl,rfl⟩ := hw
        exact World.ensures_done.2 fun _ => hfile.readAll
  refine World.ensures_run_bind.2 (hload.mono fun h s' r hr => ?_)
  cases r with
  | error => exact fun hall => nomatch hr hall
  | ok found =>
    refine World.ensures_run_bind.2 (World.ensures_ask.2 fun r t hw => World.ensures_done.2 ?_)
    cases r with
    | error error => exact fun hall => (hall ⟨.openTruncate,.error error⟩ (by simp)).elim
    | ok =>
      obtain rfl : t = ⟨[],s'.journal⟩ := hw
      refine World.ensures_run_bind.2 (World.ensures_ask.2 fun r t hw => World.ensures_done.2 ?_)
      obtain rfl : t = ⟨[],s'.journal⟩ := hw
      refine (writeFrom_ensures _ ⟨[],s'.journal⟩).mono fun k t r hrest hall => ?_
      have hfound : found = _ := Except.ok.inj (hr fun e he => hall e (List.mem_append_left _ he))
      rw [hfound] at hrest
      exact hrest fun e he => hall e (by simp [he])

theorem retention_keeps_suffix (policy : RetentionPolicy) (now : String) {s : AuditFile}
    {events : List AuditEvent} (hfile : WellFormed s.bytes events) :
    auditWorld.Ensures (AuditLog.applyRetention policy now).run s fun h s' r =>
      (∀ e ∈ h, Succeeds e) → r = .ok () ∧ ∃ time kept, Resolves now h time ∧
        s'.bytes = linesOf kept ∧ Logs.Longest AuditEvent.encodedSize policy.maxLogBytes
          ((events.filter (policy.rule time).keep).map fun event => event.redact.redact) kept := by
  have hkept (time : Int) : Logs.Longest AuditEvent.encodedSize policy.maxLogBytes
      ((events.filter (policy.rule time).keep).map fun event => event.redact.redact)
      (policy.kept time (events.map AuditEvent.redact)) := by
    have hlog : ((events.map AuditEvent.redact).filter (policy.rule time).keep).map
        AuditEvent.redact =
        (events.filter (policy.rule time).keep).map fun event => event.redact.redact := by
      rw [List.filter_map,List.map_map]
      rfl
    rw [← hlog]
    exact Logs.dropOldest_longest _ _
  unfold AuditLog.applyRetention AuditLog.timeOf
  cases htime : systemTimeOf now with
  | some time =>
    refine (rewrite_ensures policy time hfile).mono fun h s' r hr hall => ?_
    obtain ⟨rfl,hbytes⟩ := hr hall
    exact ⟨rfl,time,_,.inl htime,hbytes,hkept time⟩
  | none =>
    refine World.ensures_run_bind.2 (World.ensures_ask.2 fun time s' hw => World.ensures_done.2 ?_)
    obtain rfl : s' = s := hw
    refine (rewrite_ensures policy time hfile).mono fun h s' r hr hall => ?_
    obtain ⟨rfl,hbytes⟩ := hr fun e he => hall e (List.mem_append_right _ he)
    exact ⟨rfl,time,_,.inr ⟨htime,by simp⟩,hbytes,hkept time⟩

instance (e : LogEvent) : Decidable (Succeeds e) := by
  unfold Succeeds
  split <;> infer_instance

end Retention

def Sample.retained : List LogEvent × AuditFile × Except String Unit :=
  auditHost.carry (AuditLog.applyRetention Sample.retentionPolicy "2026-01-01T00:00:00Z").run
    ⟨Sample.auditEvent.line,[]⟩

theorem retention_keeps_suffix_one :
    Sample.retained.2.2 = .ok () ∧ ∃ time kept,
      Resolves "2026-01-01T00:00:00Z" Sample.retained.1 time ∧
        Sample.retained.2.1.bytes = linesOf kept ∧
        Logs.Longest AuditEvent.encodedSize Sample.retentionPolicy.maxLogBytes
          (([Sample.auditEvent].filter (Sample.retentionPolicy.rule time).keep).map fun event =>
            event.redact.redact) kept := by
  have hlines : bufLines 10 13 Sample.auditEvent.line =
      [encodeUtf8 Sample.auditEvent.json.toList] := by decide +kernel
  have hfile : WellFormed Sample.auditEvent.line [Sample.auditEvent] := by
    rw [WellFormed,hlines]
    refine .cons ⟨_,fromUtf8_encodeUtf8 _,?_⟩ .nil
    rw [String.ofList_toList]
    exact ⟨Sample.auditEvent.trim_json,if_pos rfl⟩
  have hall : Sample.retained.1.all fun e => decide (Succeeds e) := by decide +kernel
  have hkept := retention_keeps_suffix (s := ⟨Sample.auditEvent.line,[]⟩) Sample.retentionPolicy
    "2026-01-01T00:00:00Z" hfile
  have htraces := auditHost.carry_traces
    (AuditLog.applyRetention Sample.retentionPolicy "2026-01-01T00:00:00Z").run
    ⟨Sample.auditEvent.line,[]⟩
  have hanswered := auditHost.carry_answered (fun _ _ => rfl)
    (AuditLog.applyRetention Sample.retentionPolicy "2026-01-01T00:00:00Z").run
    ⟨Sample.auditEvent.line,[]⟩
  unfold Sample.retained at hall ⊢
  generalize auditHost.carry _ _ = run at hall htraces hanswered ⊢
  exact hkept run.1 run.2.1 run.2.2 htraces hanswered (by simpa using hall)

end WatchMe
