import WatchMe.Audit.Log

/-! # The stages of appends and retentions

The log as it is read back from its lines, and the automaton that appends and retentions go
through: what each stage tells of the call and of what it has done.
-/
namespace WatchMe
open Effects Program Text

def linesOf (events : List AuditEvent) : List UInt8 := events.flatMap AuditEvent.line

theorem linesOf_cons (event : AuditEvent) (events : List AuditEvent) :
    linesOf (event :: events) = event.line ++ linesOf events :=
  List.flatMap_cons

theorem linesOf_eq_nil {events : List AuditEvent} : linesOf events = [] ↔ events = [] := by
  cases events with
  | nil => simp [linesOf]
  | cons => simp [linesOf,AuditEvent.line]

theorem trim_ne_empty {text : String} {c : Char} (hc : c ∈ text.toList)
    (h : isWhiteSpace c = false) : trim text ≠ "" := by
  intro hempty
  have hchars := congrArg String.toList hempty
  simp only [trim,String.toList_ofList,String.toList_empty,List.reverse_eq_nil_iff,
    List.dropWhile_eq_nil_iff,List.mem_reverse] at hchars
  rw [← List.takeWhile_append_dropWhile (p := isWhiteSpace) (l := text.toList)] at hc
  rcases List.mem_append.1 hc with hc | hc
  · exact absurd (List.mem_takeWhile_imp hc) (by simp [h])
  · exact absurd (hchars c hc) (by simp [h])

namespace AuditEvent

theorem trim_json (event : AuditEvent) : trim event.json ≠ "" := by
  refine trim_ne_empty (c := '\x7d') (List.mem_of_getLast? ?_) rfl
  exact getLast?_jsonObject _

theorem mem_optionalField {key : String} {value : Option String} {field : String × String}
    (h : field ∈ optionalField key value) : ∃ text, field.2 = jsonString text := by
  obtain ⟨text,-,rfl⟩ := List.mem_map.1 h
  exact ⟨text,rfl⟩

theorem json_singleLine (event : AuditEvent) : SingleLine '\n' '\r' event.json.toList := by
  refine ⟨newline_not_mem_jsonObject fun field hfield => ?_,?_⟩
  · have htext : ∃ text, field.2 = jsonString text := by
      simp only [List.mem_append,List.mem_cons,List.not_mem_nil,or_false] at hfield
      rcases hfield with
        ((((((((((rfl | rfl) | h) | rfl) | h) | h) | h) | h) | h) | h) | rfl) <;>
        first | exact ⟨_,rfl⟩ | exact mem_optionalField h
    obtain ⟨text,htext⟩ := htext
    rw [htext]
    exact newline_not_mem_jsonString text
  · rw [json,getLast?_jsonObject]
    decide

end AuditEvent

section Reading
variable [AuditText]

/-- Every redaction of the event is parsed from its own line. -/
def AuditEvent.Readable (event : AuditEvent) : Prop :=
  ∀ event', Logs.Rewritten AuditEvent.redact event event' →
    AuditText.eventOfStr event'.json = some event'

theorem readAll_linesOf {events : List AuditEvent}
    (h : ∀ event ∈ events, AuditText.eventOfStr event.json = some event) :
    readAll (linesOf events) = .ok (events.map AuditEvent.redact) := by
  have hlines : bufLines 10 13 (linesOf events) =
      events.map fun event => encodeUtf8 event.json.toList := by
    have hterminated : linesOf events =
        terminated 10 (events.map fun event => encodeUtf8 event.json.toList) := by
      simp only [linesOf,terminated,List.flatMap_map]
      rfl
    rw [hterminated]
    refine bufLines_terminated fun line hline => ?_
    obtain ⟨event,-,rfl⟩ := List.mem_map.1 hline
    exact singleLine_encodeUtf8 event.json_singleLine
  have hdecoded : ((events.map fun event => encodeUtf8 event.json.toList).mapM fun line =>
      (fromUtf8 line).mapError fun _ => "stream did not contain valid UTF-8") =
      .ok (events.map fun event => event.json.toList) := by
    simp only [List.mapM_map,Function.comp_def,fromUtf8_encodeUtf8]
    exact List.mapM_pure
  rw [readAll,hlines,hdecoded]
  change Except.ok (List.filterMap _ (events.map fun event => event.json.toList)) = _
  rw [List.filterMap_map,← List.filterMap_eq_map]
  refine congrArg Except.ok (List.filterMap_congr fun event hevent => ?_)
  simp only [Function.comp_apply,String.ofList_toList,if_neg event.trim_json,h event hevent,
    Option.map_some]

end Reading

inductive AuditStage where
  | opening (event : AuditEvent)
  | restricting (event : AuditEvent)
  | appending (event : AuditEvent)
  | waiting (policy : RetentionPolicy)
  | locating (policy : RetentionPolicy) (now : Int)
  | reading (policy : RetentionPolicy) (now : Int)
  | found (policy : RetentionPolicy) (now : Int) (events : List AuditEvent)
  | truncated (rest : List AuditEvent)
  | writing (offset : Nat) (event : AuditEvent) (rest : List AuditEvent)
  | returned (result : Except String Unit)

namespace AuditStage

def writingFrom (offset : Nat) : List AuditEvent → AuditStage
  | [] => returned (.ok ())
  | event :: rest => writing offset event rest

def startAt (policy : RetentionPolicy) : Option Int → AuditStage
  | some time => locating policy time
  | none => waiting policy

variable [AuditText]

def start : AuditCall → AuditStage
  | .append event => opening event.redact
  | .applyRetention policy now => startAt policy (systemTimeOf now)

inductive Step : AuditStage → LogEvent → AuditStage → Prop
  | opens {event : AuditEvent} : Step (opening event) ⟨.openAppend,.ok ()⟩ (restricting event)
  | unopened {event : AuditEvent} {error : String} :
      Step (opening event) ⟨.openAppend,.error error⟩ (returned (.error error))
  | restricts {event : AuditEvent} (r : Except String Unit) :
      Step (restricting event) ⟨.setPermissions,r⟩ (appending event)
  | appends {event : AuditEvent} : Step (appending event) ⟨.append event,.ok ()⟩ (returned (.ok ()))
  | unappended {event : AuditEvent} {error : String} :
      Step (appending event) ⟨.append event,.error error⟩ (returned (.error error))
  | clock {policy : RetentionPolicy} {now : Int} :
      Step (waiting policy) ⟨.systemTime,now⟩ (locating policy now)
  | absent {policy : RetentionPolicy} {now : Int} :
      Step (locating policy now) ⟨.pathExists,false⟩ (found policy now [])
  | present {policy : RetentionPolicy} {now : Int} :
      Step (locating policy now) ⟨.pathExists,true⟩ (reading policy now)
  | reads {policy : RetentionPolicy} {now : Int} {bytes : List UInt8} {events : List AuditEvent} :
      readAll bytes = .ok events →
      Step (reading policy now) ⟨.read,.ok bytes⟩ (found policy now events)
  | unreadable {policy : RetentionPolicy} {now : Int} {bytes : List UInt8} {error : String} :
      Step (reading policy now) ⟨.read,.ok bytes⟩ (returned (.error error))
  | unread {policy : RetentionPolicy} {now : Int} {error : String} :
      Step (reading policy now) ⟨.read,.error error⟩ (returned (.error error))
  | truncates {policy : RetentionPolicy} {now : Int} {events : List AuditEvent} :
      Step (found policy now events) ⟨.openTruncate,.ok ()⟩ (truncated (policy.kept now events))
  | untruncated {policy : RetentionPolicy} {now : Int} {events : List AuditEvent}
      {error : String} :
      Step (found policy now events) ⟨.openTruncate,.error error⟩ (returned (.error error))
  | begins {rest : List AuditEvent} (r : Except String Unit) :
      Step (truncated rest) ⟨.setPermissions,r⟩ (writingFrom 0 rest)
  | writes {offset : Nat} {event : AuditEvent} {rest : List AuditEvent} :
      Step (writing offset event rest) ⟨.write offset event,.ok ()⟩
        (writingFrom (offset + event.line.length) rest)
  | unwritten {offset : Nat} {event : AuditEvent} {rest : List AuditEvent} {error : String} :
      Step (writing offset event rest) ⟨.write offset event,.error error⟩
        (returned (.error error))

end AuditStage

def stagedLog [AuditText] : Machine auditSig AuditCall (Except String Unit) where
  State := AuditStage
  start := AuditStage.start
  Step := AuditStage.Step
  result
    | .returned result => some result
    | _ => none

namespace AuditLog
variable [AuditText]

def Told (s : AuditStage) (result : Except String Unit) : Prop := s = .returned result

theorem append_conforms (event : AuditEvent) :
    Conforms stagedLog Told (append event).run (AuditStage.opening event.redact) := by
  refine ⟨rfl,fun r => ?_⟩
  cases r with
  | error => exact ⟨_,AuditStage.Step.unopened,rfl⟩
  | ok u =>
    refine ⟨_,AuditStage.Step.opens,rfl,fun r => ⟨_,AuditStage.Step.restricts r,rfl,fun r => ?_⟩⟩
    cases r with
    | error => exact ⟨_,AuditStage.Step.unappended,rfl⟩
    | ok => exact ⟨_,AuditStage.Step.appends,rfl⟩

theorem writeFrom_conforms (offset : Nat) (rest : List AuditEvent) :
    Conforms stagedLog Told (writeFrom offset rest).run (AuditStage.writingFrom offset rest) := by
  induction rest generalizing offset with
  | nil => exact rfl
  | cons event rest ih =>
    refine ⟨rfl,fun r => ?_⟩
    cases r with
    | error => exact ⟨_,AuditStage.Step.unwritten,rfl⟩
    | ok => exact ⟨_,AuditStage.Step.writes,ih _⟩

theorem load_conforms {policy : RetentionPolicy} {now : Int}
    {f : List AuditEvent → ExceptT String (Program auditSig) Unit}
    (hf : ∀ events, Conforms stagedLog Told (f events).run (AuditStage.found policy now events)) :
    Conforms stagedLog Told (load >>= f).run (AuditStage.locating policy now) := by
  refine conforms_run_bind.2 ⟨rfl,fun found => ?_⟩
  cases found with
  | false => exact ⟨_,AuditStage.Step.absent,hf []⟩
  | true =>
    refine ⟨_,AuditStage.Step.present,rfl,fun r => ?_⟩
    cases r with
    | error => exact ⟨_,AuditStage.Step.unread,rfl⟩
    | ok bytes =>
      have hsequel : ∀ s, Sequel Told f s (readAll bytes) →
          Conforms stagedLog (Sequel Told f) (.done (readAll bytes)) s := fun _ h => h
      cases hread : readAll bytes with
      | error error =>
        refine ⟨AuditStage.returned (.error error),AuditStage.Step.unreadable,hsequel _ ?_⟩
        rw [hread]
        exact rfl
      | ok events =>
        refine ⟨AuditStage.found policy now events,AuditStage.Step.reads hread,hsequel _ ?_⟩
        rw [hread]
        exact hf events

theorem rewrite_conforms (policy : RetentionPolicy) (now : Int) :
    Conforms stagedLog Told (do
      let events ← load
      ExceptT.mk (call .openTruncate)
      let _ ← ExceptT.lift (call .setPermissions)
      writeFrom 0 (policy.kept now events)).run (AuditStage.locating policy now) := by
  refine load_conforms fun events => ⟨rfl,fun r => ?_⟩
  cases r with
  | error => exact ⟨_,AuditStage.Step.untruncated,rfl⟩
  | ok =>
    exact ⟨_,AuditStage.Step.truncates,rfl,fun r => ⟨_,AuditStage.Step.begins r,
      writeFrom_conforms 0 _⟩⟩

theorem operation_conforms (c : AuditCall) :
    Conforms stagedLog Told (operation c).run (AuditStage.start c) := by
  cases c with
  | append event => exact append_conforms event
  | applyRetention policy now =>
    change Conforms stagedLog Told (timeOf now >>= _).run
      (AuditStage.startAt policy (systemTimeOf now))
    unfold timeOf
    cases systemTimeOf now with
    | some time => exact rewrite_conforms policy time
    | none => exact ⟨rfl,fun time => ⟨_,AuditStage.Step.clock,rewrite_conforms policy time⟩⟩

theorem main_conforms (c : AuditCall) :
    Conforms stagedLog (LoopPost fun _ i => Empty.elim i) (main c) (stagedLog.start c) :=
  conforms_bind.2 ((operation_conforms c).mono fun s result (htold : s = _) => by
    subst htold
    exact rfl)

end AuditLog

theorem stagedLog_simulates [AuditText] : ∃ R, Machine.Simulates auditMachine stagedLog R :=
  ⟨_,Conforms.simulates (fun _ i => i.elim) AuditLog.main_conforms⟩

section Runs
variable [AuditText]
variable {h : List LogEvent} {c : AuditCall}

def Resolves (text : String) (h : List LogEvent) (now : Int) : Prop :=
  systemTimeOf text = some now ∨ systemTimeOf text = none ∧ ⟨.systemTime,now⟩ ∈ h

theorem Resolves.append {text : String} {now : Int} (hnow : Resolves text h now)
    (k : List LogEvent) : Resolves text (h ++ k) now :=
  hnow.imp id fun hclock => ⟨hclock.1,List.mem_append_left _ hclock.2⟩

def hasRead : LogEvent → Bool
  | ⟨.read,.ok _⟩ => true
  | ⟨.pathExists,found⟩ => !found
  | _ => false

def AuditStage.Tells (c : AuditCall) (h : List LogEvent) : AuditStage → Prop
  | opening event | restricting event | appending event =>
    ∃ given, c = .append given ∧ event = given.redact
  | waiting policy => ∃ text, c = .applyRetention policy text ∧ systemTimeOf text = none
  | locating policy now | reading policy now =>
    ∃ text, c = .applyRetention policy text ∧ Resolves text h now
  | found policy now _ =>
    (∃ text, c = .applyRetention policy text ∧ Resolves text h now) ∧ h.any hasRead = true
  | truncated _ | writing _ _ _ =>
    (∃ policy text, c = .applyRetention policy text) ∧ h.any hasRead = true
  | returned _ => True

theorem AuditStage.tells_writingFrom
    (hc : (∃ policy text, c = .applyRetention policy text) ∧ h.any hasRead = true) (offset : Nat)
    (rest : List AuditEvent) : (writingFrom offset rest).Tells c h := by
  cases rest with
  | nil => trivial
  | cons => exact hc

theorem AuditStage.Tells.step {s s' : AuditStage} {e : LogEvent} (ht : s.Tells c h)
    (hs : Step s e s') : s'.Tells c (h ++ [e]) := by
  have hany : ∀ e : LogEvent, h.any hasRead = true → (h ++ [e]).any hasRead = true :=
    fun e hread => by rw [List.any_append,hread,Bool.true_or]
  have hnew : ∀ e : LogEvent, hasRead e = true → (h ++ [e]).any hasRead = true :=
    fun e hread => by simp [hread]
  cases hs with
  | opens | restricts => exact ht
  | unopened | appends | unappended | unreadable | unread | untruncated | unwritten => trivial
  | clock =>
    obtain ⟨text,hc,htext⟩ := ht
    exact ⟨text,hc,.inr ⟨htext,by simp⟩⟩
  | absent =>
    obtain ⟨text,hc,hnow⟩ := ht
    exact ⟨⟨text,hc,hnow.append _⟩,hnew _ rfl⟩
  | present =>
    obtain ⟨text,hc,hnow⟩ := ht
    exact ⟨text,hc,hnow.append _⟩
  | reads =>
    obtain ⟨text,hc,hnow⟩ := ht
    exact ⟨⟨text,hc,hnow.append _⟩,hnew _ rfl⟩
  | truncates =>
    obtain ⟨⟨text,hc,-⟩,hread⟩ := ht
    exact ⟨⟨_,text,hc⟩,hany _ hread⟩
  | begins => exact tells_writingFrom ⟨ht.1,hany _ ht.2⟩ 0 _
  | writes => exact tells_writingFrom ⟨ht.1,hany _ ht.2⟩ _ _

theorem stagedLog_tells {s : AuditStage} (hr : stagedLog.Runs c h s) : s.Tells c h := by
  have hstart : (AuditStage.start c).Tells c [] := by
    cases c with
    | append event => exact ⟨event,rfl,rfl⟩
    | applyRetention policy now =>
      change (AuditStage.startAt policy (systemTimeOf now)).Tells _ []
      cases htime : systemTimeOf now with
      | some => exact ⟨now,rfl,.inl htime⟩
      | none => exact ⟨now,rfl,htime⟩
  exact hr.invariant hstart
    fun _ _ _ _ ht hs => AuditStage.Tells.step ht hs

end Runs

end WatchMe
