import WatchMe.Daemon.Persistence

/-! # Events about a watcher

The observer builds the id of an event from the id and the revision of its watcher. An event with
an id of another form is refused, and then the round has nothing to report.
-/
namespace WatchMe

section
variable [Texts] [Digest]

def observationEvent (watcher : WatcherState) (kind : SourceKind) (source rule : String)
    (category : EventCategory) (confidence : Rat) (evidence : List UInt8) (now : Int) :
    Except String Event :=
  Event.new ("obs-" ++ watcher.watcherId ++ "-" ++ toString watcher.revision) (Texts.toRfc3339 now)
    watcher.watcherId (targetIdentityHash watcher.target) (.new kind source rule) category confidence
    false (evidenceFingerprint source rule evidence) "bounded observation" .observeOnly

/-- What is observed of a watcher: the typed state of a Herdr pane, or whether its process is
alive. -/
inductive Observed where
  | herdr (category : EventCategory) (evidence : List UInt8)
  | liveness (alive : Bool)

def Observed.event (watcher : WatcherState) (now : Int) : Observed → Except String Event
  | herdr category evidence =>
    observationEvent watcher .herdrAgentState "herdr" "typed_pane_state" category (4 / 5) evidence
      now
  | liveness alive =>
    observationEvent watcher .processMetadata "process" "liveness"
      (if alive then .working else .terminated) 1 (utf8Bytes (if alive then "alive" else "dead")) now

omit [Texts] [Digest] in
theorem validId_observation (id : String) (revision : Nat) :
    (validId ("obs-" ++ id ++ "-" ++ toString revision) = true ∧ validId id = true) ↔
      validId id = true ∧ id.utf8ByteSize + (toString revision).utf8ByteSize ≤ 91 := by
  rw [and_comm]
  refine and_congr_right fun hid => ?_
  have hdigits : ∀ c ∈ (toString revision).toList, c.isAlphanum = true := fun c hc => by
    have hdigit := Nat.isDigit_of_mem_toDigits (by decide) (by decide) (Nat.toList_repr ▸ hc)
    simp [Char.isAlphanum,hdigit]
  have hchars : ∀ c ∈ id.toList, (c.isAlphanum || ['.','_',':','-'].contains c) = true := by
    intro c hc
    simp only [validId,Bool.and_eq_true] at hid
    cases hlist : id.toList with
    | nil => simp [hlist] at hc
    | cons =>
      simp only [hlist,Bool.and_eq_true,List.all_eq_true] at hid hc
      obtain rfl | hc := List.mem_cons.1 hc
      · rw [hid.2.1,Bool.true_or]
      · exact hid.2.2 c hc
  have hlist : ("obs-" ++ id ++ "-" ++ toString revision).toList =
      'o' :: ("bs-".toList ++ id.toList ++ ['-'] ++ (toString revision).toList) := by simp
  have hall : ("bs-".toList ++ id.toList ++ ['-'] ++ (toString revision).toList).all
      (fun d => d.isAlphanum || ['.','_',':','-'].contains d) = true := by
    simp only [List.all_append,Bool.and_eq_true]
    refine ⟨⟨⟨by decide,List.all_eq_true.2 hchars⟩,by decide⟩,List.all_eq_true.2 fun c hc => ?_⟩
    rw [hdigits c hc,Bool.true_or]
  have hsize : ("obs-" ++ id ++ "-" ++ toString revision).utf8ByteSize =
      5 + (id.utf8ByteSize + (toString revision).utf8ByteSize) := by
    simp only [String.utf8ByteSize_append]
    have h4 : "obs-".utf8ByteSize = 4 := by decide
    have h1 : "-".utf8ByteSize = 1 := by decide
    omega
  have hne : "obs-" ++ id ++ "-" ++ toString revision ≠ "" := fun h => by
    rw [h] at hlist
    cases hlist
  simp only [validId,hlist,hall,hsize,Bool.and_true,Bool.and_eq_true,bne_iff_ne,ne_eq,hne,
    not_false_eq_true,true_and,decide_eq_true_eq]
  refine ⟨fun h => by omega,fun h => ⟨by omega,by decide⟩⟩

theorem event_isOk {now : Int} (hnow : (Chrono.parseFromRfc3339 (Texts.toRfc3339 now)).isSome)
    (watcher : WatcherState) (observed : Observed) :
    (observed.event watcher now).isOk = true ↔
      validId ("obs-" ++ watcher.watcherId ++ "-" ++ toString watcher.revision) = true ∧
        validId watcher.watcherId = true := by
  have hok {x : Except String Event} : x.isOk = true ↔ ∃ event, x = .ok event := by
    cases x <;> simp [Except.isOk,Except.toBool]
  have hherdr : inUnit (4 / 5) = true := by decide +kernel
  have halive : inUnit 1 = true := by decide
  rw [hok]
  cases observed <;>
    simp only [Observed.event,observationEvent,Event.new,check_ok_iff,Event.validate,refuseIf_ok_iff,
      Event.boundsViolated,hherdr,halive,targetIdentityHash,evidenceFingerprint,
      Digest.sha256Hex_valid,EventSource.new,longerThan,Option.isNone_eq_false_iff.2 hnow]
  all_goals simp +decide [pure,Except.pure]

theorem observed_event_built_iff {now : Int}
    (hnow : (Chrono.parseFromRfc3339 (Texts.toRfc3339 now)).isSome) (watcher : WatcherState)
    (observed : Observed) :
    (observed.event watcher now).isOk = true ↔ validId watcher.watcherId = true ∧
      watcher.watcherId.utf8ByteSize + (toString watcher.revision).utf8ByteSize ≤ 91 := by
  rw [event_isOk hnow,validId_observation]

end

/-- What Herdr calls a pane stands in the id of its watcher. -/
def Sample.spacedWatcher : WatcherState :=
  .new "herdr-pane 1-7-1" (.process (.new 7 1)) .registered 0 0

theorem observed_event_built_process :
    let _ := Sample.texts
    let _ := Sample.digest
    (Observed.event Sample.codexWatcher 0 (.liveness true)).isOk = true := by
  let _ := Sample.texts
  let _ := Sample.digest
  exact (observed_event_built_iff rfl Sample.codexWatcher (.liveness true)).2 (by decide)

theorem observed_event_refused :
    let _ := Sample.texts
    let _ := Sample.digest
    let _ := Sample.jsonText
    (Registry.register Registry.empty Sample.spacedWatcher .stored).1 =
        .ok (.added "herdr-pane 1-7-1") ∧
      (Observed.event Sample.spacedWatcher 0 (.liveness true)).isOk = false := by
  intro _ _ _
  exact ⟨rfl,by decide⟩

end WatchMe
