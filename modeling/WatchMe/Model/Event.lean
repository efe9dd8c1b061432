import Mathlib.Algebra.Order.Ring.Int
import Mathlib.Data.List.Induction

/-! # JSON values and observed events

Strings are measured in UTF-8 bytes. A confidence is a rational: every finite
`f64` is one, and an event with any other confidence is never constructed. Parsing
of RFC 3339 stamps is the `chrono` library's and stays a parameter.
-/
namespace WatchMe
variable {ε α β : Type}

/-- `if bad { return Err(error) }`. -/
def refuseIf {ε : Type} (bad : Bool) (error : ε) : Except ε Unit :=
  if bad then .error error else .ok ()

@[simp] theorem refuseIf_ok_iff {ε : Type} {bad : Bool} {error : ε} {u : Unit} :
    refuseIf bad error = .ok u ↔ bad = false := by
  cases bad <;> simp [refuseIf]

theorem bind_ok_iff {x : Except ε α} {f : α → Except ε β} {b : β} :
    (x >>= f) = .ok b ↔ ∃ a, x = .ok a ∧ f a = .ok b := by
  cases x with
  | error => simp [bind,Except.bind]
  | ok => simp [bind,Except.bind]

theorem check_ok_iff {x : Except ε Unit} {f : Unit → Except ε β} {b : β} :
    (x >>= f) = .ok b ↔ x = .ok () ∧ f () = .ok b := by
  rw [bind_ok_iff]
  exact ⟨fun ⟨_,h⟩ => h,fun h => ⟨(),h⟩⟩

theorem map_ok_iff {x : Except ε α} {f : α → β} {b : β} :
    x.map f = .ok b ↔ ∃ a, x = .ok a ∧ f a = b := by
  cases x with
  | error => simp [Except.map]
  | ok => simp [Except.map]

theorem toOption_eq_some {x : Except ε α} {a : α} :
    x.toOption = some a ↔ x = .ok a := by
  cases x with
  | error => simp [Except.toOption]
  | ok => simp [Except.toOption]

theorem guard_eq_some {p : Prop} [Decidable p] {u : Unit} :
    (guard p : Option Unit) = some u ↔ p := by
  by_cases hp : p <;> simp [guard,hp]

theorem mapM_ok_iff {f : α → Except ε β} {p : α → Prop} {g : α → β}
    (h : ∀ a b, f a = .ok b ↔ p a ∧ b = g a) {l : List α} {l' : List β} :
    l.mapM f = .ok l' ↔ (∀ a ∈ l, p a) ∧ l' = l.map g := by
  induction l generalizing l' with
  | nil => simp [pure,Except.pure,eq_comm]
  | cons a l ih =>
    rw [List.mapM_cons,bind_ok_iff,List.forall_mem_cons,List.map_cons]
    constructor
    · rintro ⟨b,hb,hrest⟩
      obtain ⟨bs,hbs,hrest⟩ := bind_ok_iff.1 hrest
      obtain ⟨ha,rfl⟩ := (h a b).1 hb
      obtain ⟨hl,rfl⟩ := ih.1 hbs
      exact ⟨⟨ha,hl⟩,(Except.ok.inj hrest).symm⟩
    · rintro ⟨⟨ha,hl⟩,rfl⟩
      exact ⟨g a,(h a _).2 ⟨ha,rfl⟩,bind_ok_iff.2 ⟨_,ih.2 ⟨hl,rfl⟩,rfl⟩⟩

theorem mapM_forall₂ {f : α → Except ε β} {l : List α} {l' : List β}
    (h : l.mapM f = .ok l') : List.Forall₂ (fun a b => f a = .ok b) l l' := by
  induction l generalizing l' with
  | nil =>
    cases h
    exact .nil
  | cons a l ih =>
    rw [List.mapM_cons,bind_ok_iff] at h
    obtain ⟨b,hb,h⟩ := h
    obtain ⟨bs,hbs,h⟩ := bind_ok_iff.1 h
    cases h
    exact .cons hb (ih hbs)

abbrev StrMap (β : Type) := Std.ExtTreeMap String β

theorem StrMap.getElem?_insert (m : StrMap β) (k a : String) (v : β) :
    (m.insert k v)[a]? = if k = a then some v else m[a]? := by
  simp only [Std.ExtTreeMap.getElem?_insert,Std.LawfulEqCmp.compare_eq_iff_eq]

theorem StrMap.getElem?_erase (m : StrMap β) (k a : String) :
    (m.erase k)[a]? = if k = a then none else m[a]? := by
  simp only [Std.ExtTreeMap.getElem?_erase,Std.LawfulEqCmp.compare_eq_iff_eq]

theorem StrMap.getElem?_ofList_last (l : List (String × β)) (k : String) :
    (Std.ExtTreeMap.ofList l : StrMap β)[k]? =
      (l.reverse.find? fun entry => entry.1 == k).map (·.2) := by
  induction l using List.reverseRecOn with
  | nil => simp
  | append_singleton l entry ih =>
    rw [Std.ExtTreeMap.ofList_eq_insertMany_empty,Std.ExtTreeMap.insertMany_append,
      Std.ExtTreeMap.insertMany_list_singleton,StrMap.getElem?_insert,
      ← Std.ExtTreeMap.ofList_eq_insertMany_empty,ih,List.reverse_concat]
    by_cases hk : entry.1 = k
    · rw [if_pos hk,List.find?_cons_of_pos (by simpa using hk)]
      rfl
    · rw [if_neg hk,List.find?_cons_of_neg (by simpa using hk)]

theorem StrMap.mem_of_getElem?_ofList {l : List (String × β)} {k : String} {v : β}
    (h : (Std.ExtTreeMap.ofList l : StrMap β)[k]? = some v) : (k,v) ∈ l := by
  rw [StrMap.getElem?_ofList_last,Option.map_eq_some_iff] at h
  obtain ⟨entry,hfind,rfl⟩ := h
  obtain rfl : entry.1 = k := by simpa using List.find?_some hfind
  exact List.mem_reverse.1 (List.mem_of_find?_eq_some hfind)

theorem StrMap.getElem?_ofList {l : List (String × β)} {k : String} {v : β}
    (hl : (l.map (·.1)).Nodup) :
    (Std.ExtTreeMap.ofList l : StrMap β)[k]? = some v ↔ (k,v) ∈ l := by
  have hdistinct : l.Pairwise fun a b => ¬ compare a.1 b.1 = .eq := by
    simpa [List.Nodup,List.pairwise_map] using hl
  exact ⟨StrMap.mem_of_getElem?_ofList,
    Std.ExtTreeMap.getElem?_ofList_of_mem Std.ReflCmp.compare_self hdistinct⟩

theorem StrMap.ofList_toList (m : StrMap β) : Std.ExtTreeMap.ofList m.toList = m := by
  have hkeys : (m.toList.map (·.1)).Nodup := by
    rw [Std.ExtTreeMap.map_fst_toList_eq_keys]
    exact Std.ExtTreeMap.nodup_keys
  refine Std.ExtTreeMap.ext_getElem? fun k => Option.ext fun v => ?_
  rw [StrMap.getElem?_ofList hkeys,Std.ExtTreeMap.mem_toList_iff_getElem?_eq_some]

/-- `chrono::DateTime::parse_from_rfc3339`, as an instant in nanoseconds. -/
class Chrono where
  parseFromRfc3339 : String → Option Int

inductive Json where
  | null
  | bool (value : Bool)
  | number (value : Rat)
  | string (value : String)
  | array (items : List Json)
  | object (fields : List (String × Json))

namespace Json

def asStr : Json → Option String
  | string s => some s
  | _ => none

def isTrue : Json → Bool
  | bool b => b
  | _ => false

def isScalar : Json → Bool
  | null | bool _ | number _ | string _ => true
  | array _ | object _ => false

-- the deriving handler does not reach through the lists
mutual

def decEq : (a b : Json) → Decidable (a = b)
  | null, b => match b with
    | null => .isTrue rfl
    | bool _ | number _ | string _ | array _ | object _ => .isFalse nofun
  | bool x, b => match b with
    | bool y => decidable_of_iff (x = y) (by simp)
    | null | number _ | string _ | array _ | object _ => .isFalse nofun
  | number x, b => match b with
    | number y => decidable_of_iff (x = y) (by simp)
    | null | bool _ | string _ | array _ | object _ => .isFalse nofun
  | string x, b => match b with
    | string y => decidable_of_iff (x = y) (by simp)
    | null | bool _ | number _ | array _ | object _ => .isFalse nofun
  | array xs, b => match b with
    | array ys =>
      have := decEqItems xs ys
      decidable_of_iff (xs = ys) (by simp)
    | null | bool _ | number _ | string _ | object _ => .isFalse nofun
  | object xs, b => match b with
    | object ys =>
      have := decEqFields xs ys
      decidable_of_iff (xs = ys) (by simp)
    | null | bool _ | number _ | string _ | array _ => .isFalse nofun

def decEqItems : (xs ys : List Json) → Decidable (xs = ys)
  | [], [] => .isTrue rfl
  | [], _ :: _ | _ :: _, [] => .isFalse nofun
  | x :: xs, y :: ys =>
    have := decEq x y
    have := decEqItems xs ys
    decidable_of_iff (x = y ∧ xs = ys) (by simp)

def decEqFields : (xs ys : List (String × Json)) → Decidable (xs = ys)
  | [], [] => .isTrue rfl
  | [], _ :: _ | _ :: _, [] => .isFalse nofun
  | (k,x) :: xs, (l,y) :: ys =>
    have := decEq x y
    have := decEqFields xs ys
    decidable_of_iff ((k = l ∧ x = y) ∧ xs = ys) (by simp)

end

instance : DecidableEq Json := decEq

end Json

inductive SourceKind where
  | typedApi
  | hook
  | structuredLog
  | processMetadata
  | herdrAgentState
  | screenDetection
  | planner
  | internal
  deriving DecidableEq, Repr

def SourceKind.rank : SourceKind → Nat
  | typedApi => 8
  | hook => 7
  | structuredLog => 6
  | processMetadata => 5
  | herdrAgentState => 4
  | screenDetection => 3
  | planner => 2
  | internal => 1

structure EventSource where
  kind : SourceKind
  sourceId : String
  ruleOrField : String
  sourceVersion : Option String
  deriving DecidableEq, Repr

def EventSource.new (kind : SourceKind) (sourceId rule : String) : EventSource :=
  ⟨kind,sourceId,rule,none⟩

inductive EventCategory where
  | working
  | idle
  | waitingForModel
  | waitingForTool
  | waitingForUser
  | permissionPrompt
  | questionPrompt
  | usageLimit
  | sessionLimit
  | weeklyLimit
  | modelCreditExhausted
  | transientOverload
  | capacityBlock
  | authenticationFailure
  | billingFailure
  | invalidRequest
  | modelUnavailable
  | safetyBlock
  | pausedGoal
  | blockedGoal
  | contextLimit
  | terminalFailure
  | crashed
  | terminated
  | unknownBlocked
  | recovered
  | humanIntervention
  deriving DecidableEq, Repr

namespace EventCategory

def isActionable : EventCategory → Bool
  | working | idle | recovered | humanIntervention | terminated => false
  | _ => true

def debugUpper : EventCategory → String
  | working => "WORKING"
  | idle => "IDLE"
  | waitingForModel => "WAITINGFORMODEL"
  | waitingForTool => "WAITINGFORTOOL"
  | waitingForUser => "WAITINGFORUSER"
  | permissionPrompt => "PERMISSIONPROMPT"
  | questionPrompt => "QUESTIONPROMPT"
  | usageLimit => "USAGELIMIT"
  | sessionLimit => "SESSIONLIMIT"
  | weeklyLimit => "WEEKLYLIMIT"
  | modelCreditExhausted => "MODELCREDITEXHAUSTED"
  | transientOverload => "TRANSIENTOVERLOAD"
  | capacityBlock => "CAPACITYBLOCK"
  | authenticationFailure => "AUTHENTICATIONFAILURE"
  | billingFailure => "BILLINGFAILURE"
  | invalidRequest => "INVALIDREQUEST"
  | modelUnavailable => "MODELUNAVAILABLE"
  | safetyBlock => "SAFETYBLOCK"
  | pausedGoal => "PAUSEDGOAL"
  | blockedGoal => "BLOCKEDGOAL"
  | contextLimit => "CONTEXTLIMIT"
  | terminalFailure => "TERMINALFAILURE"
  | crashed => "CRASHED"
  | terminated => "TERMINATED"
  | unknownBlocked => "UNKNOWNBLOCKED"
  | recovered => "RECOVERED"
  | humanIntervention => "HUMANINTERVENTION"

end EventCategory

inductive PolicyHint where
  | observeOnly
  | deterministicActionAllowed
  | waitAllowed
  | plannerAllowed
  | humanRequired
  | stopWatching
  deriving DecidableEq, Repr

structure EventReset where
  sourceText : String
  parsedAt : String
  timezone : Option String
  confidence : Rat
  marginSeconds : Option Nat
  deriving DecidableEq

structure Event where
  schemaVersion : String
  eventId : String
  observedAt : String
  monotonicSequence : Option Nat
  watcherId : String
  targetIdentityHash : String
  agentId : Option String
  sessionId : Option String
  providerFamily : Option String
  source : EventSource
  category : EventCategory
  confidence : Rat
  terminal : Bool
  evidenceFingerprint : String
  summary : String
  redactedEvidence : Option String
  reset : Option EventReset
  policyHint : PolicyHint
  supersedesEventId : Option String
  metadata : StrMap Json
  deriving DecidableEq

def eventSchemaVersion : String := "1.0"

def isHexdigit (c : Char) : Bool :=
  c.isDigit || ('a' ≤ c && c ≤ 'f') || ('A' ≤ c && c ≤ 'F')

/-- ASCII letters and digits, and from the second character on also `._:-`. -/
def validId (value : String) : Bool :=
  value != "" && decide (value.utf8ByteSize ≤ 96) &&
    match value.toList with
    | [] => true
    | c :: cs => c.isAlphanum && cs.all (fun d => d.isAlphanum || ['.','_',':','-'].contains d)

def validHash (value : String) : Bool :=
  decide (16 ≤ value.utf8ByteSize) && decide (value.utf8ByteSize ≤ 128) &&
    value.toList.all isHexdigit

def longerThan (bound : Nat) (value : Option String) : Bool :=
  value.any (fun v => decide (bound < v.utf8ByteSize))

def inUnit (x : Rat) : Bool := decide (0 ≤ x) && decide (x ≤ 1)

theorem validHash_ne_empty {value : String} (h : validHash value = true) : value ≠ "" := by
  rintro rfl
  exact absurd h (by decide)

namespace Event
variable [Chrono]

def boundsViolated (e : Event) : Bool :=
  (Chrono.parseFromRfc3339 e.observedAt).isNone
    || decide (256 < e.source.sourceId.utf8ByteSize)
    || decide (256 < e.source.ruleOrField.utf8ByteSize)
    || longerThan 128 e.source.sourceVersion
    || longerThan 64 e.agentId
    || longerThan 256 e.sessionId
    || longerThan 64 e.providerFamily
    || longerThan 4000 e.redactedEvidence
    || longerThan 96 e.supersedesEventId
    || e.metadata.toList.any (fun p => !p.2.isScalar)

def resetInvalid (r : EventReset) : Bool :=
  r.sourceText == ""
    || decide (500 < r.sourceText.utf8ByteSize)
    || (Chrono.parseFromRfc3339 r.parsedAt).isNone
    || !inUnit r.confidence
    || r.marginSeconds.any (fun m => decide (3600 < m))
    || longerThan 128 r.timezone

def validate (e : Event) : Except String Unit := do
  refuseIf (e.schemaVersion != eventSchemaVersion) "unsupported event schema version"
  refuseIf (!inUnit e.confidence) "confidence outside 0..=1"
  refuseIf (!validId e.eventId) "invalid id"
  refuseIf (!validId e.watcherId) "invalid id"
  refuseIf (!validHash e.targetIdentityHash) "invalid hash"
  refuseIf (!validHash e.evidenceFingerprint) "invalid hash"
  refuseIf (e.summary == "" || decide (1000 < e.summary.utf8ByteSize)
    || e.source.sourceId == "" || e.source.ruleOrField == "") "invalid bounded event text"
  refuseIf e.boundsViolated "event violates schema bounds"
  refuseIf (e.reset.any resetInvalid) "invalid reset"
  refuseIf (decide (32 < e.metadata.size)) "too many metadata fields"

def new (eventId observedAt watcherId targetHash : String) (source : EventSource)
    (category : EventCategory) (confidence : Rat) (terminal : Bool)
    (fingerprint summary : String) (policyHint : PolicyHint) : Except String Event := do
  let event : Event :=
    { schemaVersion := eventSchemaVersion, eventId, observedAt, monotonicSequence := none
      watcherId, targetIdentityHash := targetHash, agentId := none, sessionId := none
      providerFamily := none, source, category, confidence, terminal
      evidenceFingerprint := fingerprint, summary, redactedEvidence := none, reset := none
      policyHint, supersedesEventId := none, metadata := ∅ }
  event.validate
  return event

end Event

def Event.metadataStr (e : Event) (key : String) : Option String :=
  e.metadata[key]?.bind Json.asStr

end WatchMe
