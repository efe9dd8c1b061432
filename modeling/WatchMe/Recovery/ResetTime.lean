import WatchMe.Agents.Recipes
import WatchMe.Text.Calendar
import WatchMe.Text.Reading

/-! # Reset times

`parse_reset` reads out of a message when a limit ends. A duration counts from the clock at the
time of the reading, and a clock time means its next occurrence, so the same text is read anew
as another instant later on. Whatever it says, the instant lies ahead (`parseReset_future`).
-/
namespace WatchMe
open Text

/-- `DateTime<FixedOffset>`: an instant in nanoseconds, shown at an offset in seconds. -/
structure OffsetTime where
  nanos : Int
  offset : Int
  deriving DecidableEq, Repr

namespace OffsetTime

def timestamp (time : OffsetTime) : Int := time.nanos / nanosPerSec

def plusSeconds (time : OffsetTime) (seconds : Int) : OffsetTime :=
  { time with nanos := time.nanos + seconds * nanosPerSec }

theorem lt_of_timestamp_lt {a b : OffsetTime} (h : a.timestamp < b.timestamp) :
    a.nanos < b.nanos := by
  unfold timestamp nanosPerSec at h
  omega

end OffsetTime

/-- What a clock in a zone shows never, once, or twice. -/
inductive LocalResult where
  | none
  | single (time : OffsetTime)
  | ambiguous (first second : OffsetTime)

/-- The table of time zones, under their names, and the text of an instant at its offset. -/
class Zones extends OffsetTexts where
  parseTz : String → Option String
  offsetAt : String → Int → Int
  fromLocal : String → Int → LocalResult
  offsetRfc3339 : OffsetTime → String

def twoDigits (n : Nat) : String := if n < 10 then "0" ++ toString n else toString n

/-- The text of a `FixedOffset`. -/
def offsetText (offset : Int) : String :=
  let minutes := offset.natAbs / 60
  let seconds := offset.natAbs % 60
  (if offset < 0 then "-" else "+") ++ twoDigits (minutes / 60) ++ ":" ++ twoDigits (minutes % 60)
    ++ if seconds = 0 then "" else ":" ++ twoDigits seconds

inductive Zone where
  | iana (name : String)
  | fixed (offset : Int)
  deriving DecidableEq

namespace Zone
variable [Zones]

def fromText (text : List Char) (fallback : Int) : Zone :=
  let tokens := ((text.splitOnP isWhiteSpace).filter (· ≠ [])).map
    (trimMatches fun c => !c.isAlphanum && c != '/')
  match tokens.findSome? fun token =>
      if token.contains '/' then Zones.parseTz (.ofList token) else none with
  | some name => .iana name
  | none => .fixed fallback

def name : Zone → String
  | iana name => name
  | fixed offset => offsetText offset

def localDate (now : OffsetTime) : Zone → Date
  | iana name => ⟨(now.timestamp + Zones.offsetAt name now.nanos) / secondsPerDay⟩
  | fixed _ => ⟨(now.timestamp + now.offset) / secondsPerDay⟩

def candidates (clock : Int) : Zone → List OffsetTime
  | iana name =>
    match Zones.fromLocal name clock with
    | .none => []
    | .single time => [time]
    | .ambiguous first second => [first,second]
  | fixed offset => [⟨(clock - offset) * nanosPerSec,offset⟩]

/-- `min_by_key`: the first of the smallest. -/
def earliest : List OffsetTime → Option OffsetTime
  | [] => none
  | time :: times =>
    match earliest times with
    | none => some time
    | some other => if other.timestamp < time.timestamp then some other else some time

variable {time : OffsetTime}

omit [Zones] in
theorem mem_of_earliest {times : List OffsetTime} (h : earliest times = some time) :
    time ∈ times := by
  induction times generalizing time with
  | nil => cases h
  | cons first times ih =>
    rw [earliest] at h
    cases hrest : earliest times with
    | none =>
      rw [hrest] at h
      cases h
      exact List.mem_cons_self
    | some =>
      simp only [hrest] at h
      split at h
      · cases h
        exact List.mem_cons_of_mem _ (ih hrest)
      · cases h
        exact List.mem_cons_self

def resolve (zone : Zone) (date : Date) (hour minute : Nat) (now : OffsetTime) :
    Option OffsetTime :=
  if hour < 24 ∧ minute < 60 then
    earliest ((zone.candidates (date.days * secondsPerDay + hour * 3600 + minute * 60)).filter
      fun candidate => now.timestamp < candidate.timestamp)
  else none

theorem resolve_future {zone : Zone} {date : Date} {hour minute : Nat} {now : OffsetTime}
    (h : zone.resolve date hour minute now = some time) : now.timestamp < time.timestamp := by
  unfold resolve at h
  split at h
  · have hmem := List.mem_filter.1 (mem_of_earliest h)
    exact of_decide_eq_true hmem.2
  · cases h

end Zone

def resetWords (text : List Char) : List (List Char) :=
  (text.splitOnP fun c => !c.isAlphanum && c != ':').filter (· ≠ [])

/-- The result of a checked operation on `i64`. -/
def checkedI64 (n : Int) : Option Int := if -2 ^ 63 ≤ n ∧ n < 2 ^ 63 then some n else none

def unitSeconds (token : List Char) : Option Int :=
  match token.head? with
  | some 'h' => some 3600
  | some 'm' => some 60
  | some 's' => some 1
  | _ => none

/-- The loop over the words: the number read last, and the seconds so far. -/
def relativeSeconds : List (List Char) → Option Int → Int → Option Int
  | [], _, seconds => some seconds
  | token :: tokens, number, seconds =>
    match parseSigned (2 ^ 63 - 1) token, number with
    | some value, _ => relativeSeconds tokens (some value) seconds
    | none, none => relativeSeconds tokens none seconds
    | none, some value => do
      let multiplier ← unitSeconds token
      let product ← checkedI64 (value * multiplier)
      let sum ← checkedI64 (seconds + product)
      if 31536000 < sum then none else relativeSeconds tokens none sum

def parseRelative (text : List Char) : Option Int := do
  let fragment ← ((fromFirst "resets in".toList text).or (fromFirst "reset in".toList text)).or
    (fromFirst "try again in".toList text)
  let seconds ← relativeSeconds (resetWords fragment) none 0
  if 0 < seconds then some seconds else none

theorem parseRelative_pos {text : List Char} {seconds : Int}
    (h : parseRelative text = some seconds) : 0 < seconds := by
  unfold parseRelative at h
  obtain ⟨fragment,-,h⟩ := Option.bind_eq_some_iff.1 h
  obtain ⟨total,-,h⟩ := Option.bind_eq_some_iff.1 h
  split at h
  · next hpos =>
    cases h
    exact hpos
  · cases h

def splitMeridiem (token : List Char) : List Char × Option Bool :=
  if "am".toList.isSuffixOf token then (token.dropLast.dropLast,some false)
  else if "pm".toList.isSuffixOf token then (token.dropLast.dropLast,some true)
  else (token,none)

def meridiem (token : List Char) : Option Bool :=
  if token = "am".toList then some false
  else if token = "pm".toList then some true
  else none

def hourOf (meridiem : Option Bool) (hour : Nat) : Option Nat :=
  match meridiem with
  | some isPm => if 1 ≤ hour ∧ hour ≤ 12 then some (hour % 12 + if isPm then 12 else 0) else none
  | none => if hour ≤ 23 then some hour else none

def parseU32 : List Char → Option Nat := parseUnsigned (2 ^ 32 - 1)

/-- A word that looks like a time but does not parse ends the search. -/
def parseClock : List (List Char) → Option (Nat × Nat)
  | [] => none
  | token :: tokens =>
    let (digits,suffix) := splitMeridiem token
    let marked := suffix.or (tokens.head?.bind meridiem)
    let settled (hour minute : Nat) : Option (Nat × Nat) :=
      match hourOf marked hour with
      | some hour => if minute < 60 then some (hour,minute) else parseClock tokens
      | none => parseClock tokens
    match splitOnce ':' digits with
    | some (hour,minute) => do settled (← parseU32 hour) (← parseU32 minute)
    | none => if marked.isSome then do settled (← parseU32 digits) 0 else parseClock tokens

def monthNames : List (String × Nat) :=
  [("jan",1),("feb",2),("mar",3),("apr",4),("may",5),("jun",6),("jul",7),("aug",8),("sep",9),
    ("oct",10),("nov",11),("dec",12)]

def month (token : List Char) : Option Nat := monthNames.lookup (.ofList (token.take 3))

/-- The date that is named, whether one is, and whether with its year. -/
def parseDate (fallback : Date) : List (List Char) → Option (Date × Bool × Bool)
  | [] => some (fallback,false,false)
  | token :: tokens =>
    match month token with
    | none => parseDate fallback tokens
    | some month => do
      let day ← tokens.head?.bind parseU32
      let explicitYear := tokens[1]?.bind fun value =>
        if value.length = 4 then parseSigned (2 ^ 31 - 1) value else none
      let date ← Date.ofYmd? (explicitYear.getD fallback.year) month day
      return (date,true,explicitYear.isSome)

def lowered (text : String) : List Char := text.toList.map Char.toLower

structure ResetTime where
  resetAt : OffsetTime
  confidenceMilli : Nat
  timezone : String
  marginSeconds : Nat
  deriving DecidableEq, Repr

def minWallFutureSeconds : Int := 300

section Parse
variable [Zones]
variable {now time : OffsetTime}

/-- The occurrence of the clock time that is meant: on the date, or else in the next year if the
date is named without its year, or else on one of the next two days if it is not named. -/
def Zone.occurrence (zone : Zone) (date : Date) (named explicitYear : Bool) (hour minute : Nat)
    (now : OffsetTime) : Option OffsetTime :=
  match zone.resolve date hour minute now with
  | some time => some time
  | none =>
    if named then
      if explicitYear then none
      else (date.withYear (date.year + 1)).bind fun date => zone.resolve date hour minute now
    else
      (zone.resolve (date.plusDays 1) hour minute now).or
        (zone.resolve (date.plusDays 2) hour minute now)

def wallReset (text : String) (now : OffsetTime) : Option ResetTime := do
  let zone := Zone.fromText text.toList now.offset
  let (hour,minute) ← parseClock (resetWords (lowered text))
  let (date,named,explicitYear) ← parseDate (zone.localDate now) (resetWords (lowered text))
  let time ← zone.occurrence date named explicitYear hour minute now
  if named = false ∧ time.timestamp - now.timestamp < minWallFutureSeconds then none
  else some ⟨time,if named then 930 else 860,zone.name,60⟩

def parseReset (text : String) (now : OffsetTime) : Option ResetTime :=
  if text = "" ∨ 500 < text.utf8ByteSize then none
  else if !(occurs "reset" (lowered text) || occurs "try again" (lowered text)) then none
  else match parseRelative (lowered text) with
    | some seconds => some ⟨now.plusSeconds seconds,980,offsetText now.offset,60⟩
    | none => wallReset text now

theorem Zone.occurrence_future {zone : Zone} {date : Date} {named explicitYear : Bool}
    {hour minute : Nat} (h : zone.occurrence date named explicitYear hour minute now = some time) :
    now.timestamp < time.timestamp := by
  unfold Zone.occurrence at h
  split at h
  · next hdate =>
    cases h
    exact Zone.resolve_future hdate
  · split at h
    · split at h
      · cases h
      · obtain ⟨next,-,h⟩ := Option.bind_eq_some_iff.1 h
        exact Zone.resolve_future h
    · rcases Option.or_eq_some_iff.1 h with h | ⟨-,h⟩
      · exact Zone.resolve_future h
      · exact Zone.resolve_future h

theorem wallReset_future {text : String} {reset : ResetTime} (h : wallReset text now = some reset) :
    now.nanos < reset.resetAt.nanos ∧ reset.marginSeconds = 60 := by
  unfold wallReset at h
  obtain ⟨clock,-,h⟩ := Option.bind_eq_some_iff.1 h
  obtain ⟨date,-,h⟩ := Option.bind_eq_some_iff.1 h
  obtain ⟨time,htime,h⟩ := Option.bind_eq_some_iff.1 h
  split at h
  · cases h
  · cases h
    exact ⟨OffsetTime.lt_of_timestamp_lt (Zone.occurrence_future htime),rfl⟩

theorem parseReset_future {text : String} {reset : ResetTime} (h : parseReset text now = some reset)
    : now.nanos < reset.resetAt.nanos ∧ reset.marginSeconds = 60 := by
  unfold parseReset at h
  split at h
  · cases h
  split at h
  · cases h
  split at h
  · next seconds hseconds =>
    cases h
    have hpos := parseRelative_pos hseconds
    refine ⟨?_,rfl⟩
    simp only [OffsetTime.plusSeconds,nanosPerSec]
    omega
  · exact wallReset_future h

end Parse

end WatchMe
