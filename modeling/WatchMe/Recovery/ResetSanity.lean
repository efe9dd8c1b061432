import WatchMe.Recovery.ResetTime

/-! # What a reset time means

Where a reset that was read out of a message lies, what becomes of a clock time that does not exist
on its day, and which numbers of a message count towards a duration.
-/
namespace WatchMe
open Text
variable {tokens : List (List Char)} {seconds : Int}

section Zones
variable [Zones] {now time : OffsetTime} {date : Date} {hour minute : Nat} {text : String}

namespace Zone

def clock (time : OffsetTime) : Zone → Int
  | iana name => time.timestamp + Zones.offsetAt name time.nanos
  | fixed _ => time.timestamp + time.offset

def clockHour (zone : Zone) (time : OffsetTime) : Int := zone.clock time % secondsPerDay / 3600

def clockMinute (zone : Zone) (time : OffsetTime) : Int := zone.clock time % 3600 / 60

theorem localDate_eq (zone : Zone) : zone.localDate time = ⟨zone.clock time / secondsPerDay⟩ := by
  cases zone <;> rfl

end Zone

/-- At an instant that the resolver returns, the clock shows what it was asked for. -/
def Zones.Resolves : Prop :=
  ∀ name asked, ∀ time ∈ (Zone.iana name).candidates asked, (Zone.iana name).clock time = asked

namespace Zone
variable {zone : Zone}

theorem candidates_clock (hzones : Zones.Resolves) {asked : Int}
    (h : time ∈ zone.candidates asked) : zone.clock time = asked := by
  cases zone with
  | iana name => exact hzones name asked time h
  | fixed =>
    cases List.mem_singleton.1 h
    simp only [clock,OffsetTime.timestamp,nanosPerSec]
    omega

theorem resolve_shows (hzones : Zones.Resolves)
    (h : zone.resolve date hour minute now = some time) :
    zone.localDate time = date ∧ zone.clockHour time = hour ∧ zone.clockMinute time = minute := by
  unfold resolve at h
  split at h
  · have hmem := (List.mem_filter.1 (mem_of_earliest h)).1
    have hclock := candidates_clock hzones hmem
    rw [localDate_eq]
    simp only [clockHour,clockMinute,hclock,secondsPerDay]
    refine ⟨congrArg Date.mk ?_,?_,?_⟩ <;> omega
  · cases h

theorem occurrence_shows (hzones : Zones.Resolves) {explicitYear : Bool}
    (h : zone.occurrence date false explicitYear hour minute now = some time) :
    (∃ days ∈ [0,1,2], zone.localDate time = date.plusDays days) ∧ zone.clockHour time = hour ∧
      zone.clockMinute time = minute := by
  have hday : ∀ days ∈ [(0 : Int),1,2],
      zone.resolve (date.plusDays days) hour minute now = some time → _ := fun days hdays h =>
    let ⟨hdate,hclock⟩ := resolve_shows hzones h
    (⟨⟨days,hdays,hdate⟩,hclock⟩ : (∃ days ∈ [(0 : Int),1,2],
      zone.localDate time = date.plusDays days) ∧ zone.clockHour time = hour ∧
        zone.clockMinute time = minute)
  unfold occurrence at h
  split at h
  · next hdate =>
    cases h
    exact hday 0 (by simp) (by simpa [Date.plusDays] using hdate)
  · rcases Option.or_eq_some_iff.1 h with h | ⟨-,h⟩
    · exact hday 1 (by simp) h
    · exact hday 2 (by simp) h

theorem occurrence_explicit (hzones : Zones.Resolves)
    (h : zone.occurrence date true true hour minute now = some time) :
    zone.localDate time = date := by
  unfold occurrence at h
  split at h
  · next hdate =>
    cases h
    exact (resolve_shows hzones hdate).1
  · cases h

end Zone

omit [Zones] in
theorem parseDate_unnamed {fallback : Date} {explicitYear : Bool}
    (h : parseDate fallback tokens = some (date,false,explicitYear)) : date = fallback := by
  induction tokens with
  | nil =>
    cases h
    rfl
  | cons token tokens ih =>
    rw [parseDate] at h
    split at h
    · exact ih h
    · obtain ⟨day,-,h⟩ := Option.bind_eq_some_iff.1 h
      obtain ⟨found,-,h⟩ := Option.bind_eq_some_iff.1 h
      cases h

omit [Zones] in
theorem parseDate_explicit {fallback : Date} {named : Bool}
    (h : parseDate fallback tokens = some (date,named,true)) : named = true := by
  induction tokens with
  | nil => cases h
  | cons token tokens ih =>
    rw [parseDate] at h
    split at h
    · exact ih h
    · obtain ⟨day,-,h⟩ := Option.bind_eq_some_iff.1 h
      obtain ⟨found,-,h⟩ := Option.bind_eq_some_iff.1 h
      exact (Prod.mk.inj (Prod.mk.inj (Option.some.inj h)).2).1.symm

omit [Zones] in
theorem relativeSeconds_le {number : Option Int} {seconds total : Int}
    (h : relativeSeconds tokens number seconds = some total) (hle : seconds ≤ 31536000) :
    total ≤ 31536000 := by
  fun_induction relativeSeconds tokens number seconds with
  | case1 number seconds =>
    cases h
    exact hle
  | case2 token tokens number seconds value hvalue ih => exact ih h hle
  | case3 token tokens seconds hvalue ih => exact ih h hle
  | case4 token tokens seconds value hvalue ih =>
    obtain ⟨multiplier,-,h⟩ := Option.bind_eq_some_iff.1 h
    obtain ⟨product,-,h⟩ := Option.bind_eq_some_iff.1 h
    obtain ⟨sum,-,h⟩ := Option.bind_eq_some_iff.1 h
    split at h
    · cases h
    · exact ih sum h (by omega)

omit [Zones] in
theorem parseRelative_le {text : List Char}
    (h : parseRelative text = some seconds) : seconds ≤ 31536000 := by
  obtain ⟨fragment,-,h⟩ := Option.bind_eq_some_iff.1 h
  obtain ⟨total,htotal,h⟩ := Option.bind_eq_some_iff.1 h
  have hle := relativeSeconds_le htotal (by decide)
  split at h
  · cases h
    exact hle
  · cases h

/-- The text is not looked into. -/
def Unread (text : String) : Prop :=
  text = "" ∨ 500 < text.utf8ByteSize ∨
    (occurs "reset" (lowered text) || occurs "try again" (lowered text)) = false

theorem parseReset_eq (h : ¬ Unread text) : parseReset text now =
    match parseRelative (lowered text) with
    | some seconds => some ⟨now.plusSeconds seconds,980,offsetText now.offset,60⟩
    | none => wallReset text now := by
  simp only [Unread,not_or,Bool.not_eq_false] at h
  refine (if_neg (by tauto)).trans ((if_neg (by simp [h.2.2])).trans ?_)
  cases parseRelative (lowered text) <;> rfl

theorem parseReset_unread (h : Unread text) : parseReset text now = none := by
  unfold parseReset
  rcases h with h | h | h
  · rw [if_pos (.inl h)]
  · rw [if_pos (.inr h)]
  · split
    · rfl
    · rw [if_pos (by rw [h]; rfl)]

/-- The instant lies ahead; a duration is bounded; a clock time shows on the clock of the zone, on
one of three days if no date is named, and on the date if it is named with its year. -/
theorem parse_reset_sane (hzones : Zones.Resolves) {reset : ResetTime}
    (h : parseReset text now = some reset) :
    let zone := Zone.fromText text.toList now.offset
    let tokens := resetWords (lowered text)
    now.nanos < reset.resetAt.nanos ∧
    ((∃ seconds, parseRelative (lowered text) = some seconds ∧
        reset.resetAt = now.plusSeconds seconds ∧ seconds ≤ 31536000) ∨
      parseRelative (lowered text) = none ∧ ∃ hour minute date named explicitYear,
        parseClock tokens = some (hour,minute) ∧
        parseDate (zone.localDate now) tokens = some (date,named,explicitYear) ∧
        (named = false → 300 ≤ reset.resetAt.timestamp - now.timestamp ∧
          (∃ days ∈ [0,1,2],
            zone.localDate reset.resetAt = (zone.localDate now).plusDays days) ∧
          zone.clockHour reset.resetAt = hour ∧ zone.clockMinute reset.resetAt = minute) ∧
        (explicitYear = true → zone.localDate reset.resetAt = date)) := by
  intro zone tokens
  refine ⟨(parseReset_future h).1,?_⟩
  have hread : ¬ Unread text := fun hunread => by
    rw [parseReset_unread hunread] at h
    cases h
  rw [parseReset_eq hread] at h
  split at h
  · next seconds hseconds =>
    cases h
    exact .inl ⟨seconds,hseconds,rfl,parseRelative_le hseconds⟩
  · next hnone =>
    obtain ⟨⟨hour,minute⟩,hclock,h⟩ := Option.bind_eq_some_iff.1 h
    obtain ⟨⟨date,named,explicitYear⟩,hdate,h⟩ := Option.bind_eq_some_iff.1 h
    obtain ⟨time,htime,h⟩ := Option.bind_eq_some_iff.1 h
    split at h
    · cases h
    next hlate =>
    cases h
    refine .inr ⟨hnone,hour,minute,date,named,explicitYear,hclock,hdate,?_,?_⟩
    · rintro rfl
      obtain rfl := parseDate_unnamed hdate
      refine ⟨?_,Zone.occurrence_shows hzones htime⟩
      simp only [true_and,Int.not_lt,minWallFutureSeconds] at hlate
      exact hlate
    · rintro rfl
      obtain rfl := parseDate_explicit hdate
      exact Zone.occurrence_explicit hzones htime

end Zones

namespace Sample

/-- A zone five hours behind, whose clocks skip an hour in the nights to the eighth of March 2026
and to the last of February 2028. -/
@[reducible] def gapZones : Zones where
  parseFromRfc3339 _ := none
  fromStr _ := none
  toRfc3339 _ := ""
  toRfc3339At _ _ := ""
  parseTz text := if text = "America/New_York" then some text else none
  offsetAt _ _ := -18000
  fromLocal _ asked :=
    if asked / 3600 ∈ [492482,509834] then .none
    else .single ⟨(asked + 18000) * nanosPerSec,-18000⟩
  offsetRfc3339 _ := ""

attribute [local instance] gapZones

theorem gapZones_resolves : Zones.Resolves := by
  intro name asked time htime
  by_cases hgap : asked / 3600 ∈ [492482,509834]
  · have hnone : Zones.fromLocal name asked = .none := if_pos hgap
    rw [Zone.candidates,hnone] at htime
    cases htime
  · have hsingle : Zones.fromLocal name asked = .single ⟨(asked + 18000) * nanosPerSec,-18000⟩ :=
      if_neg hgap
    rw [Zone.candidates,hsingle] at htime
    cases List.mem_singleton.1 htime
    change (asked + 18000) * nanosPerSec / nanosPerSec + -18000 = asked
    unfold nanosPerSec
    omega

/-- Noon of the first of January 2026, and half a second. -/
def january : OffsetTime := ⟨1767268800500000000,0⟩

end Sample

attribute [local instance] Sample.gapZones

theorem parse_reset_sane_clock :
    let _ := Sample.gapZones
    ∃ reset, parseReset "resets 3pm America/New_York" Sample.january = some reset ∧
      Sample.january.nanos < reset.resetAt.nanos := by
  obtain ⟨reset,h⟩ : ∃ reset, parseReset "resets 3pm America/New_York" Sample.january =
      some reset := Option.isSome_iff_exists.1 (by decide +kernel)
  exact ⟨reset,h,(parse_reset_sane Sample.gapZones_resolves h).1⟩

/-- The clocks are compared in whole seconds: less than 300 seconds may be left. -/
theorem parse_reset_early :
    let _ := Sample.gapZones
    (parseReset "resets 12:05" Sample.january).map (·.resetAt.nanos - Sample.january.nanos) =
      some 299500000000 ∧ parseRelative (lowered "resets 12:05") = none ∧
    (parseDate ⟨20454⟩ (resetWords (lowered "resets 12:05"))).map (·.2.1) = some false := by
  decide +kernel

section Gap
variable [Zones] {now : OffsetTime} {date : Date} {hour minute : Nat} {text name : String}

/-- The text names a day without its year and a clock time, which does not exist in the zone on
that day of the current year. -/
structure Skipped (text : String) (now : OffsetTime) (name : String) (date : Date)
    (hour minute : Nat) : Prop where
  zone : Zone.fromText text.toList now.offset = .iana name
  clock : parseClock (resetWords (lowered text)) = some (hour,minute)
  dated : parseDate ((Zone.iana name).localDate now) (resetWords (lowered text)) =
    some (date,true,false)
  skipped : (Zone.iana name).candidates (date.days * secondsPerDay + hour * 3600 + minute * 60) = []
  ahead : ((Zone.iana name).localDate now).days ≤ date.days

/-- The text is refused exactly where the time cannot be found in the next year either. -/
theorem skipped_time_refused_iff (h : Skipped text now name date hour minute) :
    parseReset text now = none ↔ Unread text ∨ parseRelative (lowered text) = none ∧
      ∀ next, date.withYear (date.year + 1) = some next →
        (Zone.iana name).resolve next hour minute now = none := by
  by_cases hread : Unread text
  · exact iff_of_true (parseReset_unread hread) (.inl hread)
  have htoday : (Zone.iana name).resolve date hour minute now = none := by
    unfold Zone.resolve
    rw [h.skipped]
    split <;> rfl
  have hwall : wallReset text now = none ↔ ∀ next, date.withYear (date.year + 1) = some next →
      (Zone.iana name).resolve next hour minute now = none := by
    simp only [wallReset,h.zone,h.clock,h.dated,Option.bind_eq_bind,Option.bind_some,
      Zone.occurrence,htoday,if_true,Bool.false_eq_true,if_false,Option.bind_eq_none_iff,
      Bool.true_eq_false,false_and,reduceCtorEq]
    rw [← Option.bind_eq_none_iff,← Option.eq_none_iff_forall_ne_some]
  rw [parseReset_eq hread,or_iff_right hread]
  cases hrelative : parseRelative (lowered text) with
  | some => simp
  | none => simpa using hwall

end Gap

/-- There is no such day in the next year. -/
theorem skipped_time_refused_leap :
    let _ := Sample.gapZones
    parseReset "resets Feb 29 2:30am America/New_York" ⟨1830340800000000000,0⟩ = none := by
  have hskipped : Skipped "resets Feb 29 2:30am America/New_York" ⟨1830340800000000000,0⟩
      "America/New_York" ⟨21243⟩ 2 30 :=
    ⟨by decide +kernel,by decide +kernel,by decide +kernel,by decide +kernel,by decide +kernel⟩
  refine (skipped_time_refused_iff hskipped).2 (.inr ⟨by decide +kernel,fun next hnext => ?_⟩)
  have hnone : (Date.mk 21243).withYear ((Date.mk 21243).year + 1) = none := by decide +kernel
  cases hnone.symm.trans hnext

/-- The eighth of March at half past two is taken to be that of the next year. -/
theorem skipped_time_postponed :
    let _ := Sample.gapZones
    Skipped "resets Mar 8 2:30am America/New_York" Sample.january "America/New_York" ⟨20520⟩ 2 30 ∧
      (parseReset "resets Mar 8 2:30am America/New_York" Sample.january).map (fun reset =>
        ((Zone.iana "America/New_York").localDate reset.resetAt).year) = some 2027 :=
  ⟨⟨by decide +kernel,by decide +kernel,by decide +kernel,by decide +kernel,by decide +kernel⟩,
    by decide +kernel⟩

def durationUnits : List (String × Int) :=
  [("hour",3600),("hr",3600),("h",3600),("minute",60),("min",60),("m",60),("second",1),("sec",1),
    ("s",1)]

/-- A unit as it may be written, with or without the `s` of a plural. -/
def durationUnit (token : List Char) : Option Int :=
  durationUnits.findSome? fun (unit,seconds) =>
    if token = unit.toList ∨ token = unit.toList ++ ['s'] then some seconds else none

def startsNumber (token : List Char) : Bool := token.head?.any Char.isDigit

/-- What a duration is meant to say: quantities with their units, an `and` between them, up to the
first word that is no number. There is none if a quantity is not understood. -/
def durationPhrase : List (List Char) → Option (Int × List (List Char))
  | [] => some (0,[])
  | token :: tokens =>
    if startsNumber token then
      match parseSigned (2 ^ 63 - 1) token, tokens with
      | some value, unit :: tokens => do
        let seconds ← durationUnit unit
        let (sum,rest) ← durationPhrase tokens
        return (value * seconds + sum,rest)
      | _, _ => none
    else if token = "and".toList ∧ tokens.head?.any startsNumber then durationPhrase tokens
    else some (0,token :: tokens)

def durationCues : List (String × Nat) := [("resets in",2),("reset in",2),("try again in",3)]

/-- The words behind the cue. -/
def afterCue (text : List Char) : Option (List (List Char)) :=
  durationCues.findSome? fun (cue,words) =>
    (fromFirst cue.toList text).map fun fragment => (resetWords fragment).drop words

/-- What the loop over the words adds up. -/
def addedSeconds : List (List Char) → Option Int → Int
  | [], _ => 0
  | token :: tokens, number =>
    match parseSigned (2 ^ 63 - 1) token, number with
    | some value, _ => addedSeconds tokens (some value)
    | none, none => addedSeconds tokens none
    | none, some value => value * (unitSeconds token).getD 0 + addedSeconds tokens none

theorem relativeSeconds_added {number : Option Int}
    {seconds total : Int} (h : relativeSeconds tokens number seconds = some total) :
    total = seconds + addedSeconds tokens number := by
  fun_induction relativeSeconds tokens number seconds with
  | case1 number seconds =>
    cases h
    simp [addedSeconds]
  | case2 token tokens number seconds value hvalue ih =>
    simp only [addedSeconds,hvalue]
    exact ih h
  | case3 token tokens seconds hvalue ih =>
    simp only [addedSeconds,hvalue]
    exact ih h
  | case4 token tokens seconds value hvalue ih =>
    obtain ⟨multiplier,hmultiplier,h⟩ := Option.bind_eq_some_iff.1 h
    obtain ⟨product,hproduct,h⟩ := Option.bind_eq_some_iff.1 h
    obtain ⟨sum,hsum,h⟩ := Option.bind_eq_some_iff.1 h
    have hchecked : ∀ {n m : Int}, checkedI64 n = some m → m = n := fun h =>
      (Option.some.inj (Option.ite_none_right_eq_some.1 h).2).symm
    split at h
    · cases h
    · rw [ih sum h,hchecked hsum,hchecked hproduct]
      simp only [addedSeconds,hvalue,hmultiplier,Option.getD_some]
      omega

theorem unitSeconds_of_durationUnit {token : List Char}
    (h : durationUnit token = some seconds) : unitSeconds token = some seconds := by
  obtain ⟨⟨unit,_⟩,hunit,h⟩ := List.exists_of_findSome?_eq_some h
  obtain ⟨htoken,hseconds⟩ := Option.ite_none_right_eq_some.1 h
  cases hseconds
  have hall : ∀ unit ∈ durationUnits, unitSeconds unit.1.toList = some unit.2 ∧
      unitSeconds (unit.1.toList ++ ['s']) = some unit.2 := by
    decide
  rcases htoken with rfl | rfl
  · exact (hall _ hunit).1
  · exact (hall _ hunit).2

theorem parseSigned_durationUnit {token : List Char}
    (h : durationUnit token = some seconds) : parseSigned (2 ^ 63 - 1) token = none := by
  obtain ⟨⟨unit,_⟩,hunit,h⟩ := List.exists_of_findSome?_eq_some h
  obtain ⟨htoken,-⟩ := Option.ite_none_right_eq_some.1 h
  have hall : ∀ unit ∈ durationUnits, parseSigned (2 ^ 63 - 1) unit.1.toList = none ∧
      parseSigned (2 ^ 63 - 1) (unit.1.toList ++ ['s']) = none := by
    decide
  rcases htoken with rfl | rfl
  · exact (hall _ hunit).1
  · exact (hall _ hunit).2

theorem addedSeconds_phrase {tokens rest : List (List Char)} {sum : Int}
    (h : durationPhrase tokens = some (sum,rest)) :
    addedSeconds tokens none = sum + addedSeconds rest none := by
  fun_induction durationPhrase tokens generalizing sum rest with
  | case1 =>
    cases h
    simp
  | case2 token hnumber value unit tokens hvalue ih =>
    obtain ⟨seconds,hunit,h⟩ := Option.bind_eq_some_iff.1 h
    obtain ⟨⟨sum',rest'⟩,hrest,h⟩ := Option.bind_eq_some_iff.1 h
    cases h
    simp only [addedSeconds,hvalue,parseSigned_durationUnit hunit,
      unitSeconds_of_durationUnit hunit,Option.getD_some,ih hrest]
    omega
  | case3 => cases h
  | case4 token tokens hnumber hand ih =>
    have hnone : parseSigned (2 ^ 63 - 1) token = none := by
      rw [hand.1]
      decide
    simpa only [addedSeconds,hnone] using ih h
  | case5 =>
    cases h
    simp

theorem addedSeconds_cue {cue : String × Nat} (hcue : cue ∈ durationCues) (text : List Char) :
    addedSeconds (resetWords (cue.1.toList ++ text)) none =
      addedSeconds ((resetWords (cue.1.toList ++ text)).drop cue.2) none := by
  obtain ⟨first,pieces,hpieces⟩ : ∃ first pieces,
      (text.splitOnP fun c => !c.isAlphanum && c != ':') = first :: pieces :=
    List.exists_cons_of_ne_nil (List.splitOnP_ne_nil _ _)
  have hin : parseSigned (2 ^ 63 - 1) ('i' :: 'n' :: first) = none := by
    simp [parseSigned,parseUnsigned]
  simp only [durationCues,List.mem_cons,List.not_mem_nil,or_false] at hcue
  rcases hcue with rfl | rfl | rfl <;>
  · simp [resetWords,List.splitOnP_cons_eq_if_modifyHead,hpieces,addedSeconds,hin]
    rfl

theorem fromFirst_prefix {word text fragment : List Char}
    (h : fromFirst word text = some fragment) : word <+: fragment := by
  induction text with
  | nil =>
    obtain ⟨rfl,-⟩ := Option.ite_none_right_eq_some.1 h
    exact List.nil_prefix
  | cons c text ih =>
    rw [fromFirst] at h
    split at h
    · next hword =>
      cases h
      exact List.isPrefixOf_iff_prefix.1 hword
    · exact ih h

theorem parseRelative_added {text : List Char} (h : parseRelative text = some seconds) :
    ∃ tokens, afterCue text = some tokens ∧ seconds = addedSeconds tokens none := by
  obtain ⟨fragment,hfragment,h⟩ := Option.bind_eq_some_iff.1 h
  obtain ⟨total,htotal,h⟩ := Option.bind_eq_some_iff.1 h
  obtain ⟨-,htotal'⟩ := Option.ite_none_right_eq_some.1 h
  cases htotal'
  have hadded := relativeSeconds_added htotal
  rw [Int.zero_add] at hadded
  have hcue : ∀ cue ∈ durationCues, fromFirst cue.1.toList text = some fragment →
      seconds = addedSeconds ((resetWords fragment).drop cue.2) none := by
    intro cue hmem hfound
    obtain ⟨rest,rfl⟩ := fromFirst_prefix hfound
    rw [hadded,addedSeconds_cue hmem]
  -- the cues are looked for in the same order
  simp only [afterCue,durationCues,List.findSome?_cons,List.findSome?_nil]
  rcases hfirst : fromFirst "resets in".toList text with - | found
  · rcases hsecond : fromFirst "reset in".toList text with - | found
    · rw [hfirst,hsecond] at hfragment
      simp only [Option.none_or] at hfragment
      simp only [hfragment,Option.map_none,Option.map_some]
      exact ⟨_,rfl,hcue ("try again in",3) (by simp [durationCues]) hfragment⟩
    · rw [hfirst,hsecond] at hfragment
      cases hfragment
      exact ⟨_,rfl,hcue ("reset in",2) (by simp [durationCues]) hsecond⟩
  · rw [hfirst] at hfragment
    cases hfragment
    exact ⟨_,rfl,hcue ("resets in",2) (by simp [durationCues]) hfirst⟩

/-- A relative reset is the sum of the phrase behind the cue exactly where that is understood, and
the numbers behind it add nothing. -/
theorem relative_reset_counted_iff [Zones] {text : String} {now : OffsetTime} {reset : ResetTime}
    {seconds : Int} (hrelative : parseRelative (lowered text) = some seconds)
    (h : parseReset text now = some reset) :
    reset.resetAt = now.plusSeconds seconds ∧
      ((∃ tokens rest, afterCue (lowered text) = some tokens ∧
          durationPhrase tokens = some (seconds,rest)) ↔
        ∃ tokens sum rest, afterCue (lowered text) = some tokens ∧
          durationPhrase tokens = some (sum,rest) ∧ addedSeconds rest none = 0) := by
  have hread : ¬ Unread text := fun hunread => by
    rw [parseReset_unread hunread] at h
    cases h
  rw [parseReset_eq hread,hrelative] at h
  cases h
  obtain ⟨tokens,htokens,hadded⟩ := parseRelative_added hrelative
  refine ⟨rfl,?_,?_⟩
  · rintro ⟨tokens',rest,htokens',hphrase⟩
    cases htokens.symm.trans htokens'
    have hsum := addedSeconds_phrase hphrase
    exact ⟨tokens,seconds,rest,htokens,hphrase,by omega⟩
  · rintro ⟨tokens',sum,rest,htokens',hphrase,hnothing⟩
    cases htokens.symm.trans htokens'
    have hsum := addedSeconds_phrase hphrase
    obtain rfl : sum = seconds := by omega
    exact ⟨tokens,rest,htokens,hphrase⟩

theorem relative_reset_counted_two :
    let _ := Sample.gapZones
    ∃ tokens rest, afterCue (lowered "resets in 1 hour and 5 mins") = some tokens ∧
      durationPhrase tokens = some (3900,rest) := by
  have hrelative : parseRelative (lowered "resets in 1 hour and 5 mins") = some 3900 := by
    decide +kernel
  obtain ⟨reset,h⟩ : ∃ reset, parseReset "resets in 1 hour and 5 mins" Sample.january =
      some reset := Option.isSome_iff_exists.1 (by decide +kernel)
  refine (relative_reset_counted_iff hrelative h).2.2 ⟨_,3900,[],rfl,?_,rfl⟩
  decide +kernel

/-- The two hours are passed over; months count as minutes; and so do later words in `m`. -/
theorem relative_reset_miscounted :
    let _ := Sample.gapZones
    let read := fun text => (parseReset text Sample.january).map fun reset =>
      (reset.resetAt.nanos - Sample.january.nanos) / nanosPerSec
    read "resets in 2h 30 minutes" = some 1800 ∧ read "resets in 3 months" = some 180 ∧
      read "resets in 5 minutes for 2 models" = some 420 ∧
      (afterCue (lowered "resets in 2h 30 minutes")).bind durationPhrase = none ∧
      (afterCue (lowered "resets in 3 months")).bind durationPhrase = none ∧
      ((afterCue (lowered "resets in 5 minutes for 2 models")).bind durationPhrase).map (·.1) =
        some 300 := by
  decide +kernel

end WatchMe
