import WatchMe.Agents.Codex

/-! # Routing to an independent planner

A planner of the provider family that failed is not asked. The router compares families after
`normalizeFamily`, which takes off white space and lowers ASCII letters.
-/
namespace WatchMe
open Text

/-- The part of a planner's configuration that the router reads. -/
structure PlannerConfig where
  enabled : Bool

/-- The limits are 32-bit counters. -/
structure PlanningConfig where
  enabled : Bool
  maxCallsPerEvent : Nat
  allowIndependentSecondOpinion : Bool
  maxCallsPerSessionPerDay : Nat
  maxConcurrentCalls : Nat
  allowUnknownProviderFamily : Bool
  plannerPriority : List String
  planners : StrMap PlannerConfig

structure PlannerCapability where
  id : String
  executable : String
  configuredFamily : String
  resolvedFamily : String
  available : Bool
  unsafeMode : Bool

structure ResolvedPlanner where
  id : String
  executable : String
  providerFamily : String
  args : List String
  deriving DecidableEq

def normalizeFamily (family : String) : String :=
  .ofList ((trim family).toList.map Char.toLower)

/-- The checks that a candidate has to pass, in their order. -/
def PlanningConfig.offers (planning : PlanningConfig) (failedFamily id : String)
    (candidate : PlannerCapability) : Bool :=
  let family := normalizeFamily candidate.resolvedFamily
  candidate.available && !candidate.unsafeMode
    && (planning.planners[id]?).all (·.enabled)
    && (family != "unknown" || planning.allowUnknownProviderFamily)
    && family != normalizeFamily failedFamily

def PlannerCapability.resolved (candidate : PlannerCapability) : ResolvedPlanner where
  id := candidate.id
  executable := candidate.executable
  providerFamily := normalizeFamily candidate.resolvedFamily
  args := []

/-- The loop over the priorities. A candidate that was looked at is taken out of the map, so a
priority that is listed twice counts once. -/
def PlanningConfig.eligible (planning : PlanningConfig) (failedFamily : String) :
    List String → StrMap PlannerCapability → List ResolvedPlanner
  | [], _ => []
  | id :: ids, byId =>
    match byId[id]? with
    | none => planning.eligible failedFamily ids byId
    | some candidate =>
      let rest := planning.eligible failedFamily ids (byId.erase id)
      if planning.offers failedFamily id candidate then candidate.resolved :: rest else rest

def resolveEligiblePlanners (planning : PlanningConfig) (failedFamily : String)
    (candidates : List PlannerCapability) : List ResolvedPlanner :=
  if !planning.enabled then []
  else planning.eligible failedFamily planning.plannerPriority
    (.ofList (candidates.map fun candidate => (candidate.id,candidate)))

theorem toNat_toLower (c : Char) :
    c.toLower.toNat = if 65 ≤ c.toNat ∧ c.toNat ≤ 90 then c.toNat + 32 else c.toNat := by
  unfold Char.toLower
  split
  · next h =>
    have hupper : 65 ≤ c.toNat ∧ c.toNat ≤ 90 := h
    have hsum : (c.val + ('a'.val - 'A'.val)).toNat = (c.toNat + 32) % 2 ^ 32 :=
      UInt32.toNat_add ..
    rw [if_pos hupper]
    change (c.val + ('a'.val - 'A'.val)).toNat = _
    omega
  · next h =>
    have hother : ¬ (65 ≤ c.toNat ∧ c.toNat ≤ 90) := h
    rw [if_neg hother]

theorem toLower_toLower (c : Char) : c.toLower.toLower = c.toLower := by
  refine Char.ext (UInt32.toNat_inj.1 ?_)
  change c.toLower.toLower.toNat = c.toLower.toNat
  have hlower : ¬ (65 ≤ c.toLower.toNat ∧ c.toLower.toNat ≤ 90) := by
    rw [toNat_toLower]
    split <;> omega
  rw [toNat_toLower c.toLower,if_neg hlower]

theorem isWhiteSpace_letter {c : Char} (h : 65 ≤ c.toNat ∧ c.toNat ≤ 122) :
    isWhiteSpace c = false := by
  simp only [isWhiteSpace]
  grind

theorem isWhiteSpace_toLower (c : Char) : isWhiteSpace c.toLower = isWhiteSpace c := by
  have hlower := toNat_toLower c
  split at hlower
  · rw [isWhiteSpace_letter (by omega),isWhiteSpace_letter (by omega)]
  · unfold isWhiteSpace
    rw [hlower]

theorem normalizeFamily_normalizeFamily (family : String) :
    normalizeFamily (normalizeFamily family) = normalizeFamily family := by
  have htrim : ∀ text : String, trim text = .ofList (trimMatches isWhiteSpace text.toList) :=
    fun _ => rfl
  simp only [normalizeFamily,htrim,String.toList_ofList,trimMatches_map isWhiteSpace_toLower,
    trimMatches_trimMatches,List.map_map]
  congr 2
  exact funext toLower_toLower

theorem mem_eligible {planning : PlanningConfig} {failedFamily : String}
    {planner : ResolvedPlanner} {ids : List String} {byId : StrMap PlannerCapability}
    (h : planner ∈ planning.eligible failedFamily ids byId) :
    normalizeFamily planner.providerFamily ≠ normalizeFamily failedFamily := by
  induction ids generalizing byId with
  | nil => cases h
  | cons id ids ih =>
    unfold PlanningConfig.eligible at h
    split at h
    · exact ih h
    · next candidate _ =>
      split at h
      · next hoffers =>
        rcases List.mem_cons.1 h with rfl | hrest
        · simp only [PlanningConfig.offers,Bool.and_eq_true,bne_iff_ne] at hoffers
          rw [PlannerCapability.resolved,normalizeFamily_normalizeFamily]
          exact hoffers.2
        · exact ih hrest
      · exact ih h

end WatchMe
