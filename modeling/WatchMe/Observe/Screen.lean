import WatchMe.Mux.Composer

/-! # The live bottom of a tmux screen

`trusted_tmux_screen` classifies the lines of a capture, `actionable_bottom` joins the live ones
behind the adapter's boundary. The lines before the boundary reach the result through one bit only:
whether a code fence is open where the live region begins.
-/
namespace WatchMe
open Text

inductive LineProvenance where
  | liveOutput
  | transcript
  | codeFence
  | pasted
  | quote
  | chrome
  deriving DecidableEq

structure ScreenLine where
  text : List Char
  provenance : LineProvenance
  deriving DecidableEq

structure LiveScreen where
  lines : List ScreenLine
  trustedBoundary : Option Nat
  touchesBottom : Bool

def ScreenLine.live (line : ScreenLine) : Bool := decide (line.provenance = .liveOutput)

def joinLines (lines : List (List Char)) : List Char := ['\n'].intercalate lines

namespace LiveScreen

def actionableBottom (screen : LiveScreen) (maxLines : Nat) : Option (List Char) := do
  let boundary ← screen.trustedBoundary
  if !screen.touchesBottom || decide (screen.lines.length ≤ boundary) then none
  else
    let eligible := (screen.lines.drop boundary).filter ScreenLine.live
    if eligible.isEmpty || !(← screen.lines.getLast?).live then none
    else some (joinLines ((eligible.reverse.take maxLines).reverse.map ScreenLine.text))

def isFence (line : List Char) : Bool := "```".toList.isPrefixOf (trimStart line)

/-- The lines from an index on, where `fenced` says whether a fence is open before them. -/
def classify (boundary : Option Nat) : Bool → Nat → List (List Char) → List ScreenLine
  | _, _, [] => []
  | fenced, index, text :: lines =>
    let fenced' := if isFence text then !fenced else fenced
    let provenance : LineProvenance :=
      if isFence text || fenced then .codeFence
      else if boundary.any (fun first => decide (first ≤ index)) then .liveOutput
      else if (trimStart text).head? = some '>' ∨ (trimStart text).head? = some '│' then .quote
      else .transcript
    ⟨text,provenance⟩ :: classify boundary fenced' (index + 1) lines

end LiveScreen

def TrustedScreenBoundary.isSupported (chrome : TrustedScreenBoundary) : Bool :=
  !chrome.adapter.isEmpty && decide (chrome.version = 1)

def trustedTmuxScreen (capture : List Char) (chrome : TrustedScreenBoundary) : LiveScreen :=
  let raw := textLines capture
  let boundary := (if chrome.isSupported then some chrome.firstLiveLine else none).filter
    fun first => decide (first < raw.length)
  ⟨LiveScreen.classify boundary false 0 raw,boundary,boundary.isSome⟩

namespace LiveScreen

def fencedAfter (lines : List (List Char)) : Bool := decide (lines.countP isFence % 2 = 1)

theorem fencedAfter_snoc (lines : List (List Char)) (text : List Char) :
    fencedAfter (lines ++ [text]) =
      if isFence text then !fencedAfter lines else fencedAfter lines := by
  have hflip : ∀ n : Nat, decide ((n + 1) % 2 = 1) = !decide (n % 2 = 1) := by
    intro n
    rw [← decide_not,decide_eq_decide]
    omega
  cases h : isFence text <;> simp [fencedAfter,List.countP_append,h,hflip]

theorem length_classify (boundary : Option Nat) (fenced : Bool) (index : Nat)
    (lines : List (List Char)) :
    (classify boundary fenced index lines).length = lines.length := by
  induction lines generalizing fenced index with
  | nil => rfl
  | cons text lines ih => simp [classify,ih]

theorem classify_append (boundary : Option Nat) (before after : List (List Char)) :
    classify boundary false 0 (before ++ after) = classify boundary false 0 before ++
      classify boundary (fencedAfter before) before.length after := by
  induction before using List.reverseRecOn generalizing after with
  | nil => rfl
  | append_singleton before text ih =>
    rw [List.append_assoc,ih,ih [text],fencedAfter_snoc,List.length_append,List.append_assoc]
    rfl

theorem live_classify {first : Nat} (before after : List (List Char)) (h : first ≤ before.length) :
    ∃ picked : List (List Char × Nat), picked.Sublist (after.zipIdx before.length) ∧
      (∀ p ∈ picked, first ≤ p.2 ∧ isFence p.1 = false ∧
        fencedAfter ((before ++ after).take p.2) = false) ∧
      ((classify (some first) (fencedAfter before) before.length after).filter ScreenLine.live).map
        ScreenLine.text = picked.map Prod.fst := by
  induction after generalizing before with
  | nil => exact ⟨[],List.Sublist.refl _,by simp,rfl⟩
  | cons text after ih =>
    obtain ⟨picked,hsub,hall,htexts⟩ := ih (before ++ [text]) (by simp; omega)
    rw [List.append_assoc] at hall
    rw [List.length_append,List.length_singleton] at hsub htexts
    rw [fencedAfter_snoc] at htexts
    by_cases hlive : isFence text = false ∧ fencedAfter before = false
    · refine ⟨(text,before.length) :: picked,hsub.cons_cons _,?_,?_⟩
      · rw [List.forall_mem_cons]
        exact ⟨⟨h,hlive.1,by simpa using hlive.2⟩,hall⟩
      · rw [List.map_cons,← htexts]
        simp [classify,hlive,h,ScreenLine.live]
    · refine ⟨picked,hsub.cons _,hall,?_⟩
      rw [← htexts]
      have hfence : (isFence text || fencedAfter before) = true := by
        cases hfence : isFence text <;> cases hbefore : fencedAfter before <;> simp_all
      simp [classify,hfence,ScreenLine.live]

def bottomOf (maxLines : Nat) (lines : List ScreenLine) : Option (List Char) :=
  let eligible := lines.filter ScreenLine.live
  if eligible.isEmpty || !(lines.getLast?.any ScreenLine.live) then none
  else some (joinLines ((eligible.reverse.take maxLines).reverse.map ScreenLine.text))

theorem actionableBottom_append (before live : List ScreenLine) (maxLines : Nat) :
    actionableBottom ⟨before ++ live,some before.length,true⟩ maxLines =
      bottomOf maxLines live := by
  cases live with
  | nil => simp [actionableBottom,bottomOf]
  | cons line live =>
    have hlast : (before ++ line :: live).getLast? = some ((line :: live).getLast (by simp)) := by
      rw [List.getLast?_append_of_ne_nil _ (by simp),List.getLast?_eq_some_getLast]
    have hlength : (!true || decide ((before ++ line :: live).length ≤ before.length)) = false := by
      simp
    simp only [actionableBottom,bottomOf,hlast,List.getLast?_eq_some_getLast (List.cons_ne_nil _ _),
      Option.bind_eq_bind,Option.bind_some,List.drop_left,hlength]
    rfl

end LiveScreen

open LiveScreen

theorem trusted_bottom_eq (capture : List Char) (chrome : TrustedScreenBoundary) (maxLines : Nat) :
    (trustedTmuxScreen capture chrome).actionableBottom maxLines =
      if chrome.isSupported ∧ chrome.firstLiveLine < (textLines capture).length then
        bottomOf maxLines (classify (some chrome.firstLiveLine)
          (fencedAfter ((textLines capture).take chrome.firstLiveLine)) chrome.firstLiveLine
          ((textLines capture).drop chrome.firstLiveLine))
      else none := by
  unfold trustedTmuxScreen
  generalize textLines capture = raw
  generalize chrome.firstLiveLine = first
  by_cases h : chrome.isSupported = true ∧ first < raw.length
  · simp only [h.1,if_true,Option.filter,h.2,decide_true]
    have hlength : (raw.take first).length = first := List.length_take_of_le (by omega)
    have hsplit := classify_append (some first) (raw.take first) (raw.drop first)
    rw [List.take_append_drop] at hsplit
    have hbefore := length_classify (some first) false 0 (raw.take first)
    rw [hsplit,← actionableBottom_append (classify (some first) false 0 (raw.take first)),hbefore,
      hlength]
    rfl
  · rw [if_neg h]
    cases hs : chrome.isSupported with
    | false => rfl
    | true =>
      simp only [if_true,Option.filter,decide_eq_true_eq,if_neg fun hlt => h ⟨hs,hlt⟩]
      rfl

/-- Two captures that differ only before the live region, and there not in the parity of fences. -/
structure SameLive (first : Nat) (raw raw' : List (List Char)) : Prop where
  length_eq : raw.length = raw'.length
  live_eq : raw.drop first = raw'.drop first
  parity_eq : (raw.take first).countP isFence % 2 = (raw'.take first).countP isFence % 2

/-- Lines of a capture from the boundary on that no fence hides. -/
structure PickedLive (first : Nat) (raw : List (List Char)) (picked : List (List Char × Nat)) :
    Prop where
  lines : picked.Sublist raw.zipIdx
  behind : ∀ p ∈ picked, first ≤ p.2
  notFence : ∀ p ∈ picked, isFence p.1 = false
  unfenced : ∀ p ∈ picked, (raw.take p.2).countP isFence % 2 = 0

theorem bottom_picked {capture text : List Char} {chrome : TrustedScreenBoundary} {maxLines : Nat}
    (h : (trustedTmuxScreen capture chrome).actionableBottom maxLines = some text) :
    ∃ picked, PickedLive chrome.firstLiveLine (textLines capture) picked ∧
      text = joinLines (picked.map Prod.fst) := by
  rw [trusted_bottom_eq,Option.ite_none_right_eq_some] at h
  obtain ⟨⟨-,hfirst⟩,h⟩ := h
  generalize textLines capture = raw at *
  generalize chrome.firstLiveLine = first at *
  have hlength : (raw.take first).length = first := List.length_take_of_le (by omega)
  obtain ⟨picked,hsub,hall,htexts⟩ :=
    live_classify (raw.take first) (raw.drop first) (Nat.le_of_eq hlength.symm)
  rw [hlength] at hsub htexts
  rw [bottomOf,Option.ite_none_left_eq_some,Option.some.injEq] at h
  obtain ⟨-,rfl⟩ := h
  have hlast : (picked.reverse.take maxLines).reverse.Sublist picked :=
    List.reverse_sublist.1 (by simpa using List.take_sublist _ _)
  refine ⟨(picked.reverse.take maxLines).reverse,⟨?_,?_,?_,?_⟩,?_⟩
  · have hzip : raw.zipIdx = (raw.take first).zipIdx ++ (raw.drop first).zipIdx first := by
      conv_lhs => rw [← List.take_append_drop first raw,List.zipIdx_append,hlength,Nat.zero_add]
    rw [hzip]
    exact hlast.trans (hsub.trans (List.sublist_append_right _ _))
  · exact fun p hp => (hall p (hlast.subset hp)).1
  · exact fun p hp => (hall p (hlast.subset hp)).2.1
  · intro p hp
    have hopen := (hall p (hlast.subset hp)).2.2
    rw [List.take_append_drop] at hopen
    simpa [fencedAfter] using hopen
  · simp only [List.map_reverse,List.map_take,← htexts]

theorem scrollback_inert (chrome : TrustedScreenBoundary) (capture : List Char) (maxLines : Nat) :
    (∀ capture', SameLive chrome.firstLiveLine (textLines capture) (textLines capture') →
      (trustedTmuxScreen capture chrome).actionableBottom maxLines =
        (trustedTmuxScreen capture' chrome).actionableBottom maxLines) ∧
    ∀ text, (trustedTmuxScreen capture chrome).actionableBottom maxLines = some text →
      ∃ picked, PickedLive chrome.firstLiveLine (textLines capture) picked ∧
        text = joinLines (picked.map Prod.fst) := by
  refine ⟨fun capture' h => ?_,fun _ h => bottom_picked h⟩
  rw [trusted_bottom_eq,trusted_bottom_eq,h.length_eq,h.live_eq,fencedAfter,h.parity_eq]
  rfl

namespace Sample

def chrome : TrustedScreenBoundary := ⟨"tmux",1,1⟩

end Sample

/-- An open fence above the boundary hides the live line, whatever the fence says. -/
theorem scrollback_inert_fence :
    (trustedTmuxScreen "```a\nyes".toList Sample.chrome).actionableBottom 9 =
        (trustedTmuxScreen "```b\nyes".toList Sample.chrome).actionableBottom 9 ∧
      ∀ text, (trustedTmuxScreen "```a\nyes".toList Sample.chrome).actionableBottom 9 = some text →
        ∃ picked, PickedLive 1 (textLines "```a\nyes".toList) picked ∧
          text = joinLines (picked.map Prod.fst) :=
  (scrollback_inert Sample.chrome "```a\nyes".toList 9).imp_left fun h =>
    h "```b\nyes".toList ⟨by decide,by decide,by decide⟩

end WatchMe
