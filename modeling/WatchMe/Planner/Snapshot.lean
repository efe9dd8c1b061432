import WatchMe.Redact
import WatchMe.Text.Lines
import WatchMe.Text.Utf8

/-! # The snapshot for a planner -/
namespace WatchMe

open Text

structure SnapshotTerminal where
  lineCount : Nat
  text : List Char
  truncated : Bool

/-- The fields that are only copied are one of type `α`, and one of type `β` in observations. -/
structure SnapshotBuildInput (α β : Type) where
  copied : α
  terminalText : Option String
  observations : List (β × String)
  maxSnapshotBytes : Nat
  extraSecretNames : List String

structure RedactedSnapshot (α β : Type) where
  copied : α
  terminal : Option SnapshotTerminal
  observations : List (β × String)
  redaction : RedactionReport

class SnapshotText (α β : Type) where
  toVec : RedactedSnapshot α β → List UInt8

/-- `String::truncate`, which panics within a character. -/
def truncate (text : List Char) (length : Nat) : Option (List Char) :=
  if (encodeUtf8 text).length < length then some text
  else if isCharBoundary (encodeUtf8 text) length then
    (fromUtf8 ((encodeUtf8 text).take length)).toOption
  else none

/-- The larger of 256 and three quarters of the budget, whose product saturates. -/
def terminalCut (maxSnapshotBytes : Nat) : Nat :=
  max (min (maxSnapshotBytes * 3) (2 ^ 64 - 1) / 4) 256

/-- The loop behind the cut has nothing to do: a text ends at a boundary. -/
def boundTerminal (redacted : List Char) (cut : Nat) : Option SnapshotTerminal :=
  let terminal truncated bounded :=
    ⟨min (bufLines '\n' '\r' bounded).length 300,bounded,truncated⟩
  if cut < (encodeUtf8 redacted).length then (truncate redacted cut).map (terminal true)
  else some (terminal false redacted)

theorem truncate_boundary {text : List Char} {n : Nat} (hn : n ≤ (encodeUtf8 text).length)
    (h : isCharBoundary (encodeUtf8 text) n = true) :
    ∃ t,truncate text n = some t ∧ Longest text t n ∧ (encodeUtf8 t).length = n := by
  obtain ⟨t,ht,hback⟩ := backToBoundary_encode hn
  have hlength : (encodeUtf8 t).length = n := by
    cases n with
    | zero => exact Nat.le_zero.1 ht.fits
    | succ n => rw [← hback,backToBoundary,if_pos h]
  refine ⟨t,?_,ht,hlength⟩
  obtain ⟨rest,rfl⟩ := ht.begins
  rw [truncate,if_neg (Nat.not_lt.2 hn),if_pos h,encodeUtf8_append,List.take_left' hlength,
    fromUtf8_encodeUtf8]
  rfl

/-- The text fits or its cut falls between two characters. -/
def Cuts (text : List Char) (cut : Nat) : Prop :=
  (encodeUtf8 text).length ≤ cut ∨ isCharBoundary (encodeUtf8 text) cut = true

theorem boundTerminal_cases (redacted : List Char) (cut : Nat) :
    Cuts redacted cut ∧ (∃ terminal,boundTerminal redacted cut = some terminal ∧
      Longest redacted terminal.text cut ∧
      (terminal.truncated = true ↔ terminal.text ≠ redacted)) ∨
    ¬Cuts redacted cut ∧ boundTerminal redacted cut = none := by
  by_cases hfits : (encodeUtf8 redacted).length ≤ cut
  · refine .inl ⟨.inl hfits,_,if_neg (Nat.not_lt.2 hfits),?_,by simp⟩
    exact ⟨List.prefix_rfl,hfits,fun p hp _ => hp⟩
  have hlt := Nat.lt_of_not_le hfits
  rw [boundTerminal,if_pos hlt]
  by_cases hboundary : isCharBoundary (encodeUtf8 redacted) cut = true
  · obtain ⟨t,ht,hlongest,hlength⟩ := truncate_boundary hlt.le hboundary
    refine .inl ⟨.inr hboundary,_,congrArg (Option.map _) ht,hlongest,iff_of_true rfl ?_⟩
    rintro rfl
    exact hfits hlength.le
  · rw [truncate,if_neg (Nat.not_lt.2 hlt.le),if_neg hboundary]
    exact .inr ⟨not_or.2 ⟨hfits,hboundary⟩,rfl⟩

section

variable {α β : Type} [RedactText] [SnapshotText α β]

def SnapshotBuildInput.redact (input : SnapshotBuildInput α β) (text : String) :
    String × RedactionReport :=
  RedactText.redactText text input.extraSecretNames

def assembleSnapshot (input : SnapshotBuildInput α β)
    (terminal : Option SnapshotTerminal) : Except String (RedactedSnapshot α β) :=
  let observations := (input.observations.take 32).map fun o => (o.1,input.redact o.2)
  let reports := (input.terminalText.map input.redact).toList ++ observations.map (·.2)
  let snapshot := ⟨input.copied,terminal,observations.map fun o => (o.1,o.2.1),
    reports.foldl (fun report found => report.merge found.2) ⟨0,∅⟩⟩
  if observations.isEmpty then .error "snapshot requires at least one observation"
  else if input.maxSnapshotBytes < (SnapshotText.toVec snapshot).length then
    .error s!"snapshot exceeds max_snapshot_bytes ({input.maxSnapshotBytes})"
  else .ok snapshot

/-- `none` is a panic. -/
def buildRedactedSnapshot (input : SnapshotBuildInput α β) :
    Option (Except String (RedactedSnapshot α β)) :=
  match input.terminalText with
  | none => some (assembleSnapshot input none)
  | some text =>
    (boundTerminal (input.redact text).1.toList (terminalCut input.maxSnapshotBytes)).map
      fun terminal => assembleSnapshot input (some terminal)

theorem assembleSnapshot_terminal {input : SnapshotBuildInput α β}
    {terminal : Option SnapshotTerminal} {snapshot : RedactedSnapshot α β}
    (h : assembleSnapshot input terminal = .ok snapshot) : snapshot.terminal = terminal := by
  simp only [assembleSnapshot] at h
  split_ifs at h
  cases h
  rfl

theorem snapshot_text_longest (input : SnapshotBuildInput α β) (text : String) :
    let redacted := (input.redact text).1.toList
    let cut := terminalCut input.maxSnapshotBytes
    let built := buildRedactedSnapshot { input with terminalText := some text }
    (built ≠ none ↔ Cuts redacted cut) ∧ ∀ snapshot,built = some (.ok snapshot) →
      ∃ terminal,snapshot.terminal = some terminal ∧ Longest redacted terminal.text cut ∧
        (terminal.truncated = true ↔ terminal.text ≠ redacted) := by
  intro redacted cut built
  have hbuilt : built = (boundTerminal redacted cut).map fun terminal =>
      assembleSnapshot { input with terminalText := some text } (some terminal) := rfl
  obtain ⟨hcuts,terminal,hterminal,hspec⟩ | ⟨hcuts,hterminal⟩ := boundTerminal_cases redacted cut
  all_goals rw [hbuilt,hterminal]
  · refine ⟨iff_of_true nofun hcuts,fun snapshot h => ⟨terminal,?_,hspec⟩⟩
    exact assembleSnapshot_terminal (Option.some.inj h)
  · exact ⟨iff_of_false (fun h => h rfl) hcuts,nofun⟩

end

/-- No pattern occurs in the text, and the cut falls into its last character. -/
theorem snapshot_panics :
    let _ : RedactText := ⟨fun text _ => (text,⟨0,∅⟩)⟩
    let _ : SnapshotText Unit Unit := ⟨fun _ => []⟩
    buildRedactedSnapshot (α := Unit) (β := Unit)
      ⟨(),some (.ofList (.replicate 255 'a' ++ ['é'])),[((),"")],300,[]⟩ = none := by
  intro _ _
  have hpanics : ∀ text,boundTerminal text (terminalCut 300) = none → buildRedactedSnapshot
      (α := Unit) (β := Unit) ⟨(),some (.ofList text),[((),"")],300,[]⟩ = none := by
    intro text h
    rw [← String.toList_ofList (l := text)] at h
    exact congrArg (Option.map _) h
  exact hpanics _ (Option.isNone_iff_eq_none.1 (by decide +kernel))

end WatchMe
