import WatchMe.Mux.TmuxTarget

/-! # The composer of a tmux pane

Whether the daemon may type into a tmux pane is read off the last line of a bounded capture. The
bound keeps the head of the output, so that the last line of the capture is the bottom line of
the pane only for an output within the bound.
-/
namespace WatchMe
open Effects Program Text
variable {socketPath serverInstance sessionId windowId paneId tty : String}

namespace Tmux

/-- What is kept of a complete output: at most so many bytes of its head, cut at a boundary. -/
def kept (output : List UInt8) (maxBytes : Nat) : Except MuxError (List Char) :=
  (truncateCapture (output.take (maxBytes + utf8BoundaryLookahead + 1)) maxBytes).map (·.1)

theorem kept_short {output : List UInt8} {maxBytes : Nat} {text : List Char}
    (hshort : output.length ≤ maxBytes) (h : kept output maxBytes = .ok text) :
    text = lossy output := by
  have htake : output.take (maxBytes + utf8BoundaryLookahead + 1) = output :=
    List.take_of_length_le (by omega)
  rw [kept,htake,map_ok_iff] at h
  obtain ⟨⟨head,boundary,truncated⟩,h,rfl⟩ := h
  unfold truncateCapture at h
  obtain ⟨validBytes,hvalid,h⟩ := bind_ok_iff.1 h
  have hwhole : validBytes = output := by
    unfold validPart at hvalid
    split at hvalid
    · cases hvalid
      rfl
    · rw [if_neg (by omega)] at hvalid
      cases hvalid
  subst hwhole
  obtain ⟨_,-,h⟩ := bind_ok_iff.1 h
  cases h
  rw [Nat.min_eq_left hshort,backToBoundary_length,List.take_length]

section Capture
variable [DebugText] {server : TmuxServer} {identity : MuxIdentity} {h : List TmuxEvent}

def Uncapturing (server : TmuxServer) (op : TmuxOp) : Prop :=
  ∀ pane lines, op ≠ .command (args server ++ captureArguments pane lines)

omit [DebugText] in
theorem asks_settled {α : Type} {φ : TmuxOp → Prop} (x : Except MuxError α) :
    (settled x).run.Asks (S := tmuxSig) φ := by
  cases x <;> trivial

omit [DebugText] in
theorem asks_askThen {α : Type} {φ : TmuxOp → Prop} {op : TmuxOp} {f : op.Answer → TmuxM α}
    (hop : φ op) (hf : ∀ r, (f r).run.Asks (S := tmuxSig) φ) :
    (ask op >>= f).run.Asks (S := tmuxSig) φ :=
  (Asks.run_lift (p := request (S := tmuxSig) op) ⟨hop,fun _ => trivial⟩).run_bind hf

omit [DebugText] in
theorem asks_query (target : String) :
    (query server target).run.Asks (S := tmuxSig) (Uncapturing server) := by
  refine (asks_settled _).run_bind fun _ => Asks.run_bind ?_ fun output => ?_
  · refine asks_askThen (fun pane lines heq => ?_) fun r => ?_
    · have hlist := List.append_cancel_left (TmuxOp.command.inj heq)
      simp [queryArguments,captureArguments] at hlist
    · exact (asks_settled r).run_bind fun _ => trivial
  · refine (asks_settled _).run_bind fun text => (asks_settled _).run_bind fun split => ?_
    refine asks_askThen (fun _ _ heq => by cases heq) fun r => ?_
    exact (asks_settled _).run_bind fun process => asks_settled _

theorem asks_validateIdentity :
    (validateIdentity server identity).run.Asks (S := tmuxSig) (Uncapturing server) := by
  refine Asks.run_bind ((asks_query identity.paneId).bind fun _ => trivial) fun info => ?_
  dsimp only
  split <;> trivial

omit [DebugText] in
theorem settled_bind_ok {α β : Type} {x : Except MuxError α} {f : α → TmuxM β} {b : β}
    (ht : Traces (settled x >>= f).run h (.ok b)) :
    ∃ a, x = .ok a ∧ Traces (f a).run h (.ok b) := by
  cases x with
  | error =>
    obtain ⟨-,herror⟩ := Traces.done_inv ht
    cases herror
  | ok a => exact ⟨a,rfl,ht⟩

omit [DebugText] in
theorem run_traces {arguments : List String} {limit : Nat} {output : List UInt8}
    (ht : Traces (run server arguments limit).run h (.ok output)) :
    ∃ chunks, h = [⟨.command (args server ++ arguments),.ok chunks⟩] ∧
      output = readBounded limit chunks := by
  obtain ⟨answer,k,rfl,hk⟩ := Traces.run_request_inv (S := tmuxSig)
    (.command (args server ++ arguments)) ht
  obtain ⟨chunks,rfl,hdone⟩ := settled_bind_ok hk
  obtain ⟨rfl,heq⟩ := Traces.done_inv hdone
  cases heq
  exact ⟨chunks,rfl,rfl⟩

theorem captureTail_traces {lines maxBytes : Nat} {capture : Capture} (hlines : lines ≠ 0)
    (hbytes : maxBytes ≠ 0)
    (ht : Traces (captureTail server identity lines maxBytes).run h (.ok capture)) :
    ∃ chunks, (∀ printed, ⟨.command (args server ++ captureArguments identity.paneId lines),
        .ok printed⟩ ∈ h ↔ printed = chunks) ∧
      kept chunks.flatten maxBytes = .ok capture.text.toList := by
  -- the validations before and after do not capture
  have hother : ∀ {k : List TmuxEvent} {r : Except MuxError Unit},
      Traces (validateIdentity server identity).run k r → ∀ printed,
      ⟨.command (args server ++ captureArguments identity.paneId lines),.ok printed⟩ ∉ k :=
    fun hk _ hmem => asks_validateIdentity.traced hk _ hmem _ _ rfl
  rcases ht.run_bind_inv with ⟨error,herror,-⟩ | ⟨h₁,k₁,u,rfl,hbefore,hk₁⟩
  · cases herror
  rw [if_neg (by simp [hlines,hbytes])] at hk₁
  rcases hk₁.run_bind_inv with ⟨error,herror,-⟩ | ⟨h₂,k₂,output,rfl,hrun,hk₂⟩
  · cases herror
  rcases hk₂.run_bind_inv with ⟨error,herror,-⟩ | ⟨h₃,k₃,u,rfl,hafter,hk₃⟩
  · cases herror
  obtain ⟨chunks,rfl,rfl⟩ := run_traces hrun
  obtain ⟨⟨text,bytes,truncated⟩,htruncated,hdone⟩ := settled_bind_ok hk₃
  obtain ⟨rfl,heq⟩ := Traces.done_inv hdone
  cases heq
  refine ⟨chunks,fun printed => ?_,?_⟩
  · simp [hother hbefore,hother hafter]
  · rw [readBounded_eq] at htruncated
    rw [kept,htruncated]
    simp [Except.map]

theorem observe_eq {watcher : WatcherState} (hcontext : watcher.target.observationContext = some
      (.tmux socketPath serverInstance sessionId windowId paneId tty)) :
    observe watcher identity = (do
      let capture ← captureTail (.socketPath identity.server) identity 3 1024
      return if endsBlank capture.text.toList then ComposerState.safe else .unsafe_) := by
  have hnative : RuntimeComposerSafety.nativeCodex watcher = false := by
    simp [RuntimeComposerSafety.nativeCodex,hcontext]
  have hlines : RuntimeComposerSafety.captureLines watcher = 3 := by
    simp [RuntimeComposerSafety.captureLines,hnative]
  have hbytes : RuntimeComposerSafety.captureBytes watcher = 1024 := by
    simp [RuntimeComposerSafety.captureBytes,hnative]
  have hstate : ∀ text, RuntimeComposerSafety.stateOf watcher text =
      if endsBlank text then .safe else .unsafe_ := by
    simp [RuntimeComposerSafety.stateOf,hnative]
  unfold observe Mux.observeComposer Mux.captureMuxTarget Mux.connected
  rw [hlines,hbytes,hcontext]
  simp only [hstate]
  -- both sides are the capture, followed by a match on its result
  refine congrArg (Program.bind (captureTail (.socketPath identity.server) identity 3 1024).run) ?_
  funext result
  cases result <;> rfl

theorem observe_traces {watcher : WatcherState} {state : ComposerState} (hcontext :
      watcher.target.observationContext = some (.tmux socketPath serverInstance sessionId windowId
      paneId tty)) (ht : Traces (observe watcher identity).run h (.ok state)) :
    ∃ chunks text, (∀ printed, ⟨.command (args (.socketPath identity.server) ++
        captureArguments identity.paneId 3),.ok printed⟩ ∈ h ↔ printed = chunks) ∧
      kept chunks.flatten 1024 = .ok text ∧
      state = if endsBlank text then .safe else .unsafe_ := by
  rw [observe_eq hcontext] at ht
  rcases ht.run_bind_inv with ⟨error,herror,-⟩ | ⟨h₁,h₂,capture,rfl,hcapture,hdone⟩
  · cases herror
  obtain ⟨rfl,heq⟩ := Traces.done_inv hdone
  obtain ⟨chunks,honly,hkept⟩ := captureTail_traces (by decide) (by decide) hcapture
  exact ⟨chunks,capture.text.toList,by rwa [List.append_nil],hkept,Except.ok.inj heq⟩

end Capture

end Tmux

section Bottom
variable [DebugText] {watcher : WatcherState} {identity : MuxIdentity}
  {h : List TmuxEvent} {state : ComposerState} {chunks : List (List UInt8)}
  {socketPath serverInstance sessionId windowId paneId tty : String}

/-- A tmux composer is judged safe only above a blank bottom line exactly for the outputs that
fit the bound, end with a blank line, or are cut after a line that is not blank. -/
theorem tmux_safe_bottom_blank_iff
    (hcontext : watcher.target.observationContext =
      some (.tmux socketPath serverInstance sessionId windowId paneId tty))
    (ht : Traces (Tmux.observe watcher identity).run h (.ok state))
    (hprinted : ⟨.command (Tmux.args (.socketPath identity.server) ++
      Tmux.captureArguments identity.paneId 3),.ok chunks⟩ ∈ h) :
    (state = .safe → endsBlank (lossy chunks.flatten) = true) ↔
      (chunks.flatten.length ≤ 1024 ∨ endsBlank (lossy chunks.flatten) = true ∨
        ∃ head, Tmux.kept chunks.flatten 1024 = .ok head ∧ endsBlank head = false) := by
  obtain ⟨_,head,honly,hkept,rfl⟩ := Tmux.observe_traces hcontext ht
  cases (honly _).1 hprinted
  constructor
  · intro hsafe
    cases hblank : endsBlank head with
    | true => exact .inr (.inl (hsafe (by rw [hblank]; rfl)))
    | false => exact .inr (.inr ⟨head,hkept,hblank⟩)
  · rintro (hshort | hbottom | ⟨head',hhead,hblank⟩) hsafe
    · rw [← Tmux.kept_short hshort hkept]
      by_contra hnot
      rw [if_neg hnot] at hsafe
      cases hsafe
    · exact hbottom
    · cases hkept.symm.trans hhead
      rw [hblank] at hsafe
      cases hsafe

end Bottom

theorem observe_run [Digest] [DebugText] {host : TmuxHost} {watcher : WatcherState}
    {identity : MuxIdentity} {info : PaneInfo} {chunks : List (List UInt8)} {text : List Char}
      (hcontext : watcher.target.observationContext = some (.tmux socketPath serverInstance
      sessionId windowId paneId tty))
    (hquery : host.run (Tmux.query (.socketPath identity.server) identity.paneId) = .ok info)
    (hmatches : Tmux.identityMatches info.identity identity = true) (hcommand : host.command
      (Tmux.args (.socketPath identity.server) ++ Tmux.captureArguments identity.paneId 3) = .ok
      chunks) (hkept : Tmux.kept chunks.flatten 1024 = .ok text) :
    host.run (Tmux.observe watcher identity) =
      .ok (if endsBlank text then .safe else .unsafe_) := by
  have hask : ∀ op, host.run (Tmux.ask op) = .ok (host.answer op) := fun _ => rfl
  have hvalid := (validateIdentity_run hquery).2 hmatches
  obtain ⟨⟨head,bytes,truncated⟩,htruncated,hhead⟩ := map_ok_iff.1 hkept
  rw [Tmux.observe_eq hcontext]
  simp only [Tmux.captureTail,Tmux.run,bind_run,bind_ok_iff]
  rw [if_neg (by decide)]
  simp only [bind_run,settled_run,hask,bind_ok_iff]
  refine ⟨⟨.ofList head,bytes,truncated⟩,⟨(),hvalid,_,⟨_,rfl,chunks,hcommand,rfl⟩,(),hvalid,
    (head,bytes,truncated),?_,rfl⟩,?_⟩
  · rw [readBounded_eq]
    exact htruncated
  · rw [String.toList_ofList,← hhead]
    rfl

namespace Sample

def shownHost (shown : List UInt8) : TmuxHost where
  command arguments := .ok [if "capture-pane" ∈ arguments then shown else paneMetadata]
  table := processTable missingFiles

def tmuxWatcher : WatcherState :=
  .new "tmux-4-7-500" (.tmux agentPane agentRecord.identity none) .registered 0 0

def captureCommand : List String :=
  Tmux.args (.socketPath agentPane.server) ++ Tmux.captureArguments agentPane.paneId 3

attribute [local instance] digest debugText

theorem shown_traces {shown : List UInt8} {text : List Char}
    (hquery : (shownHost shown).run (Tmux.query (.socketPath agentPane.server) "%4") = .ok agentInfo)
    (hkept : Tmux.kept shown 1024 = .ok text) :
    ∃ h : List TmuxEvent, ⟨.command captureCommand,.ok [shown]⟩ ∈ h ∧
      Traces (Tmux.observe tmuxWatcher agentPane).run h
        (.ok (if endsBlank text then .safe else .unsafe_)) := by
  have hshown : Tmux.kept [shown].flatten 1024 = .ok text := by simpa using hkept
  have hrun : (shownHost shown).run (Tmux.observe tmuxWatcher agentPane) =
      .ok (if endsBlank text then .safe else .unsafe_) :=
    observe_run rfl hquery rfl rfl hshown
  obtain ⟨h,ht,hanswers⟩ : ∃ h, Traces (Tmux.observe tmuxWatcher agentPane).run h
      ((shownHost shown).run (Tmux.observe tmuxWatcher agentPane)) ∧
      ∀ e ∈ h, e.answer = (shownHost shown).answer e.op :=
    exists_traces_eval _
  rw [hrun] at ht
  obtain ⟨chunks,_,honly,-,-⟩ := Tmux.observe_traces rfl ht
  have hmem := (honly chunks).2 rfl
  have hchunks : chunks = [shown] := Except.ok.inj (hanswers _ hmem)
  subst hchunks
  exact ⟨h,hmem,ht⟩

def draftScreen : List UInt8 :=
  (List.replicate 12 (List.replicate 79 120 ++ [10])).flatten ++ List.replicate 62 120 ++ [10,10] ++
    (List.replicate 9 (List.replicate 79 120 ++ [10])).flatten ++ asciiBytes "> half a thought\n"

end Sample

attribute [local instance] Sample.digest Sample.debugText

theorem tmux_safe_bottom_blank_short :
    let _ := Sample.debugText
    ∃ h : List TmuxEvent,
      ⟨.command Sample.captureCommand,.ok [Sample.asciiBytes "ready\n\n"]⟩ ∈ h ∧
      Traces (Tmux.observe Sample.tmuxWatcher Sample.agentPane).run h (.ok .safe) ∧
      endsBlank (lossy [Sample.asciiBytes "ready\n\n"].flatten) = true := by
  have hkept : Tmux.kept (Sample.asciiBytes "ready\n\n") 1024 = .ok "ready\n\n".toList := by
    decide +kernel
  obtain ⟨h,hmem,ht⟩ := Sample.shown_traces (by decide +kernel) hkept
  have hshort : [Sample.asciiBytes "ready\n\n"].flatten.length ≤ 1024 := by decide
  exact ⟨h,hmem,ht,(tmux_safe_bottom_blank_iff rfl ht hmem).2 (.inl hshort) rfl⟩

/-- A draft on the bottom line of a full screen goes unseen. -/
theorem tmux_draft_judged_safe :
    let _ := Sample.debugText
    ∃ h : List TmuxEvent, ⟨.command Sample.captureCommand,.ok [Sample.draftScreen]⟩ ∈ h ∧
      Traces (Tmux.observe Sample.tmuxWatcher Sample.agentPane).run h (.ok .safe) ∧
      (textLines (lossy Sample.draftScreen)).getLast? = some "> half a thought".toList := by
  obtain ⟨text,hkept,hblank⟩ : ∃ text, Tmux.kept Sample.draftScreen 1024 = .ok text ∧
      endsBlank text = true :=
    map_ok_iff.1 (by decide +kernel)
  obtain ⟨h,hmem,ht⟩ := Sample.shown_traces (by decide +kernel) hkept
  rw [hblank] at ht
  exact ⟨h,hmem,ht,by decide +kernel⟩

end WatchMe
