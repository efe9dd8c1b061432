import WatchMe.Mux.Herdr
import WatchMe.Policy
import WatchMe.Recovery.RunTraces

/-! # Typing through the Herdr bridge

A bridge that always reports the same pane, accepts what it is sent and from then on shows the
text on the line of the composer. The third look at the composer, behind the text, sees the line
that the text was typed on.
-/
namespace WatchMe
open Effects Program Text World

/-- A bridge and what its pane shows, before a text is sent and behind it. -/
structure BridgeServer where
  socket : String
  identity : MuxIdentity
  before : String
  after : String

namespace BridgeServer
variable (server : BridgeServer)

def shown (sent : Bool) : String := if sent then server.after else server.before

def Serves (sent : Bool) : (request : BridgeRequest) → request.Result → Prop
  | .paneInfo, pane => (Herdr.mapPane server.socket pane).identity = server.identity
  | .paneRead _ maxBytes, read =>
    read.text = server.shown sent ∧ read.bytes = read.text.utf8ByteSize ∧ read.bytes ≤ maxBytes
  | .agentStateEvents _ _, _ => True
  | .sendText _, accepted => accepted = true
  | .sendKeys _, accepted => accepted = true

def sentBy (sent : Bool) : BridgeRequest → Bool
  | .sendText _ => true
  | _ => sent

def Answers (sent : Bool) : herdrSig.Event → Bool → Prop
  | ⟨.validateSocket _,answer⟩, sent' => answer = .ok server.socket ∧ sent' = sent
  | ⟨.nextRequestId,answer⟩, sent' => (∃ requestId, answer = .ok requestId) ∧ sent' = sent
  | ⟨.exchange _ requestId request,answer⟩, sent' =>
    (∃ response result, answer = .ok response ∧
      response.accept requestId request.method = .ok result ∧ server.Serves sent request result) ∧
      sent' = sentBy sent request
  | ⟨.native _ _,_⟩, _ => False

def world : World herdrSig Bool := ⟨server.Answers,fun sent sent' => sent' = sent⟩

def Reports : Prop := ∃ pane, (Herdr.mapPane server.socket pane).identity = server.identity

def verdict (sent : Bool) : Except MuxError Unit :=
  if endsBlank (server.shown sent).toList then .ok ()
  else .error (.identityChanged "composer safety is Unsafe")

variable {server} {sent : Bool} {herdr : HerdrContext} {watcher : WatcherState}

theorem call_achieves (request : BridgeRequest)
    (hserved : ∃ result, server.Serves sent request result) :
    server.world.Achieves (fun s r => ∃ result, r = .ok result ∧
      (s = sentBy sent request ∧ server.Serves sent request result))
      (Herdr.call herdr request).run sent := by
  obtain ⟨result,hresult⟩ := hserved
  refine ⟨⟨.ok "",sent,⟨"",rfl⟩,rfl⟩,?_⟩
  rintro _ _ ⟨⟨requestId,rfl⟩,rfl⟩
  refine ⟨⟨.ok (.success requestId request.method result),_,
    ⟨_,result,rfl,BridgeResponse.accept_success _ _ _,hresult⟩,rfl⟩,?_⟩
  rintro _ _ ⟨⟨response,result',rfl,haccept,hserves⟩,rfl⟩
  change Achieves _ _ (Herdr.settled (response.accept requestId request.method)).run _
  rw [haccept]
  exact ⟨result',rfl,rfl,hserves⟩

variable [HerdrText]

theorem validateIdentity_achieves (hreports : server.Reports)
    (hwire : Herdr.native herdr = false) (hsocket : herdr.socketPath = server.socket) :
    server.world.Achieves (fun s r => ∃ u, r = .ok u ∧ s = sent)
      (Herdr.validateIdentity herdr server.identity).run sent := by
  unfold Herdr.validateIdentity
  rw [if_neg (by simp [hwire])]
  refine Achieves.run_bind (P := fun s info => s = sent ∧ info.identity = server.identity) ?_ ?_
  · refine (call_achieves .paneInfo hreports).run_bind ?_
    rintro _ pane ⟨rfl,hpane⟩
    exact ⟨_,rfl,rfl,by rw [hsocket]; exact hpane⟩
  · rintro _ info ⟨rfl,hinfo⟩
    simp only [hinfo,Herdr.sameIdentity_self,if_true]
    exact ⟨(),rfl,rfl⟩

def Fits (server : BridgeServer) : Prop := ∀ sent, (server.shown sent).utf8ByteSize ≤ 1024

theorem captureTail_achieves (hreports : server.Reports) (hfits : server.Fits)
    (hwire : Herdr.native herdr = false) (hsocket : herdr.socketPath = server.socket) :
    server.world.Achieves (fun s r => ∃ capture, r = .ok capture ∧
      (s = sent ∧ capture.text = server.shown sent))
      (Herdr.captureTail herdr server.identity 3 1024).run sent := by
  unfold Herdr.captureTail
  rw [if_neg (by decide),if_neg (by decide),if_neg (by simp [hwire])]
  refine (validateIdentity_achieves hreports hwire hsocket).run_bind ?_
  rintro _ _ rfl
  refine (call_achieves (.paneRead 3 1024) ⟨⟨server.shown _,_,false⟩,rfl,rfl,hfits _⟩).run_bind ?_
  rintro _ read ⟨rfl,htext,hbytes,hle⟩
  rw [if_neg (by omega)]
  refine (validateIdentity_achieves hreports hwire hsocket).run_bind ?_
  rintro _ _ rfl
  exact ⟨_,rfl,rfl,htext⟩

def Watches (watcher : WatcherState) : Prop :=
  ∃ socketPath serverInstance workspaceId tabId paneId tty,
    watcher.target.observationContext =
      some (.herdr socketPath serverInstance workspaceId tabId paneId tty .bridgeV1)

theorem requireSafe_achieves (hreports : server.Reports) (hfits : server.Fits)
    (hwatcher : Watches watcher) :
    server.world.Achieves (fun s r => s = sent ∧ r = server.verdict sent)
      (Herdr.requireSafe (Herdr.observe watcher) server.identity).run sent := by
  obtain ⟨socketPath,_,workspaceId,tabId,paneId,_,hcontext⟩ := hwatcher
  have hcodex : RuntimeComposerSafety.nativeCodex watcher = false := by
    simp [RuntimeComposerSafety.nativeCodex,hcontext]
  refine Achieves.run_bind
    (P := fun s state => s = sent ∧ state = if endsBlank (server.shown sent).toList then .safe
      else .unsafe_) ?_ ?_
  · refine Achieves.run_bind
      (P := fun s capture => s = sent ∧ capture.text = server.shown sent) ?_ ?_
    · simp only [Herdr.captureTarget,hcontext,RuntimeComposerSafety.captureLines,
        RuntimeComposerSafety.captureBytes,hcodex]
      refine Achieves.run_bind
        (P := fun s herdr => s = sent ∧ herdr.socketPath = server.socket ∧
          Herdr.native herdr = false) ?_ ?_
      · refine ⟨⟨_,sent,rfl,rfl⟩,?_⟩
        rintro _ _ ⟨rfl,rfl⟩
        exact ⟨_,rfl,rfl,rfl,rfl⟩
      · rintro _ herdr ⟨rfl,hsocket,hwire⟩
        exact captureTail_achieves hreports hfits hwire hsocket
    · rintro _ capture ⟨rfl,htext⟩
      refine ⟨_,rfl,rfl,?_⟩
      rw [htext,RuntimeComposerSafety.stateOf,if_neg (by simp [hcodex])]
  · rintro _ _ ⟨rfl,rfl⟩
    unfold verdict
    split
    · exact ⟨rfl,rfl⟩
    · exact ⟨rfl,rfl⟩

theorem sendLiteral_achieves {text : String} (hreports : server.Reports) (hfits : server.Fits)
    (hwatcher : Watches watcher) (hwire : Herdr.native herdr = false)
    (hsocket : herdr.socketPath = server.socket)
    (htext : Herdr.validateLiteral text = .ok ()) :
    server.world.Achieves (fun sent r => (server.verdict false = .ok () → sent = true) ∧
        r = server.verdict false >>= fun _ => server.verdict true)
      (Herdr.sendLiteral herdr (Herdr.observe watcher) server.identity text).run false := by
  have hvalid : ∀ sent, server.world.Achieves (fun s r => ∃ u, r = .ok u ∧ s = sent)
      (Herdr.validateIdentity herdr server.identity).run sent :=
    fun _ => validateIdentity_achieves hreports hwire hsocket
  have hsafe : ∀ sent, server.world.Achieves (fun s r => s = sent ∧ r = server.verdict sent)
      (Herdr.requireSafe (Herdr.observe watcher) server.identity).run sent :=
    fun _ => requireSafe_achieves hreports hfits hwatcher
  unfold Herdr.sendLiteral
  rw [htext]
  change Achieves _ _ (Herdr.send _ _ _ _ _).run _
  refine (hvalid false).run_bind ?_
  rintro _ _ rfl
  refine achieves_run_bind.2 ((hsafe false).mono ?_)
  rintro _ _ ⟨rfl,rfl⟩
  cases hbefore : server.verdict false with
  | error => exact ⟨nofun,rfl⟩
  | ok =>
    refine (hvalid false).run_bind ?_
    rintro _ _ rfl
    refine achieves_run_bind.2 ((hsafe false).mono ?_)
    rintro _ _ ⟨rfl,rfl⟩
    rw [hbefore]
    refine (call_achieves (.sendText text) ⟨true,rfl⟩).run_bind ?_
    rintro _ accepted ⟨rfl,haccepted⟩
    cases (haccepted : accepted = true)
    refine (hvalid true).run_bind ?_
    rintro _ _ rfl
    exact (hsafe true).mono fun _ _ h => ⟨fun _ => h.1,h.2⟩

theorem actuate_achieves [Chrono] {source : EventSource} {action : Action} {text : String}
    (hreports : server.Reports) (hfits : server.Fits) (hwatcher : Watches watcher)
    (hwire : Herdr.native herdr = false) (hsocket : herdr.socketPath = server.socket)
    (hvalid : validateAction action = .ok ()) (hkind : action.kind = .sendText text) :
    server.world.Achieves
      (fun sent r => (server.verdict false = .ok () → sent = true) ∧
        r = ((server.verdict false >>= fun _ => server.verdict true).mapError
          Mux.possibleSideEffect).map fun _ => .committed)
      (Herdr.actuate herdr (Herdr.observe watcher) server.identity source action).run false := by
  have htext : Herdr.validateLiteral text = .ok () := by
    have hrefusal := (validateAction_ok_iff.1 hvalid).2
    rw [hkind] at hrefusal
    simp only [actuatorRefusal,ite_eq_right_iff,reduceCtorEq,imp_false] at hrefusal
    exact if_neg hrefusal
  unfold Herdr.actuate Mux.actuate
  rw [hvalid,hkind]
  refine achieves_bind.2 ((validateIdentity_achieves hreports hwire hsocket).mono ?_)
  rintro _ _ ⟨_,rfl,rfl⟩
  refine achieves_bind.2
    ((sendLiteral_achieves hreports hfits hwatcher hwire hsocket htext).mono ?_)
  rintro _ _ ⟨hsent,rfl⟩
  cases server.verdict false >>= fun _ => server.verdict true with
  | ok | error => exact ⟨hsent,rfl⟩

end BridgeServer

theorem endsBlank_iff {text : List Char} :
    endsBlank text = true ↔ ∀ line ∈ (textLines text).getLast?, isBlank line = true := by
  unfold endsBlank
  cases (textLines text).getLast? with
  | none => simp
  | some => simp

/-- A screen and the same screen with the text on the line of the composer. Above and below it
nothing changes; an empty composer may have any look, or no line yet. -/
structure BridgeServer.Types (server : BridgeServer) (text : String)
    (above below : List (List Char)) : Prop where
  before : (textLines server.before.toList = above ∧ below = []) ∨
    ∃ line, textLines server.before.toList = above ++ line :: below
  typed : ∃ line, text.toList <:+: line ∧ textLines server.after.toList = above ++ line :: below

theorem isBlank_of_typed {text : String} {line : List Char} (htext : safeText text = true)
    (hline : text.toList <:+: line) : isBlank line = false := by
  have hmem : text ∈ safeLiterals := by
    simp only [safeText,Bool.and_eq_true,List.contains_iff_mem] at htext
    exact htext.2
  have hall : ∀ text ∈ safeLiterals, isBlank text.toList = false := by decide
  by_contra hnot
  have hblank := List.all_eq_true.1 (Bool.not_eq_false _ ▸ hnot)
  have htext : isBlank text.toList = true :=
    List.all_eq_true.2 fun c hc => hblank c (hline.subset hc)
  cases htext.symm.trans (hall text hmem)

theorem BridgeServer.Types.verdicts_iff {server : BridgeServer} {text : String}
    {above below : List (List Char)} (htypes : server.Types text above below)
    (htext : safeText text = true) :
    (server.verdict false >>= fun _ => server.verdict true) = .ok () ↔
      ∃ last ∈ below.getLast?, isBlank last = true := by
  obtain ⟨line,hline,hafter⟩ := htypes.typed
  have hverdict : ∀ sent, server.verdict sent = .ok () ↔
      endsBlank (server.shown sent).toList = true := by
    intro sent
    unfold BridgeServer.verdict
    split <;> simp_all
  have hiff : (server.verdict false >>= fun _ => server.verdict true) = .ok () ↔
      endsBlank server.before.toList = true ∧ endsBlank server.after.toList = true := by
    rw [bind_ok_iff]
    constructor
    · rintro ⟨_,hfirst,hlast⟩
      exact ⟨(hverdict false).1 hfirst,(hverdict true).1 hlast⟩
    · rintro ⟨hfirst,hlast⟩
      exact ⟨(),(hverdict false).2 hfirst,(hverdict true).2 hlast⟩
  rw [hiff,endsBlank_iff,endsBlank_iff,hafter]
  cases hlast : below.getLast? with
  | none =>
    have hbelow : below = [] := List.getLast?_eq_none_iff.1 hlast
    subst hbelow
    have hnot := isBlank_of_typed htext hline
    simp [hnot]
  | some last =>
    have hne : below ≠ [] := by
      rintro rfl
      cases hlast
    have hend : ∀ line, (above ++ line :: below).getLast? = some last := by
      intro line
      rw [List.getLast?_append,List.getLast?_cons,hlast]
      rfl
    obtain ⟨-,hnil⟩ | ⟨_,hbefore⟩ := htypes.before
    · exact absurd hnil hne
    · rw [hbefore,hend,hend]
      simp

/-- An acknowledged text is reported as typed exactly where the composer is not the last line of
the capture and the last line is blank. -/
theorem herdr_text_committed_iff [Chrono] [HerdrText] {server : BridgeServer}
    {watcher : WatcherState} {herdr : HerdrContext} {source : EventSource} {action : Action}
    {text : String} {above below : List (List Char)} (hreports : server.Reports)
    (hfits : server.Fits) (hwatcher : BridgeServer.Watches watcher)
    (hwire : herdr.wireProtocol = .bridgeV1) (hsocket : herdr.socketPath = server.socket)
    (hvalid : validateAction action = .ok ()) (hkind : action.kind = .sendText text)
    (htext : safeText text = true) (htypes : server.Types text above below) :
    server.world.Achieves (fun _ r => r = .ok .committed)
        (Herdr.actuate herdr (Herdr.observe watcher) server.identity source action).run false ↔
      ∃ last ∈ below.getLast?, isBlank last = true := by
  have hbridge : Herdr.native herdr = false := by simp [Herdr.native,hwire]
  have hresult : server.world.Achieves (fun _ r => r = _)
      (Herdr.actuate herdr (Herdr.observe watcher) server.identity source action).run false :=
    (BridgeServer.actuate_achieves hreports hfits hwatcher hbridge hsocket hvalid hkind).mono
      fun _ _ h => h.2
  rw [hresult.value_iff,← htypes.verdicts_iff htext]
  cases server.verdict false >>= fun _ => server.verdict true with
  | ok => simp [Except.map,Except.mapError]
  | error => simp [Except.map,Except.mapError]

namespace Sample

@[reducible] def herdrText : HerdrText := ⟨fun _ => ""⟩

def wirePane : WirePane :=
  ⟨"server-1","w1","work","t1","agent",0,"p1","agent",0,"/dev/pts/4","codex","/work",
    ⟨4,7,none,none,none,none,none,none,none⟩⟩

def bridge (before after : String) : BridgeServer :=
  ⟨"/run/herdr.sock",(Herdr.mapPane "/run/herdr.sock" wirePane).identity,before,after⟩

def herdrContext : HerdrContext := ⟨"/run/herdr.sock","w1","t1","p1",.bridgeV1⟩

def bridgeWatcher : WatcherState :=
  .new "herdr-4-7" (.multiplexer "herdr" "/run/herdr.sock" "p1" (.new 4 7) (some "w1")
    (some (.herdr "/run/herdr.sock" "server-1" "w1" "t1" "p1" "/dev/pts/4" .bridgeV1)) none false)
    .registered 0 0

def bridgeSource : EventSource := .new .herdrAgentState "herdr" "typed_pane_state"

def continueAction : Action where
  kind := .sendText "continue"
  actionId := "generic.continue"
  reason := "the agent is idle"
  preconditions := [⟨"COMPOSER_EMPTY",none⟩]
  expectedOutcomes := [⟨"AGENT_WORKING",none⟩]
  timeoutSeconds := 60

theorem bridge_reports (before after : String) : (bridge before after).Reports := ⟨wirePane,rfl⟩

theorem bridge_watched : BridgeServer.Watches bridgeWatcher := ⟨_,_,_,_,_,_,rfl⟩

def bottomComposer : BridgeServer := bridge "ready\n\n" "ready\n> continue\n"

def paddedComposer : BridgeServer := bridge "ready\n>\n\n" "ready\n> continue\n\n"

end Sample

theorem herdr_text_committed_padded :
    let _ := Sample.chrono
    let _ := Sample.herdrText
    Sample.paddedComposer.world.Achieves (fun _ r => r = .ok .committed)
      (Herdr.actuate Sample.herdrContext (Herdr.observe Sample.bridgeWatcher)
        Sample.paddedComposer.identity Sample.bridgeSource Sample.continueAction).run false := by
  intro _ _
  have hfits : Sample.paddedComposer.Fits := by
    intro sent
    cases sent <;> decide
  have htypes : Sample.paddedComposer.Types "continue" ["ready".toList] [[]] :=
    ⟨.inr ⟨['>'],by decide⟩,"> continue".toList,by decide +kernel,by decide⟩
  have hvalid : validateAction Sample.continueAction = .ok () := by decide
  have htext : safeText "continue" = true := by decide +kernel
  have hreports : Sample.paddedComposer.Reports := Sample.bridge_reports _ _
  exact (herdr_text_committed_iff hreports hfits Sample.bridge_watched rfl rfl hvalid rfl htext
    htypes).2 ⟨[],rfl,rfl⟩

/-- The text is typed into an empty composer and acknowledged, and reported as a failure. -/
theorem herdr_text_unreported :
    let _ := Sample.chrono
    let _ := Sample.herdrText
    (Sample.bottomComposer.Types "continue" ["ready".toList] [] ∧
      endsBlank Sample.bottomComposer.before.toList = true) ∧
    Sample.bottomComposer.world.Achieves
      (fun sent r => sent = true ∧ r = .error (.possibleSideEffect
        "target identity changed: composer safety is Unsafe"))
      (Herdr.actuate Sample.herdrContext (Herdr.observe Sample.bridgeWatcher)
        Sample.bottomComposer.identity Sample.bridgeSource Sample.continueAction).run false := by
  intro _ _
  have hfits : Sample.bottomComposer.Fits := by
    intro sent
    cases sent <;> decide
  refine ⟨⟨⟨.inr ⟨[],by decide⟩,"> continue".toList,by decide +kernel,by decide⟩,
    by decide⟩,?_⟩
  have hverdict : Sample.bottomComposer.verdict false = .ok () := by decide +kernel
  refine (BridgeServer.actuate_achieves (Sample.bridge_reports _ _) hfits Sample.bridge_watched rfl
    rfl (by decide) rfl).mono ?_
  rintro _ _ ⟨hsent,rfl⟩
  exact ⟨hsent hverdict,rfl⟩

end WatchMe
