import WatchMe.Agents.Attachment
import WatchMe.Daemon.Attachment

/-! # From a process to its pane

An agent may be registered by its process alone, and later from the pane it runs in. The second
registration promotes the watcher if the sessions of both agree. The attachment code derives one
field of a session from the target, so whether they do depends on the target as well.
-/
namespace WatchMe

/-- The sessions of a watcher are the ones that were found open in its process. -/
structure SessionsFound (w : WatcherState) : Prop where
  codex : ∀ s, w.codexSession = some s → ∃ proc, codexReference w.target none proc = some s
  claude : ∀ s, w.claudeSession = some s → ∃ proc, claudeReference w.target proc = some s

/-- The sessions of two watchers have the same thread or session, log, process and directory. -/
structure SessionsAgree (w fresh : WatcherState) : Prop where
  codex : ∀ s s', w.codexSession = some s → fresh.codexSession = some s' →
    s'.threadId = s.threadId ∧ s'.rolloutPath = s.rolloutPath ∧
      s'.processStartTime = s.processStartTime ∧ s'.processCwd = s.processCwd
  claude : ∀ s s', w.claudeSession = some s → fresh.claudeSession = some s' →
    s'.sessionId = s.sessionId ∧ s'.transcriptPath = s.transcriptPath ∧
      s'.processStartTime = s.processStartTime ∧ s'.processCwd = s.processCwd

/-- What a promotion needs of the sessions: only one of the two has a Codex session, and a Claude
session of both has a target that names no session. -/
structure Promotable (w fresh : WatcherState) : Prop where
  codex : w.codexSession = none ∨ fresh.codexSession = none
  claude : ∀ s s', w.claudeSession = some s → fresh.claudeSession = some s' →
    fresh.target.session = none ∧ s'.markerPath = s.markerPath ∧
      s'.transcriptBinding = s.transcriptBinding

section Promotion
variable {w fresh : WatcherState} {p : ProcessIdentity}

theorem codexTargetSession_richer {target target' : TargetIdentity}
    (h : isRicherTarget target target' = true) : ∃ session, codexTargetSession target' =
      some session := by
  unfold isRicherTarget at h
  split at h
  · next context _ =>
    cases context with
    | tmux => exact ⟨_,rfl⟩
    | herdr => exact ⟨_,rfl⟩
  · cases h

theorem compatible_iff_promotable (hprocess : w.target = .process p)
    (hricher : isRicherTarget w.target fresh.target = true) (hw : SessionsFound w)
    (hfresh : SessionsFound fresh) (hagree : SessionsAgree w fresh) :
    Compatible w fresh ↔ Promotable w fresh := by
  have hclaude : ∀ s s', w.claudeSession = some s → fresh.claudeSession = some s' →
      (s = s' ↔ fresh.target.session = none ∧ s'.markerPath = s.markerPath ∧
        s'.transcriptBinding = s.transcriptBinding) := by
    intro s s' hs hs'
    obtain ⟨proc,hfound⟩ := hw.claude s hs
    obtain ⟨proc',hfound'⟩ := hfresh.claude s' hs'
    have htarget := claudeReference_targetSession hfound
    rw [hprocess] at htarget
    rw [← claudeReference_targetSession hfound',← show s.targetSession = none from htarget]
    obtain ⟨hid,hpath,hstart,hcwd⟩ := hagree.claude s s' hs hs'
    constructor
    · rintro rfl
      exact ⟨rfl,rfl,rfl⟩
    · rintro ⟨htarget,hmarker,hbinding⟩
      cases s
      cases s'
      simp_all
  constructor
  · rintro ⟨hcodex,hcompatible⟩
    refine ⟨?_,fun s s' hs hs' =>
      (hclaude s s' hs hs').1 (compatibleAttachment_iff.1 hcompatible s s' hs hs')⟩
    by_contra hboth
    rw [not_or] at hboth
    obtain ⟨s,hs⟩ := Option.ne_none_iff_exists'.1 hboth.1
    obtain ⟨s',hs'⟩ := Option.ne_none_iff_exists'.1 hboth.2
    -- the process names no session, the context of the new target does
    obtain ⟨proc,hfound⟩ := hw.codex s hs
    obtain ⟨proc',hfound'⟩ := hfresh.codex s' hs'
    obtain ⟨session,hsession⟩ := codexTargetSession_richer hricher
    have hnone := codexReference_targetSession hfound
    have hsome := codexReference_targetSession hfound'
    rw [hprocess] at hnone
    rw [hsession,← compatibleAttachment_iff.1 hcodex s s' hs hs',hnone] at hsome
    cases hsome
  · rintro ⟨hcodex,hpromotable⟩
    refine ⟨compatibleAttachment_iff.2 fun s s' hs hs' => ?_,
      compatibleAttachment_iff.2 fun s s' hs hs' =>
        (hclaude s s' hs hs').2 (hpromotable s s' hs hs')⟩
    rcases hcodex with hnone | hnone
    · cases hnone.symm.trans hs
    · cases hnone.symm.trans hs'

end Promotion

def promoted (w fresh : WatcherState) : WatcherState :=
  { Registry.refreshed (Registry.refreshOf w fresh) w fresh with
    revision := w.revision + 1, updatedAtUnixMs := fresh.updatedAtUnixMs }

section Promote
variable [JsonText] {R : Registry} {id : String} {w fresh : WatcherState} {p : ProcessIdentity}

theorem register_richer (host : WriteOutcome) (hkeyed : R.Keyed) (hw : R.watchers[id]? = some w)
    (hprocess : w.target = .process p) (hresolves : R.resolves fresh = some id) :
    R.register fresh host = R.refreshExisting id fresh host := by
  rcases register_resolves host hresolves with heq | ⟨-,existing,hfind,hid,hricher⟩
  · exact heq
  · obtain ⟨-,i,hi⟩ := Registry.find_some hfind
    have hsame : i = id := (hkeyed i existing hi).symm.trans hid
    subst hsame
    cases hi.symm.trans hw
    rw [hprocess] at hricher
    cases htarget : fresh.target <;> rw [htarget] at hricher <;> cases hricher

theorem refreshExisting_promotes (hw : R.watchers[id]? = some w)
    (hricher : isRicherTarget w.target fresh.target = true) (hcompatible : Compatible w fresh) :
    R.refreshExisting id fresh .stored = R.mutate id fresh.updatedAtUnixMs
      (fun watcher => .ok (Registry.refreshed (Registry.refreshOf w fresh) watcher fresh,
        .revalidated id)) .stored := by
  have hpromotion : (Registry.refreshOf w fresh).processPromotion = true := hricher
  unfold Registry.refreshExisting
  simp only [hw,hcompatible.codex,hcompatible.claude,hpromotion,Bool.not_true,Bool.or_self,
    Bool.false_and,Bool.true_or,Bool.false_eq_true,if_false,if_true]

/-- The registration of a verified multiplexer target of the same process promotes the watcher
exactly when it finds this watcher, its entry can be written, and not both of them have a Codex
session, nor a Claude session where the target names one: a found watcher whose sessions do not
meet this is refused as a collision, although the sessions are the same. -/
theorem promotion_accepted_iff (hkeyed : R.Keyed) (hw : R.get id = some w)
    (hprocess : w.target = .process p) (hricher : isRicherTarget w.target fresh.target = true)
    (hfound : SessionsFound w) (hfound' : SessionsFound fresh) (hagree : SessionsAgree w fresh) :
    ((R.register fresh .stored).1 = .ok (.revalidated id) ↔
      (R.resolves fresh = some id ∧ w.revision < revisionMax ∧ JsonText.registryBytes
        (Registry.encoded (R.watchers.insert id (promoted w fresh))) ≤ maxStateBytes) ∧
      Promotable w fresh) ∧
    (R.resolves fresh = some id → ¬ Promotable w fresh → ∀ host,
      (R.register fresh host).1 = .error (.idCollision fresh.watcherId)) := by
  rw [← compatible_iff_promotable hprocess hricher hfound hfound' hagree]
  rw [Registry.get] at hw
  have hrevision : (Registry.refreshed (Registry.refreshOf w fresh) w fresh).revision =
      w.revision := (RegistryCall.edits_refreshed _ w fresh).revision
  constructor
  · constructor
    · intro hanswer
      have hresolves := register_revalidated hanswer
      rw [register_richer .stored hkeyed hw hprocess hresolves] at hanswer
      by_cases hcompatible : Compatible w fresh
      · rw [refreshExisting_promotes hw hricher hcompatible] at hanswer
        unfold Registry.mutate at hanswer
        simp only [hw,nextRevision,hrevision] at hanswer
        by_cases hrev : w.revision < revisionMax
        · rw [if_pos hrev] at hanswer
          refine ⟨⟨hresolves,hrev,?_⟩,hcompatible⟩
          by_contra hsize
          unfold Registry.persistWatchers at hanswer
          dsimp only at hanswer
          have hfull := Nat.lt_of_not_le hsize
          unfold promoted at hfull
          rw [if_pos hfull] at hanswer
          cases hanswer
        · rw [if_neg hrev] at hanswer
          cases hanswer
      · rw [refreshExisting_incompatible .stored hw hcompatible] at hanswer
        cases hanswer
    · rintro ⟨⟨hresolves,hrev,hsize⟩,hcompatible⟩
      rw [register_richer .stored hkeyed hw hprocess hresolves,
        refreshExisting_promotes hw hricher hcompatible]
      unfold promoted at hsize
      rw [← hrevision] at hrev hsize
      simp only [Registry.mutate,hw,nextRevision,if_pos hrev,Registry.persistWatchers,
        if_neg (Nat.not_lt.2 hsize)]
  · intro hresolves hnot host
    rw [register_richer host hkeyed hw hprocess hresolves,
      refreshExisting_incompatible host hw hnot]

end Promote

namespace Sample
open Registry

def openFile (path name : String) (inode : Nat) (threads goalColumns : List String) : OpenFile :=
  ⟨⟨path,1,inode,1000⟩,name,none,threads,goalColumns⟩

/-- A process that was started as `codex resume t1`, with its rollout and databases open. -/
def codexProc : CodexProc where
  cmdline := some ([99,111,100,101,120,0,114,101,115,117,109,101,0,116,49,0])
  fds := some [none,some (openFile "/work/rollout-t1.jsonl" "rollout-t1.jsonl" 11 [] []),
    some (openFile "/work/state_5.sqlite" "state_5.sqlite" 12 ["t1"] []),
    some (openFile "/work/goals_1.sqlite" "goals_1.sqlite" 13 []
      ["thread_id","status","updated_at_ms"])]
  cwd := some "/work"

def codexSessionIn (session : Option String) : CodexSessionReference where
  threadId := "t1"
  rolloutPath := "/work/rollout-t1.jsonl"
  processStartTime := 1
  processCwd := "/work"
  targetSession := session
  rolloutBinding := none
  appServerStatePath := none
  structuredState := some ⟨⟨"/work/rollout-t1.jsonl",1,11,1000⟩,
    ⟨"/work/state_5.sqlite",1,12,1000⟩,⟨"/work/goals_1.sqlite",1,13,1000⟩⟩

def codexWindow : MuxIdentity where
  provider := "tmux"
  server := "/tmp/tmux"
  serverInstance := "server"
  sessionId := "$1"
  windowId := "@1"
  paneId := "%1"
  process := .new 7 1
  tty := "/dev/pts/1"

theorem codexProc_found :
    codexReference (.process (.new 7 1)) none codexProc = some (codexSessionIn none) ∧
      codexReference (.tmux codexWindow (.new 7 1) none) none codexProc =
        some (codexSessionIn (some "$1")) := by
  decide

def claudeProc : ClaudeProc where
  markerVariable := none
  stateHome := none
  home := some "/home/u"
  supplied := none
  links := ["/home/u/t.jsonl"]
  canonicalFds := ["/home/u/t.jsonl"]
  transcripts := [("session-1","/home/u/t.jsonl")]
  canonical := some
  isFile _ := true
  binding _ := some ⟨"/home/u/t.jsonl",1,21⟩
  cwd := some "/work"

def claudeSessionHere : ClaudeSessionReference where
  sessionId := "session-1"
  transcriptPath := "/home/u/t.jsonl"
  markerPath := "/home/u/.local/state/watchme/claude-stop-failure.jsonl"
  processStartTime := 1
  processCwd := "/work"
  targetSession := none
  transcriptBinding := some ⟨"/home/u/t.jsonl",1,21⟩

theorem claudeProc_found :
    claudeReference (.process (.new 7 1)) claudeProc = some claudeSessionHere ∧
      claudeReference target claudeProc = some claudeSessionHere := by
  decide

def claudeClient : WatcherState :=
  { WatcherState.new "process-7-1" (.process (.new 7 1)) .registered 0 0 with
    claudeSession := some claudeSessionHere }

def claudePane : WatcherState :=
  { WatcherState.new "tmux-1-7-1" target .registered 0 0 with
    claudeSession := some claudeSessionHere }

def codexClientHere : WatcherState :=
  { WatcherState.new "process-7-1" (.process (.new 7 1)) .registered 0 0 with
    codexSession := some (codexSessionIn none) }

def codexPane : WatcherState :=
  { WatcherState.new "tmux-1-7-1" (.tmux codexWindow (.new 7 1) none) .registered 0 0 with
    codexSession := some (codexSessionIn (some "$1")) }

theorem codex_registrations :
    processRegistration (.new 7 1) ⟨none,codexReference (.process (.new 7 1)) none codexProc⟩ 0 =
        codexClientHere ∧
      tmuxRegistration (.new 7 1) codexWindow
        ⟨none,codexReference (.tmux codexWindow (.new 7 1) none) none codexProc⟩ 0 = .ok codexPane := by
  rw [codexProc_found.1,codexProc_found.2]
  exact ⟨rfl,rfl⟩

theorem put_keyed {id : String} {w : WatcherState} (hid : w.watcherId = id) :
    Registry.Keyed (Registry.put ⟨∅,none⟩ id w) := by
  intro i v hv
  rw [Registry.put,StrMap.getElem?_insert] at hv
  split at hv
  · next heq =>
    cases hv
    exact hid.trans heq
  · simp at hv

end Sample

theorem promotion_accepted_claude :
    let _ := Sample.jsonText
    (Registry.register (Registry.put ⟨∅,none⟩ "process-7-1" Sample.claudeClient) Sample.claudePane
      .stored).1 = .ok (.revalidated "process-7-1") := by
  intro _
  have hkeyed : Registry.Keyed (Registry.put ⟨∅,none⟩ "process-7-1" Sample.claudeClient) :=
    Sample.put_keyed rfl
  have hget := Registry.get_put ⟨∅,none⟩ "process-7-1" Sample.claudeClient
  have hfound : SessionsFound Sample.claudeClient :=
    ⟨fun s hs => (by cases hs),fun s hs => ⟨Sample.claudeProc,Sample.claudeProc_found.1.trans hs⟩⟩
  have hfound' : SessionsFound Sample.claudePane :=
    ⟨fun s hs => (by cases hs),fun s hs => ⟨Sample.claudeProc,Sample.claudeProc_found.2.trans hs⟩⟩
  have hagree : SessionsAgree Sample.claudeClient Sample.claudePane := by
    refine ⟨fun s s' hs => (by cases hs),fun s s' hs hs' => ?_⟩
    cases hs
    cases hs'
    exact ⟨rfl,rfl,rfl,rfl⟩
  have hpromotable : Promotable Sample.claudeClient Sample.claudePane := by
    refine ⟨.inl rfl,fun s s' hs hs' => ?_⟩
    cases hs
    cases hs'
    exact ⟨rfl,rfl,rfl⟩
  exact (promotion_accepted_iff hkeyed hget rfl rfl hfound hfound' hagree).1.2
    ⟨⟨rfl,by decide,Nat.zero_le _⟩,hpromotable⟩

/-- The Codex process was registered outside of its pane, with the thread it has open. The
registration from the pane finds the same thread and is refused. -/
theorem promotion_refused :
    let _ := Sample.jsonText
    ∃ w fresh, processRegistration (.new 7 1)
          ⟨none,codexReference (.process (.new 7 1)) none Sample.codexProc⟩ 0 = w ∧
      tmuxRegistration (.new 7 1) Sample.codexWindow
          ⟨none,codexReference (.tmux Sample.codexWindow (.new 7 1) none) none Sample.codexProc⟩ 0 =
        .ok fresh ∧
      isRicherTarget w.target fresh.target = true ∧ SessionsAgree w fresh ∧
      (Registry.register (Registry.put ⟨∅,none⟩ "process-7-1" w) fresh .stored).1 =
        .error (.idCollision "tmux-1-7-1") := by
  intro _
  refine ⟨Sample.codexClientHere,Sample.codexPane,Sample.codex_registrations.1,
    Sample.codex_registrations.2,rfl,⟨fun s s' hs hs' => ?_,fun s s' hs => (by cases hs)⟩,rfl⟩
  cases hs
  cases hs'
  exact ⟨rfl,rfl,rfl,rfl⟩

end WatchMe
