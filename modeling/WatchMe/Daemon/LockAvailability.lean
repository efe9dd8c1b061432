import WatchMe.Daemon.Lock
import WatchMe.Effects.Ensures

/-! # Whether the lock can be had

Where nothing fails and nobody else is at it, `acquire` succeeds if there is no lock file, or the
file names a process that is gone. A file that names nobody is never taken over: `read_lock` refuses
it. A process that dies after it made or emptied the file, and before it has written its identity,
leaves such a file.
-/
namespace WatchMe
open Effects

namespace Flock
variable [LockText]
variable {u : Thread lockStages.mortal}

/-- An operation fails only if it has to, and the probe answers as given. -/
def Works (probe : Nat → Option Nat) (s : LockShared) : lockSig.Event → Prop
  | ⟨.createNew,.error error⟩ => error.alreadyExists = true
  | ⟨.openExisting,.error _⟩ => s.file = none
  | ⟨.flock fd,.error _⟩ => s.holder ≠ none ∧ s.holder ≠ some fd
  | ⟨.metadata _,r⟩ => r = .ok true
  | ⟨.startTime pid,r⟩ => r = .ok (probe pid)
  | ⟨.read _ _,.error _⟩ | ⟨.setLen _,.error _⟩ | ⟨.rewind _,.error _⟩ | ⟨.writeAll _ _,.error _⟩
  | ⟨.syncAll _,.error _⟩ => False
  | _ => True

def calm (probe : Nat → Option Nat) : World lockSig LockShared where
  Answers s e s' := lockWorld.Answers s e s' ∧ Works probe s e
  Restarts _ _ := False

section Calm
variable {probe : Nat → Option Nat} {s : LockShared} {fd : Nat}
variable {Q : LockShared → Except LockError Nat → Prop} {content : List UInt8} {k : DaemonIdentity}

/-- What an operation answers and leaves where nobody has the lock. -/
def calmly (probe : Nat → Option Nat) (text : String) (s : LockShared) :
    (op : LockOp) → op.Answer × LockShared
  | .createNew => if s.file = none then (.ok s.next,⟨some [],s.holder,s.next + 1⟩)
    else (.error ⟨true,text⟩,s)
  | .openExisting => (.ok s.next,⟨s.file,s.holder,s.next + 1⟩)
  | .flock fd => (.ok (),{ s with holder := some fd })
  | .metadata _ => (.ok true,s)
  | .read _ limit => (.ok ((s.file.getD []).take limit),s)
  | .setLen _ => (.ok (),{ s with file := s.file.map fun _ => [] })
  | .rewind _ | .syncAll _ => (.ok (),s)
  | .writeAll _ bytes => (.ok (),s.written bytes)
  | .startTime pid => (.ok (probe pid),s)
  | .close fd | .hold fd => ((),s.closed fd)
  | .live => ((),s)

def Open (s : LockShared) : LockOp → Prop
  | .openExisting | .read _ _ => s.file ≠ none
  | .flock _ => s.holder = none
  | _ => True

omit [LockText] in
theorem calm_call {op : LockOp} {Q : LockShared → op.Answer → Prop} (hop : Open s op)
    (hq : ∀ text, Q (calmly probe text s op).2 (calmly probe text s op).1) :
    (calm probe).Achieves Q (call op) s := by
  have hfirst : (calm probe).Answers s ⟨op,(calmly probe "" s op).1⟩ (calmly probe "" s op).2 := by
    cases op with
    | createNew =>
      unfold calmly
      split
      · next hnone => exact ⟨⟨hnone,rfl,rfl⟩,trivial⟩
      · next hsome => exact ⟨⟨rfl,fun _ => hsome⟩,rfl⟩
    | openExisting => exact ⟨⟨hop,rfl,rfl⟩,trivial⟩
    | flock => exact ⟨⟨.inl hop,rfl⟩,trivial⟩
    | read =>
      obtain ⟨content,hfile⟩ := Option.ne_none_iff_exists'.1 hop
      exact ⟨⟨rfl,content,hfile,by rw [hfile]; rfl⟩,trivial⟩
    | metadata | startTime => exact ⟨rfl,rfl⟩
    | _ => exact ⟨rfl,trivial⟩
  have hall : ∀ r s', (calm probe).Answers s ⟨op,r⟩ s' → ∃ text, calmly probe text s op = (r,s') := by
    rintro r s' ⟨hw,hworks⟩
    cases op with
    | createNew =>
      rcases r with ⟨kind,text⟩ | fd
      · obtain ⟨rfl,hsome⟩ := hw
        obtain rfl : kind = true := hworks
        exact ⟨text,if_neg (hsome rfl)⟩
      · obtain ⟨hnone,rfl,rfl⟩ := hw
        exact ⟨"",if_pos hnone⟩
    | openExisting =>
      rcases r with error | fd
      · exact absurd hworks hop
      · obtain ⟨-,rfl,rfl⟩ := hw
        exact ⟨"",rfl⟩
    | flock =>
      rcases r with error | u
      · exact absurd hop hworks.1
      · obtain ⟨-,rfl⟩ := hw
        exact ⟨"",rfl⟩
    | read =>
      rcases r with error | bytes
      · exact hworks.elim
      · obtain ⟨rfl,content,hfile,rfl⟩ := hw
        exact ⟨"",by simp [calmly,hfile]⟩
    | metadata | startTime =>
      cases hworks
      cases hw
      exact ⟨"",rfl⟩
    | close | hold | live =>
      cases hw
      exact ⟨"",rfl⟩
    | _ =>
      rcases r with error | u
      · exact hworks.elim
      · cases hw
        exact ⟨"",rfl⟩
  refine ⟨⟨_,_,hfirst⟩,fun r s' hw => ?_⟩
  obtain ⟨text,heq⟩ := hall r s' hw
  have hq := hq text
  rw [heq] at hq
  exact hq

def Got (_ : LockShared) (r : Except LockError Nat) : Prop := r.isOk = true

theorem writeIdentity_achieves :
    (calm probe).Achieves Got (writeIdentity fd k >>= fun _ => pure fd : LockM Nat).run s := by
  refine World.achieves_run_bind.2 (World.achieves_run_bind.2 (calm_call trivial fun _ => ?_))
  exact calm_call trivial fun _ => rfl

omit [LockText] in
theorem closingOnError_achieves {body : LockM Nat} (h : (calm probe).Achieves Got body.run s) :
    (calm probe).Achieves Got (closingOnError fd body).run s := by
  refine World.achieves_bind.2 (h.mono fun s' r hr => ?_)
  cases r with
  | error => cases hr
  | ok => rfl

theorem createLock_achieves (hfile : s.file = none) (hfree : s.holder = none) :
    (calm probe).Achieves Got (createLock k).run s := by
  refine World.achieves_run_bind.2 (calm_call trivial fun _ => ?_)
  simp only [calmly,hfile,if_true]
  refine closingOnError_achieves (World.achieves_run_bind.2 ?_)
  exact calm_call hfree fun _ => writeIdentity_achieves

theorem takeOver_achieves (hfile : s.file ≠ none) (hfree : s.holder = none) :
    (calm probe).Achieves Got (takeOver k).run s := by
  refine World.achieves_run_bind.2 (calm_call hfile fun _ => closingOnError_achieves ?_)
  refine World.achieves_run_bind.2 (calm_call hfree fun _ => World.achieves_run_bind.2 ?_)
  refine calm_call trivial fun _ => World.achieves_run_bind.2 ?_
  exact calm_call trivial fun _ => writeIdentity_achieves

theorem readLock_achieves (hfile : s.file = some content) (hfree : s.holder = none) :
    (calm probe).Achieves (fun s' r => s'.file = s.file ∧ s'.holder = none ∧
      r = (parsed (content.take 4097)).mapError fun text => ⟨false,text⟩) readLock.run s := by
  have hsome : s.file ≠ none := by
    rw [hfile]
    exact nofun
  refine World.achieves_run_bind.2 (calm_call hsome fun _ => World.achieves_run_bind.2 ?_)
  refine World.achieves_bind.2 (World.achieves_run_bind.2 (calm_call trivial fun _ => ?_))
  refine calm_call hsome fun _ => World.achieves_bind.2 (calm_call trivial fun _ => ?_)
  have hclosed : LockShared.closed ⟨s.file,s.holder,s.next + 1⟩ s.next =
      ⟨s.file,s.holder,s.next + 1⟩ := by
    unfold LockShared.closed
    rw [hfree]
    exact if_neg nofun
  refine (?_ : _ ∧ _ ∧ _)
  simp only [calmly,hclosed,true_and]
  exact ⟨hfree,by rw [hfile]; rfl⟩

theorem acquire_existing {Q : LockShared → Except LockError Nat → Prop} (hsome : s.file ≠ none)
    (h : (calm probe).Achieves Q (acquireExisting k).run s) :
    (calm probe).Achieves Q (acquire k).run s := by
  refine World.achieves_bind.2 (World.achieves_run_bind.2 (calm_call trivial fun _ => ?_))
  simp only [calmly,if_neg hsome]
  exact h

theorem acquire_achieves (hfree : s.holder = none) (hfile : s.file = none ∨ ∃ content named, s.file
      = some content ∧ parsed (content.take 4097) = .ok named ∧ probe named.pid ≠ some
      named.startTime) : (calm probe).Achieves Got (acquire k).run s := by
  rcases hfile with hfile | ⟨content,named,hfile,hparsed,hgone⟩
  · refine World.achieves_bind.2 ((createLock_achieves hfile hfree).mono fun s' r hr => ?_)
    cases r with
    | error => cases hr
    | ok => rfl
  have hsome : s.file ≠ none := by
    rw [hfile]
    exact nofun
  refine acquire_existing hsome (World.achieves_run_bind.2 ((readLock_achieves hfile hfree).mono ?_))
  rintro s' r ⟨hsame,hfree',rfl⟩
  rw [hparsed]
  refine World.achieves_run_bind.2 (calm_call trivial fun _ => World.achieves_run_bind.2 ?_)
  simp only [calmly]
  have hrefuse : (probe named.pid == some named.startTime) = false := by simpa using hgone
  rw [hrefuse]
  exact takeOver_achieves (hsame ▸ hsome) hfree'

end Calm

inductive LockKind where
  | early
  | behind
  | creating
  | ahead
  | locked
  | emptied
  | named
  | dead
  deriving DecidableEq

def LockStage.kind : LockStage → LockKind
  | .fresh | .out | .gone => .early
  | .blocked | .reading _ | .read _ false | .failing _ => .behind
  | .created _ => .creating
  | .read _ true | .stale | .opened _ => .ahead
  | .locked _ => .locked
  | .emptied _ => .emptied
  | .written _ | .synced _ => .named

def MortalStage.kind : MortalStage → LockKind
  | none => .dead
  | some s => s.2.kind

namespace LockKind

def off : LockKind → Bool
  | early | behind | dead => true
  | _ => false

def writing : LockKind → Bool
  | creating | emptied => true
  | _ => false

def left : LockKind → Bool
  | named | dead => true
  | _ => false

def owning : LockKind → Bool
  | locked | emptied | named => true
  | _ => false

def steps : LockKind → LockKind → Bool
  | early, early | behind, behind | behind, early | ahead, ahead | ahead, locked | ahead, behind
  | ahead, early | locked, behind | creating, emptied | emptied, emptied | named, named => true
  | kind, dead => !kind.writing
  | _, _ => false

def Fits (k : DaemonIdentity) (file : Option (List UInt8)) : LockKind → Prop
  | early | dead => True
  | behind | ahead | locked => file ≠ none
  | creating | emptied => file = some []
  | named => file = some (LockText.toVec k)

theorem fits_of_steps {k : DaemonIdentity} {file : Option (List UInt8)} {old new : LockKind}
    (h : steps old new = true) (hfits : old.Fits k file) : new.Fits k file := by
  cases old <;> cases new <;> first | exact hfits | trivial

end LockKind

omit [LockText] in
theorem MortalStage.exists_owned {s : MortalStage} (h : s.kind.owning = true) :
    ∃ fd, s.owned = some fd := by
  rcases s with _ | ⟨k,stage⟩
  · cases h
  · change stage.kind.owning = true at h
    rcases stage with _ | _ | _ | _ | ⟨_,_ | _⟩ | _ | _ | fd | fd | fd | fd <;>
      first | exact ⟨fd,rfl⟩ | cases h

/-- The file was made or emptied, and no identity written to it since. -/
def unsettled (history : List lockSig.mortal.Event) : Bool :=
  history.foldl (fun before e => match e with
    | ⟨.createNew,some (.ok _)⟩ | ⟨.setLen _,some (.ok _)⟩ => true
    | ⟨.writeAll _ _,some (.ok _)⟩ => false
    | _ => before) false

def interrupts : lockSig.mortal.Event → Bool
  | ⟨.flock _,some (.error _)⟩ | ⟨.rewind _,some (.error _)⟩
  | ⟨.writeAll _ _,some (.error _)⟩ => true
  | ⟨_,some _⟩ => false
  | ⟨_,none⟩ => true

/-- A process whose identity is in the file gives up the lock and lives. -/
def abandons : lockSig.mortal.Event → Bool
  | ⟨.syncAll _,some (.error _)⟩ | ⟨.hold _,some _⟩ => true
  | _ => false

def Readable (k : DaemonIdentity) : Prop := parsed (LockText.toVec k) = .ok k

/-- Whoever makes or empties the file writes its identity to it, and a lock is given up only by
dying. -/
def Completed : Discipline lockSig.mortal DaemonIdentity (Option Unit) LockShared := fun V l =>
  match l with
  | .spawn k => Readable k
  | .act i e => abandons e = false ∧
      ∀ v, V.threads[i]? = some v → unsettled v.history = true → interrupts e = false
  | .crash => True

instance (V : PoolView lockSig.mortal DaemonIdentity (Option Unit) LockShared)
    (l : Label lockSig.mortal DaemonIdentity) : Decidable (Completed V l) := by
  unfold Completed Readable
  split <;> infer_instance

def Fits (p : MortalStage) (s : LockShared) : Prop :=
  ∀ k stage, p = some (k,stage) → stage.kind.Fits k s.file

/-- Nobody has come past a file that is being made. -/
def Beside (p q : MortalStage) : Prop :=
  (p.kind = .creating → q.kind.off = true) ∧ (q.kind = .creating → p.kind.off = true)

/-- What a step of a process under that discipline does to the file. -/
inductive Progress (s : LockShared) (old new : MortalStage) (s' : LockShared) : Prop
  | keeps : s'.file = s.file → Fits new s' → new.kind ≠ .creating →
      (s.file = some [] → old.kind.off = true → new.kind.off = true) →
      (old.kind.writing = true → new.kind.writing = true) →
      (old.kind.left = true → new.kind.left = true) → Progress s old new s'
  | writes (content : List UInt8) : s'.file = some content → Fits new s' →
      (s.file = none ∨ (old.kind = .locked ∨ old.kind = .emptied) ∧ new.kind ≠ .creating) →
      (new.kind.writing = true ∨
        (∃ k stage, old = some (k,stage) ∧ content = LockText.toVec k) ∧ new.kind.left = true) →
      Progress s old new s'

omit [LockText] in
theorem closed_file (s : LockShared) (fd : Nat) : (s.closed fd).file = s.file := by
  unfold LockShared.closed
  split <;> rfl

theorem parsed_nil : (parsed []).isOk = false := by
  have hempty := LockText.empty
  unfold parsed DaemonLock.readLock
  cases hread : LockText.fromSlice [] with
  | error => rfl
  | ok =>
    rw [hread] at hempty
    cases hempty

section Progress
variable {k : DaemonIdentity} {stage stage' : LockStage} {s s' : LockShared}

theorem fits_some (h : stage.kind.Fits k s.file) : Fits (some (k,stage)) s := by
  rintro _ _ heq
  cases heq
  exact h

theorem Progress.steps {new : MortalStage} (hfits : stage.kind.Fits k s.file)
    (hfile : s'.file = s.file) (hnew : ∀ k' stage', new = some (k',stage') → k' = k)
    (h : LockKind.steps stage.kind new.kind = true) : Progress s (some (k,stage)) new s' := by
  have hkinds : ∀ old new : LockKind, LockKind.steps old new = true → new ≠ .creating ∧
      (old.off = true → new.off = true) ∧ (old.writing = true → new.writing = true) ∧
      (old.left = true → new.left = true) := by
    intro old new
    cases old <;> cases new <;> decide
  obtain ⟨hcreating,hoff,hwriting,hleft⟩ := hkinds _ _ h
  refine .keeps hfile ?_ hcreating (fun _ => hoff) hwriting hleft
  rintro k' stage' rfl
  obtain rfl := hnew k' stage' rfl
  rw [hfile]
  exact LockKind.fits_of_steps h hfits

theorem progress_of_answer {e : lockSig.Event} (hfits : stage.kind.Fits k s.file)
    (h : LockStep k stage e stage') (hw : lockWorld.Answers s e s')
    (hwindow : stage.kind.writing = true → interrupts (Program.survived e) = false)
    (hkeeps : abandons (Program.survived e) = false) :
    Progress s (some (k,stage)) (some (k,stage')) s' := by
  have hsteps : s'.file = s.file → LockKind.steps stage.kind stage'.kind = true →
      Progress s (some (k,stage)) (some (k,stage')) s' := fun hfile hkind => by
    refine .steps hfits hfile ?_ hkind
    rintro _ _ heq
    cases heq
    rfl
  cases h with
  | created =>
    obtain ⟨hnone,rfl,rfl⟩ := hw
    exact .writes [] rfl (fits_some rfl) (.inl hnone) (.inl rfl)
  | existed error hkind =>
    obtain ⟨rfl,hexists⟩ := hw
    exact .keeps rfl (fits_some (hexists hkind)) nofun (fun _ _ => rfl) nofun nofun
  | truncated =>
    cases hw
    refine .writes [] ?_ (fits_some ?_) (.inr ⟨.inl rfl,nofun⟩) (.inl rfl) <;>
    · obtain ⟨content,hcontent⟩ := Option.ne_none_iff_exists'.1 hfits
      exact congrArg (Option.map fun _ => []) hcontent
  | wrote =>
    have hempty : s.file = some [] := hfits
    have hfile : s'.file = some (LockText.toVec k) := by
      rw [show s' = s.written (LockText.toVec k) from hw]
      simp [LockShared.written,hempty]
    exact .writes _ hfile (fits_some hfile) (.inr ⟨.inr rfl,nofun⟩) (.inr ⟨⟨k,_,rfl,rfl⟩,rfl⟩)
  | createdNotLocked | notWritten | notRewound => cases hwindow rfl
  | notSynced | dropped => cases hkeeps
  | readBytes fd limit =>
    obtain ⟨rfl,content,hfile,rfl⟩ := hw
    have hsome : s'.file ≠ none := hfits
    cases hparsed : (parsed (content.take limit)).isOk with
    | false => exact .keeps rfl (fits_some hsome) nofun (fun _ _ => rfl) nofun nofun
    | true =>
      refine .keeps rfl (fits_some hsome) nofun (fun hempty _ => ?_) nofun nofun
      -- nobody is named in an empty file
      obtain rfl : content = [] := Option.some.inj (hfile.symm.trans hempty)
      rw [List.take_nil,parsed_nil] at hparsed
      cases hparsed
  | notCreated =>
    obtain ⟨rfl,-⟩ := hw
    exact hsteps rfl rfl
  | createdLocked | locked =>
    obtain ⟨-,rfl⟩ := hw
    exact hsteps rfl rfl
  | opened | reopened =>
    obtain ⟨-,-,rfl⟩ := hw
    exact hsteps rfl rfl
  | closedUnnamed fd | closed fd | closedBlocked fd | closedNamed fd =>
    cases hw
    exact hsteps (closed_file s fd) rfl
  | _ =>
    cases hw
    exact hsteps rfl rfl

theorem progress_of_step {old new : MortalStage} {e : lockSig.mortal.Event} (hfits : Fits old s)
    (h : lockStages.mortal.Step old e new) (hw : mortalWorld.Answers s e s')
    (hwindow : old.kind.writing = true → interrupts e = false) (hkeeps : abandons e = false) :
    Progress s old new s' := by
  obtain ⟨k,stage,rfl,⟨e,stage',rfl,rfl,hstep⟩ | ⟨op,rfl,rfl,-⟩⟩ := mortal_step h
  · exact progress_of_answer (hfits k stage rfl) hstep hw hwindow hkeeps
  have hfile : s'.file = s.file := by
    have hdies : dies s op s' := hw
    unfold dies at hdies
    split at hdies <;> subst hdies
    · exact closed_file s _
    · rfl
  -- a death is no interruption where the file names nobody, or this process
  have hlives : stage.kind.writing = false := Bool.eq_false_iff.2 fun hkind => by
    cases (hwindow hkind).symm.trans (by cases op <;> rfl : interrupts ⟨op,none⟩ = true)
  refine .steps (hfits k stage rfl) hfile nofun ?_
  change LockKind.steps stage.kind .dead = true
  revert hlives
  cases stage.kind <;> decide

end Progress

/-- What the file says about the processes: if it is there, somebody is about to write to it, or it
names a process that has the lock or is dead. -/
structure Settled (P : Pool lockStages.mortal LockShared) : Prop where
  asserts : Pool.Asserts (fun _ => True) Fits Beside P
  owner : ∀ content, P.shared.file = some content → ∃ (i : Nat) (t : Thread lockStages.mortal),
    P.threads[i]? = some t ∧ ((MortalStage.kind t.state).writing = true ∨
      (content = LockText.toVec t.call ∧ (MortalStage.kind t.state).left = true))

namespace Settled
variable {P : Pool lockStages.mortal LockShared}

theorem spawn (h : Settled P) (k : DaemonIdentity) :
    Settled ⟨P.shared,P.threads ++ [Thread.spawned lockStages.mortal k]⟩ := by
  refine ⟨h.asserts.spawn And.symm (fits_some trivial) fun u => ⟨nofun,fun _ => rfl⟩,?_⟩
  intro content hfile
  obtain ⟨i,t,ht,howner⟩ := h.owner content hfile
  exact ⟨i,t,(List.getElem?_append_left (List.getElem?_eq_some_iff.1 ht).1).trans ht,howner⟩

section Act
variable {i : Nat} {t : Thread lockStages.mortal} {e : lockSig.mortal.Event} {new : MortalStage}
  {s' : LockShared}

theorem others_off (h : Settled P) (howns : Pool.Asserts (fun _ => True) Owns Distinct P)
    (ht : P.threads[i]? = some t)
    (hold : P.shared.file = none ∨ (MortalStage.kind t.state = .locked ∨
      MortalStage.kind t.state = .emptied) ∧ new.kind ≠ .creating)
    {j : Nat} (hu : P.threads[j]? = some u) (hne : j ≠ i) :
    ((MortalStage.kind u.state).off = true ∨
      MortalStage.kind u.state = .ahead ∧ new.kind ≠ .creating) := by
  have hfits := h.asserts.thread j u hu
  have hpair := (h.asserts.pair j i u t hu ht hne).1
  rcases hold with hnone | ⟨hold,hnew⟩
  · rcases hstate : (u.state : MortalStage) with - | ⟨k,stage⟩
    · exact .inl rfl
    · have hfits := hfits k stage hstate
      rw [hnone] at hfits
      change stage.kind.off = true ∨ stage.kind = .ahead ∧ _
      revert hfits
      cases stage.kind <;> simp [LockKind.Fits,LockKind.off]
  · have howning : (MortalStage.kind t.state).owning = true := by
      rcases hold with hold | hold <;> rw [hold] <;> rfl
    have hoff : (MortalStage.kind t.state).off = false := by
      rcases hold with hold | hold <;> rw [hold] <;> rfl
    have hfree : (MortalStage.kind u.state).owning ≠ true := fun hkind => by
      obtain ⟨fd,hfd⟩ := MortalStage.exists_owned howning
      obtain ⟨fd',hfd'⟩ := MortalStage.exists_owned hkind
      exact hne (owned_eq howns hu ht hfd' hfd)
    rw [hoff] at hpair
    revert hpair hfree
    cases MortalStage.kind u.state <;> simp [LockKind.off,LockKind.owning,hnew]

theorem act (h : Settled P) (howns : Pool.Asserts (fun _ => True) Owns Distinct P)
    (ht : P.threads[i]? = some t) (hcall : ∀ k stage, t.state = some (k,stage) → k = t.call)
    (hp : Progress P.shared t.state new s') : Settled ⟨s',P.threads.set i (t.advance e new)⟩ := by
  have hi : i < P.threads.length := (List.getElem?_eq_some_iff.1 ht).1
  cases hp with
  | keeps hfile hfits hnew hoff hwriting hleft =>
    refine ⟨h.asserts.act And.symm ht trivial hfits fun j u hu hne => ⟨?_,fun hkind => ?_,?_⟩,?_⟩
    · intro k stage hstate
      exact hfile ▸ h.asserts.thread j u hu k stage hstate
    · exact absurd hkind hnew
    · intro hkind
      rcases hstate : (u.state : MortalStage) with - | ⟨k,stage⟩
      · rw [hstate] at hkind
        cases hkind
      · have hempty := h.asserts.thread j u hu k stage hstate
        rw [show stage.kind = .creating by rw [hstate] at hkind; exact hkind] at hempty
        exact hoff hempty ((h.asserts.pair j i u t hu ht hne).1 hkind)
    · intro content hcontent
      obtain ⟨j,u,hu,howner⟩ := h.owner content (hfile ▸ hcontent)
      by_cases hij : i = j
      · subst hij
        obtain rfl : t = u := Option.some.inj (ht.symm.trans hu)
        exact ⟨i,_,List.getElem?_set_self hi,howner.imp hwriting fun ⟨hc,hk⟩ => ⟨hc,hleft hk⟩⟩
      · exact ⟨j,u,(List.getElem?_set_ne hij).trans hu,howner⟩
  | writes content hfile hfits hold howner =>
    refine ⟨h.asserts.act And.symm ht trivial hfits fun j u hu hne => ?_,fun _ hcontent => ?_⟩
    · have hkind := h.others_off howns ht hold hu hne
      refine ⟨fun k stage hstate => ?_,fun hcreating => ?_,fun hcreating => ?_⟩
      · rw [hstate] at hkind
        change stage.kind.off = true ∨ stage.kind = .ahead ∧ _ at hkind
        rw [hfile]
        revert hkind
        cases stage.kind <;> simp [LockKind.Fits,LockKind.off]
      · exact hkind.resolve_right fun hahead => hahead.2 hcreating
      · rw [hcreating] at hkind
        rcases hkind with hkind | ⟨hkind,-⟩ <;> cases hkind
    · cases hcontent.symm.trans hfile
      refine ⟨i,_,List.getElem?_set_self hi,howner.imp_right ?_⟩
      rintro ⟨⟨k,stage,hstate,rfl⟩,hleft⟩
      exact ⟨by rw [hcall k stage hstate]; rfl,hleft⟩

end Act

end Settled

theorem unsettled_of_runs {k : DaemonIdentity} {h : List lockSig.mortal.Event} {s : MortalStage}
    (hr : lockStages.mortal.Runs k h s) :
    (∀ k' stage, s = some (k',stage) → k' = k) ∧ (s.kind.writing = true → unsettled h = true) := by
  refine hr.invariant ?_ ?_
  · refine ⟨?_,nofun⟩
    rintro k' stage heq
    cases heq
    rfl
  · rintro h old e new ⟨hcall,hwriting⟩ hs
    obtain ⟨k',stage,rfl,⟨e,stage',rfl,rfl,hstep⟩ | ⟨op,rfl,rfl,-⟩⟩ := mortal_step hs
    swap
    · exact ⟨nofun,nofun⟩
    refine ⟨?_,fun hnew => ?_⟩
    · rintro _ _ heq
      cases heq
      exact hcall k' stage rfl
    unfold unsettled
    rw [List.foldl_append]
    cases hstep with
    | created | truncated => rfl
    | createdLocked | rewound => exact hwriting rfl
    | readBytes fd limit bytes =>
      revert hnew
      change (LockStage.read fd (parsed bytes).isOk).kind.writing = true → _
      cases (parsed bytes).isOk <;> exact nofun
    | _ => exact nomatch hnew

theorem settled_of_reachable {init : LockShared} (hnone : init.file = none)
    {P : Pool lockStages.mortal LockShared}
    (hr : Pool.Reachable lockStages.mortal mortalWorld Completed init P) :
    Settled P ∧ ∀ t ∈ P.threads, Readable t.call := by
  refine hr.invariant ?_ ?_
  · refine ⟨⟨⟨trivial,nofun,nofun⟩,fun content hfile => ?_⟩,nofun⟩
    cases hnone.symm.trans hfile
  · rintro P l P' hr ⟨hsettled,hreadable⟩ hd hs
    cases hs with
    | spawn k =>
      refine ⟨hsettled.spawn k,fun t ht => ?_⟩
      rcases List.mem_append.1 ht with ht | ht
      · exact hreadable t ht
      · rw [List.mem_singleton.1 ht]
        exact hd
    | act i t e new shared ht _ hm hw =>
      obtain ⟨hkeeps,hcompleted⟩ := hd
      obtain ⟨hcall,hunsettled⟩ := unsettled_of_runs (hr.runs_at ht)
      have hfits := hsettled.asserts.thread i t ht
      refine ⟨hsettled.act (owns_of_reachable hr) ht hcall ?_,fun u hu => ?_⟩
      · refine progress_of_step hfits hm hw (fun hkind => ?_) hkeeps
        refine hcompleted t.view ?_ (hunsettled hkind)
        simp only [Pool.view,List.getElem?_map,ht,Option.map_some]
      · rcases List.mem_or_eq_of_mem_set hu with hu | rfl
        · exact hreadable u hu
        · exact hreadable t (List.mem_of_getElem? ht)
    | crash _ hrestart => exact hrestart.elim

theorem Readable.take {k : DaemonIdentity} (h : Readable k) :
    parsed ((LockText.toVec k).take 4097) = .ok k := by
  have hread := h
  unfold Readable parsed DaemonLock.readLock at h
  simp only [bind_ok_iff,refuseIf_ok_iff,decide_eq_false_iff_not,Nat.not_lt] at h
  obtain ⟨_,_,_,hlength,_⟩ := h
  rw [List.take_of_length_le (Nat.le_succ_of_le hlength)]
  exact hread

def AtRest (t : Thread processes) : Prop :=
  t.view.Running → ∃ next, t.state = Program.ask (S := lockSig.mortal) .live next

def Truthful (probe : Nat → Option Nat) (P : Pool processes LockShared) : Prop :=
  ∀ t ∈ P.threads, ¬ t.view.Running → probe t.call.pid ≠ some t.call.startTime

theorem idle_stage {t : Thread processes} (h : AtRest t) (halive : t.alive = true)
    {R : processes.State → lockStages.mortal.State → Prop}
    (hR : ∀ p s, R p s → Conforms lockStages.mortal (LoopPost fun _ i => Empty.elim i) p s)
    (hm : Pool.Matches R t u) :
    (u.state = none ∧ ¬ t.view.Running) ∨ ∃ k stage, u.state = some (k,stage) ∧
      stage.kind = .early ∧ stage.fd? = none := by
  have hresult : processes.result t.state = lockStages.mortal.result u.state :=
    congrArg ThreadView.result hm.view
  rcases hu : u.state with - | ⟨k,stage⟩
  · refine .inl ⟨rfl,fun hrunning => ?_⟩
    rw [hu] at hresult
    cases hresult.symm.trans hrunning.2
  · refine .inr ⟨k,stage,rfl,?_⟩
    by_cases hrunning : t.view.Running
    · obtain ⟨next,hstate⟩ := h hrunning
      have hconforms := hR _ _ (hm.related halive)
      rw [hstate,hu] at hconforms
      obtain ⟨s,hs,-⟩ := hconforms.2 (some ())
      obtain ⟨_,_,heq,⟨e,_,he,-,hstep⟩ | ⟨_,he,-⟩⟩ := mortal_step hs
      · cases heq
        cases hstep <;> cases he
        exact ⟨rfl,rfl⟩
      · cases he
    · cases hover : lockStages.result (k,stage) with
      | none =>
        rw [hu] at hresult
        refine absurd ⟨halive,hresult.trans ?_⟩ hrunning
        change (lockStages.result (k,stage)).map some = none
        rw [hover]
        rfl
      | some =>
        cases stage <;> first | exact ⟨rfl,rfl⟩ | cases hover

end Flock

open Flock

/-- In every history in which whoever made or emptied the file has written its identity to it, and
gave up the lock only by dying: once nobody has the lock or asks for it, the next `acquire` gets it,
on a host where the operations work and the probe knows who is gone. -/
theorem lock_available [LockText] {init : LockShared} (hnone : init.file = none)
    (hfree : init.holder = none) {P : Pool processes LockShared}
    (hr : Pool.Reachable processes mortalWorld Completed init P) (hidle : ∀ t ∈ P.threads, AtRest t)
    {probe : Nat → Option Nat} (hprobe : Truthful probe P) (me : DaemonIdentity) :
    (calm probe).Achieves Got (acquire me).run P.shared := by
  obtain ⟨Q,hQ,hPQ⟩ := hr.similar (Conforms.simulates_mortal LockOp.nonempty_answer process_conforms)
  obtain ⟨hsettled,hreadable⟩ := settled_of_reachable hnone hQ
  have hstage : ∀ {i : Nat} {u : Thread lockStages.mortal}, Q.threads[i]? = some u →
      (u.state = none ∧ probe u.call.pid ≠ some u.call.startTime) ∨
        ∃ k stage, u.state = some (k,stage) ∧ stage.kind = .early ∧ stage.fd? = none := by
    intro i u hu
    obtain ⟨t,ht,hm⟩ := hPQ.matching hu
    have hmem := List.mem_of_getElem? ht
    have halive := hr.alive (fun _ _ h => h) t hmem
    refine (idle_stage (hidle t hmem) halive (fun _ _ h => h.1) hm).imp_left ?_
    rintro ⟨hdead,hgone⟩
    have hcall : t.call = u.call := congrArg ThreadView.call hm.view
    exact ⟨hdead,hcall ▸ hprobe t hmem hgone⟩
  rw [hPQ.shared]
  refine acquire_achieves ?_ ?_
  · cases hholder : Q.shared.holder with
    | none => rfl
    | some fd =>
      obtain ⟨i,u,hu,hfd⟩ := held_of_reachable hfree hQ fd hholder
      rcases hstage hu with ⟨hdead,-⟩ | ⟨k,stage,hstate,-,hnone⟩
      · rw [hdead] at hfd
        cases hfd
      · rw [hstate] at hfd
        cases hnone.symm.trans hfd
  · cases hfile : Q.shared.file with
    | none => exact .inl rfl
    | some content =>
      right
      obtain ⟨i,u,hu,howner⟩ := hsettled.owner content hfile
      rcases hstage hu with ⟨hdead,hgone⟩ | ⟨k,stage,hstate,hkind,-⟩
      · rcases howner with hwriting | ⟨rfl,-⟩
        · rw [hdead] at hwriting
          cases hwriting
        · exact ⟨_,u.call,rfl,(hreadable u (List.mem_of_getElem? hu)).take,hgone⟩
      · rw [show MortalStage.kind u.state = .early from (congrArg _ hstate).trans hkind] at howner
        rcases howner with hwriting | ⟨-,hleft⟩
        · cases hwriting
        · cases hleft

namespace Sample

attribute [local instance] lockText

def nobody : Nat → Option Nat := fun _ => none

def nextDaemon : DaemonIdentity := ⟨1,10,70⟩

def deathHost : Host mortalWorld where
  answer s op := (none,match fdOf op with
    | some fd => s.closed fd
    | none => s)
  answers _ _ _ := rfl

def diedLocked : Pool processes LockShared :=
  noProcess.play (.spawn firstDaemon :: .replicate 4 (.act 0 fileHost) ++ [.act 0 deathHost])

def diedCreating : Pool processes LockShared :=
  noProcess.play [.spawn firstDaemon,.act 0 fileHost,.act 0 deathHost]

theorem gone {P : Pool processes LockShared}
    (h : (P.threads.all fun t => t.view.result.isSome) = true) :
    ∀ t ∈ P.threads, ¬ t.view.Running := by
  rintro t ht ⟨-,hresult⟩
  have hsome := List.all_eq_true.1 h t ht
  rw [hresult] at hsome
  cases hsome

end Sample

section
attribute [local instance] Sample.lockText

theorem lock_available_next :
    let _ := Sample.lockText
    ∃ P : Pool processes LockShared,
      Pool.Reachable processes mortalWorld Completed Sample.noLock P ∧
      (calm Sample.nobody).Achieves Got (acquire Sample.nextDaemon).run P.shared := by
  have hr : Pool.Reachable processes mortalWorld Completed Sample.noLock Sample.diedLocked :=
    Pool.Reachable.init.play_decided
      (.spawn Sample.firstDaemon :: .replicate 4 (.act 0 Sample.fileHost) ++
        [.act 0 Sample.deathHost]) (by decide +kernel)
  have hover : ∀ t ∈ Sample.diedLocked.threads, ¬ t.view.Running := Sample.gone (by decide +kernel)
  have hprobe : Truthful Sample.nobody Sample.diedLocked := fun _ _ _ => nofun
  exact ⟨_,hr,lock_available rfl rfl hr (fun t ht hrunning => absurd hrunning (hover t ht)) hprobe _⟩

/-- A process that dies before it has written its identity leaves a lock that nobody ever gets. -/
theorem lock_lost :
    let _ := Sample.lockText
    ∃ P : Pool processes LockShared,
      Pool.Reachable processes mortalWorld (fun _ _ => True) Sample.noLock P ∧
      (∀ t ∈ P.threads, ¬ t.view.Running) ∧ Truthful Sample.nobody P ∧
      ∀ me, (calm Sample.nobody).Achieves
        (fun _ r => r = .error ⟨false,"EOF while parsing a value at line 1 column 0"⟩)
        (acquire me).run P.shared := by
  have hr : Pool.Reachable processes mortalWorld (fun _ _ => True) Sample.noLock
      Sample.diedCreating := Pool.Reachable.init.play _ fun _ _ _ => trivial
  have hover : ∀ t ∈ Sample.diedCreating.threads, ¬ t.view.Running := Sample.gone (by decide +kernel)
  obtain ⟨hfree,hempty⟩ : Sample.diedCreating.shared.holder = none ∧
      Sample.diedCreating.shared.file = some [] := by
    decide +kernel
  refine ⟨_,hr,hover,fun _ _ _ => nofun,fun me => ?_⟩
  refine acquire_existing (hempty ▸ nofun) (World.achieves_run_bind.2 ?_)
  refine (readLock_achieves hempty hfree).mono ?_
  rintro s' r ⟨-,-,rfl⟩
  rfl

end

end WatchMe
