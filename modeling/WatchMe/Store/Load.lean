import Mathlib.Data.Set.Finite.Basic
import WatchMe.Store.Write

/-! # What a load returns after a write that failed

`loads_iff` says what a load may return, by the entry of the directory. A write that reported an
error is seen by the next load if the error was that of its last step.
-/
namespace WatchMe
open Effects

namespace JsonStore
variable {V : Type} [JsonCodec V]
variable {s : Directory} {parent : TrustedParent} {store : JsonStore}

/-- What an entry is for `load`. -/
inductive Reading (V : Type) where
  | missing
  | present (value : V)
  | corrupt
  | refused (type : FileType)

def contents (store : JsonStore) (bytes : List UInt8) : Option V :=
  if bytes.length ≤ store.maxBytes then (JsonCodec.fromSlice bytes).toOption else none

def reading (store : JsonStore) : Option FileNode → Reading V
  | none => .missing
  | some (.file bytes) =>
    match store.contents bytes with
    | some value => .present value
    | none => .corrupt
  | some node => .refused node.type

theorem contents_take (store : JsonStore) (bytes : List UInt8) :
    (store.contents (bytes.take (store.maxBytes + 1)) : Option V) = store.contents bytes := by
  unfold contents
  by_cases hfits : bytes.length ≤ store.maxBytes
  · rw [List.take_of_length_le (by omega)]
  · have hlong : ¬ (bytes.take (store.maxBytes + 1)).length ≤ store.maxBytes := by
      rw [List.length_take]
      omega
    rw [if_neg hlong,if_neg hfits]

theorem decoded_eq (store : JsonStore) (parent : TrustedParent) (bytes : List UInt8) :
    (store.decoded parent bytes : StoreM (Stored V)) = match (store.contents bytes : Option V) with
      | some value => pure (.present value)
      | none => quarantine parent bytes := by
  unfold decoded contents
  split
  · cases (JsonCodec.fromSlice bytes : Except String V) <;> rfl
  · rfl

/-- `load`, on a host of which any operation may fail, may return this. -/
def Loads (store : JsonStore) (s : Directory) (outcome : Except StoreError (Stored V)) : Prop :=
  directoryWorld.Admits store.loadImpl.run s fun _ _ result => result = outcome

/-- The answers that the reading of the entry leaves. -/
def MayReturn (store : JsonStore) (parent : TrustedParent) (s : Directory)
    (outcome : Except StoreError (Stored V)) : Reading V → Prop
  | .missing => outcome = .ok .missing ∨
    ∃ error, error.raw ≠ some enoent ∧ outcome = .error (.io error)
  | .refused .symlink => ∃ error, error.raw ≠ some enoent ∧ outcome = .error (.io error)
  | .refused _ => outcome = .error (.unsafePath store.display) ∨
    ∃ error, outcome = .error (.io error)
  | .present value => outcome = .ok (.present value) ∨ ∃ error, outcome = .error (.io error)
  | .corrupt => (∃ pid nonce, s[generated parent.name "corrupt" pid nonce]? = none ∧
      outcome = .ok (.corrupt (parent.path ++ [.normal (generated parent.name "corrupt" pid nonce)])))
    ∨ ∃ error, outcome = .error (.io error)

omit [JsonCodec V] in
theorem quarantine_ensures (parent : TrustedParent) (bytes : List UInt8) (s : Directory) :
    directoryWorld.Ensures (quarantine (V := V) parent bytes).run s fun _ _ result =>
      (∃ pid nonce, s[generated parent.name "corrupt" pid nonce]? = none ∧ result =
        .ok (.corrupt (parent.path ++ [.normal (generated parent.name "corrupt" pid nonce)]))) ∨
      ∃ error, result = .error (.io error) := by
  refine World.ensures_run_bind.2 ((generatedName_ensures parent.name "corrupt" s).mono ?_)
  rintro h₁ s₁ _ ⟨rfl,-,pid,nonce,rfl⟩
  refine World.ensures_run_bind.2 (World.ensures_adapt.2 (ensures_call fun created s₂ h₂ => ?_))
  cases created with
  | error error => exact .inr ⟨error,rfl⟩
  | ok =>
    obtain ⟨hfree,-⟩ := h₂
    refine World.ensures_run_bind.2 ((orRemoved_ensures (R := fun _ _ _ => True)
      fun _ _ _ _ _ => trivial).mono ?_)
    rintro h₃ s₃ _ ⟨-,-,result,-,rfl,-⟩
    cases result with
    | error error => exact .inr ⟨error,rfl⟩
    | ok => exact World.ensures_done.2 (.inl ⟨pid,nonce,hfree,rfl⟩)

theorem admits_io {α β : Type} {p : Program storeSig (Except IoError α)} {f : α → StoreM β}
    {outcome : Except StoreError β} :
    directoryWorld.Admits (io p >>= f).run s (fun _ _ r => r = outcome) ↔
      directoryWorld.Admits p s fun _ s' r => match r with
        | .ok a => directoryWorld.Admits (f a).run s' fun _ _ r => r = outcome
        | .error error => outcome = .error (.io error) := by
  refine World.admits_run_bind.trans (World.admits_adapt.trans ?_)
  refine exists₃_congr fun h s' r => and_congr_right fun _ => and_congr_right fun _ => ?_
  cases r with
  | ok => exact Iff.rfl
  | error => exact eq_comm

omit [JsonCodec V] in
theorem quarantine_admits (parent : TrustedParent) (bytes : List UInt8) {pid nonce : Nat}
    (hfree : s[generated parent.name "corrupt" pid nonce]? = none) :
    directoryWorld.Admits (quarantine (V := V) parent bytes).run s fun _ _ result => result =
      .ok (.corrupt (parent.path ++ [.normal (generated parent.name "corrupt" pid nonce)])) := by
  refine World.admits_run_bind.2 (World.admits_run_bind.2 (World.admits_bind.2
    (admits_call.2 ⟨nonce,s,rfl,World.admits_done.2 ?_⟩)))
  refine World.admits_run_bind.2 (World.admits_bind.2
    (admits_call.2 ⟨pid,s,rfl,World.admits_done.2 (World.admits_done.2 ?_)⟩))
  refine admits_io.2 (admits_call.2 ⟨.ok (),_,⟨hfree,rfl⟩,?_⟩)
  refine World.admits_run_bind.2 (World.admits_bind.2 (World.admits_run_bind.2
    (World.admits_run_bind.2 (admits_call.2 ⟨.ok (),_,rfl,?_⟩))))
  refine World.admits_run_bind.2 (admits_call.2 ⟨.ok (),_,rfl,?_⟩)
  refine admits_call.2 ⟨.ok (),_,rfl,?_⟩
  refine World.admits_bind.2 (admits_call.2 ⟨.ok (),_,rfl,World.admits_done.2 ?_⟩)
  exact World.admits_done.2 (World.admits_done.2 rfl)

theorem decoded_iff {bytes : List UInt8} {outcome : Except StoreError (Stored V)} :
    ((∃ error, outcome = .error (.io error)) ∨ directoryWorld.Admits
      (store.decoded parent (bytes.take (store.maxBytes + 1))).run s fun _ _ r => r = outcome) ↔
      MayReturn store parent s outcome (store.reading (some (.file bytes))) := by
  rw [decoded_eq,contents_take]
  unfold reading
  dsimp only
  cases (store.contents bytes : Option V) with
  | some => exact or_comm.trans (or_congr_left (World.admits_done.trans eq_comm))
  | none =>
    constructor
    · rintro (hio | ⟨h,s',_,ht,hw,rfl⟩)
      · exact .inr hio
      · exact quarantine_ensures parent _ s h s' _ ht hw
    · rintro (⟨pid,nonce,hfree,rfl⟩ | hio)
      · exact .inr (quarantine_admits parent _ hfree)
      · exact .inl hio

theorem readOpened_iff {node : FileNode} {outcome : Except StoreError (Stored V)}
    (hnode : s[parent.name]? = some node) (hopen : node ≠ .symlink) :
    directoryWorld.Admits (store.readOpened parent).run s (fun _ _ r => r = outcome) ↔
      MayReturn store parent s outcome (store.reading (some node)) := by
  have hfailed : (∃ error, outcome = .error (.io error)) →
      directoryWorld.Admits (store.readOpened parent).run s (fun _ _ r => r = outcome) := by
    rintro ⟨error,heq⟩
    exact admits_io.2 (admits_call.2 ⟨.error error,s,rfl,heq⟩)
  cases node with
  | symlink => exact (hopen rfl).elim
  | other =>
    refine ⟨fun h => ?_,?_⟩
    · obtain ⟨stat,s₁,h₁,h⟩ := admits_call.1 (admits_io.1 h)
      rcases stat with error | ⟨type,size⟩
      · exact .inr ⟨error,h⟩
      · obtain ⟨rfl,node,hnode',rfl,-⟩ := h₁
        cases hnode'.symm.trans hnode
        exact .inl (admits_checked.1 h).symm
    · rintro (h | h)
      · exact admits_io.2 (admits_call.2
          ⟨.ok (.other,0),s,⟨rfl,_,hnode,rfl,nofun⟩,admits_checked.2 h.symm⟩)
      · exact hfailed h
  | file bytes =>
    refine Iff.trans ⟨fun h => ?_,?_⟩ decoded_iff
    · obtain ⟨stat,s₁,h₁,h⟩ := admits_call.1 (admits_io.1 h)
      rcases stat with error | ⟨type,size⟩
      · exact .inl ⟨error,h⟩
      obtain ⟨rfl,node,hnode',rfl,hsize⟩ := h₁
      cases hnode'.symm.trans hnode
      replace h := admits_checked.1 (admits_checked.1 h)
      simp only [hsize bytes rfl,refuseIf,Int.not_ofNat_neg,decide_false,Bool.false_eq_true,
        if_false] at h
      obtain ⟨flags,s₂,h₂,h⟩ := admits_call.1 (admits_io.1 h)
      obtain rfl : s₂ = s₁ := h₂
      cases flags with
      | error error => exact .inl ⟨error,h⟩
      | ok =>
      obtain ⟨set,s₃,h₃,h⟩ := admits_call.1 (admits_io.1 h)
      obtain rfl : s₃ = s₂ := h₃
      cases set with
      | error error => exact .inl ⟨error,h⟩
      | ok =>
      obtain ⟨read,s₄,h₄,h⟩ := admits_call.1 (admits_io.1 h)
      cases read with
      | error error => exact .inl ⟨error,h⟩
      | ok =>
        obtain ⟨rfl,bytes',hbytes',rfl⟩ := h₄
        cases hbytes'.symm.trans hnode
        exact .inr h
    · rintro (h | h)
      · exact hfailed h
      · refine admits_io.2 (admits_call.2 ⟨.ok (.regular,bytes.length),s,
          ⟨rfl,_,hnode,rfl,fun _ heq => (by cases heq; rfl)⟩,?_⟩)
        refine admits_checked.2 (admits_checked.2 ?_)
        simp only [refuseIf,Int.not_ofNat_neg,decide_false,Bool.false_eq_true,if_false]
        refine admits_io.2 (admits_call.2 ⟨.ok 0,s,rfl,?_⟩)
        refine admits_io.2 (admits_call.2 ⟨.ok (),s,rfl,?_⟩)
        exact admits_io.2 (admits_call.2 ⟨.ok _,s,⟨rfl,bytes,hnode,rfl⟩,h⟩)

omit [JsonCodec V] in
theorem mayReturn_io {error : IoError} (hraw : error.raw ≠ some enoent) (r : Reading V) :
    MayReturn store parent s (.error (.io error)) r := by
  cases r with
  | missing => exact .inr ⟨error,hraw,rfl⟩
  | present => exact .inr ⟨error,rfl⟩
  | corrupt => exact .inr ⟨error,rfl⟩
  | refused type =>
    cases type with
    | symlink => exact ⟨error,hraw,rfl⟩
    | regular => exact .inr ⟨error,rfl⟩
    | other => exact .inr ⟨error,rfl⟩

theorem loads_iff {outcome : Except StoreError (Stored V)} :
    Loads store s outcome ↔ ∃ h result, Program.Traces (openParent store.path).run h result ∧
      match result with
      | .error error => outcome = .error error
      | .ok parent => MayReturn store parent s outcome (store.reading s[parent.name]?) := by
  unfold Loads loadImpl
  rw [World.admits_run_bind]
  constructor
  · rintro ⟨h,s₁,result,ht,hw,hrest⟩
    obtain rfl := (quiet_answered ((openParent_quiet _).traced ht)).1 hw
    refine ⟨h,result,ht,?_⟩
    cases result with
    | error => exact hrest.symm
    | ok =>
      obtain ⟨opened,s₂,hopened,hanswer⟩ := admits_call.1 (World.admits_bind.1 hrest)
      cases opened with
      | error error =>
        obtain ⟨rfl,habsent⟩ := hopened
        have heq := World.admits_done.1 hanswer
        dsimp only at heq ⊢
        by_cases hraw : error.raw = some enoent
        · rw [if_pos hraw] at heq
          rw [habsent hraw]
          exact .inl heq.symm
        · rw [if_neg hraw] at heq
          exact heq ▸ mayReturn_io hraw _
      | ok =>
        obtain ⟨rfl,node,hnode,hsymlink⟩ := hopened
        dsimp only
        rw [hnode]
        exact (readOpened_iff hnode hsymlink).1 hanswer
  · rintro ⟨h,result,ht,hrest⟩
    have hw := (quiet_answered (s := s) ((openParent_quiet _).traced ht)).2 rfl
    refine ⟨h,s,result,ht,hw,?_⟩
    cases result with
    | error => exact hrest.symm
    | ok parent =>
      refine World.admits_bind.2 (admits_call.2 ?_)
      dsimp only at hrest ⊢
      cases hentry : s[parent.name]? with
      | none =>
        rw [hentry] at hrest
        rcases hrest with rfl | ⟨error,hraw,rfl⟩
        · exact ⟨.error ⟨false,some enoent,""⟩,s,⟨rfl,fun _ => hentry⟩,World.admits_done.2 rfl⟩
        · exact ⟨.error error,s,⟨rfl,fun heq => (hraw heq).elim⟩,
            World.admits_done.2 (by rw [if_neg hraw])⟩
      | some node =>
        rw [hentry] at hrest
        by_cases hsymlink : node = .symlink
        · subst hsymlink
          obtain ⟨error,hraw,rfl⟩ := hrest
          exact ⟨.error error,s,⟨rfl,fun heq => (hraw heq).elim⟩,
            World.admits_done.2 (by rw [if_neg hraw])⟩
        · exact ⟨.ok (),s,⟨rfl,node,hentry,hsymlink⟩,(readOpened_iff hentry hsymlink).2 hrest⟩

theorem generated_injective (name label : String) (pid : Nat) :
    Function.Injective (generated name label pid) := by
  intro nonce nonce' heq
  have hlist := congrArg String.toList heq
  simp only [generated,String.toList_append,List.append_assoc,List.append_cancel_left_eq] at hlist
  simpa using congrArg (fun digits => Nat.ofDigitChars 10 digits 0) hlist

theorem exists_free_nonce (s : Directory) (name label : String) (pid : Nat) :
    ∃ nonce, s[generated name label pid nonce]? = none := by
  obtain ⟨-,⟨nonce,rfl⟩,hfree⟩ := (Set.infinite_range_of_injective
    (generated_injective name label pid)).exists_notMem_finset s.keys.toFinset
  refine ⟨nonce,?_⟩
  rw [List.mem_toFinset,Std.ExtTreeMap.mem_keys] at hfree
  exact getElem?_neg s _ hfree

theorem loads_congr {s' : Directory} (hname : ∀ name, fileName store.path = some name →
      (store.reading s'[name]? : Reading V) = store.reading s[name]? ∧ ∀ pid nonce, s'[generated
      name "corrupt" pid nonce]? = s[generated name "corrupt" pid nonce]?)
    (outcome : Except StoreError (Stored V)) : Loads store s' outcome ↔ Loads store s outcome := by
  rw [loads_iff,loads_iff]
  refine exists₂_congr fun h result => and_congr_right fun ht => ?_
  cases result with
  | error => exact Iff.rfl
  | ok parent =>
    obtain ⟨hreading,hfree⟩ := hname parent.name (openParent_name ht)
    dsimp only
    rw [hreading]
    cases (store.reading s[parent.name]? : Reading V) with
    | missing | present => exact Iff.rfl
    | refused type => cases type <;> exact Iff.rfl
    | corrupt =>
      unfold MayReturn
      simp only [hfree]

omit [JsonCodec V] in
theorem mayReturn_ok {r : Reading V} :
    (∀ value, MayReturn store parent s (.ok (.present value)) r → r = .present value) ∧
    ∀ copy, MayReturn store parent s (.ok (.corrupt copy)) r → r = .corrupt := by
  cases r with
  | missing => simp [MayReturn]
  | present => simp [MayReturn]
  | corrupt => simp [MayReturn]
  | refused type => cases type <;> simp [MayReturn]

/-- After a write that failed every load returns what it would have returned before, exactly if the
sync of the directory did not fail, or the old content reads as the new one. -/
theorem failed_write_invisible_iff {store : JsonStore} {value : V} {s s' : Directory}
    {h : List storeSig.Event} {error : StoreError}
    (ht : Program.Traces (store.writeImpl value).run h (.error error))
    (hw : directoryWorld.Answered s h s') :
    (∀ outcome : Except StoreError (Stored V), Loads store s' outcome ↔ Loads store s outcome) ↔
      (SyncFailed h → ∀ name bytes, fileName store.path = some name →
        JsonCodec.toVec value = .ok bytes →
        (store.reading s[name]? : Reading V) = store.reading (some (.file bytes))) := by
  rcases write_ensures store value s h s' _ ht hw with
    ⟨parent,bytes,⟨k,hopened⟩,hvec,-,hanswer,hfile,hframe⟩ | ⟨-,hnot,hframe⟩
  · have hname := openParent_name hopened
    have hfailed : SyncFailed h := hanswer.resolve_left fun heq => by cases heq
    have hcopies : ∀ pid nonce, s'[generated parent.name "corrupt" pid nonce]? =
        s[generated parent.name "corrupt" pid nonce]? := by
      intro pid nonce
      refine hframe _ ?_
      rintro (heq | ⟨pid',nonce',heq⟩)
      · exact generated_ne_name _ _ _ _ heq
      · exact corrupt_ne_tmp _ _ _ _ _ heq
    constructor
    · rintro hsame - name bytes' hname' hvec'
      obtain rfl := Option.some.inj (hname.symm.trans hname')
      obtain rfl := Except.ok.inj (hvec.symm.trans hvec')
      -- a load after the write returns the new content, so one before it did
      have hbefore : ∀ stored : Stored V,
          MayReturn store parent s' (.ok stored) (store.reading (some (.file bytes))) →
          ∃ parent', MayReturn store parent' s (.ok stored) (store.reading s[parent.name]?) := by
        intro stored hreturn
        rw [← hfile] at hreturn
        obtain ⟨k',result,hopened',hbefore⟩ :=
          loads_iff.1 ((hsame (.ok stored)).1 (loads_iff.2 ⟨k,.ok parent,hopened,hreturn⟩))
        cases result with
        | error => cases hbefore
        | ok parent' =>
          have heq := Option.some.inj ((openParent_name hopened').symm.trans hname)
          exact ⟨parent',heq ▸ hbefore⟩
      cases hcontents : (store.contents bytes : Option V) with
      | some value =>
        simp only [reading,hcontents] at hbefore ⊢
        obtain ⟨parent',hreturn⟩ := hbefore (.present value) (.inl rfl)
        exact mayReturn_ok.1 value hreturn
      | none =>
        obtain ⟨nonce,hfree⟩ := exists_free_nonce s' parent.name "corrupt" 0
        simp only [reading,hcontents] at hbefore ⊢
        obtain ⟨parent',hreturn⟩ := hbefore _ (.inl ⟨0,nonce,hfree,rfl⟩)
        exact mayReturn_ok.2 _ hreturn
    · intro hreading outcome
      refine loads_congr (fun name hname' => ?_) outcome
      obtain rfl := Option.some.inj (hname.symm.trans hname')
      rw [hfile]
      exact ⟨(hreading hfailed _ _ hname hvec).symm,hcopies⟩
  · refine iff_of_true (loads_congr fun name hname => ?_) fun hfailed => (hnot hfailed).elim
    have hsame := hframe name hname
    refine ⟨?_,fun pid nonce => hsame _ ?_⟩
    · rw [hsame name]
      rintro ⟨pid,nonce,heq⟩
      exact generated_ne_name _ _ _ _ heq.symm
    · rintro ⟨pid',nonce',heq⟩
      exact corrupt_ne_tmp _ _ _ _ _ heq

end JsonStore

namespace Sample
open JsonStore

@[reducible] def flagCodec : JsonCodec Bool where
  toVec value := .ok [if value then 1 else 0]
  fromSlice bytes := match bytes with
    | [0] => .ok false
    | [1] => .ok true
    | _ => .error "expected a flag"

def flagStore : JsonStore := ⟨[.rootDir,.normal "flag"],"/flag",16⟩

def flagDirectory : Directory := (∅ : Directory).insert "flag" (.file [0])

def untilSynced : List storeSig.Event :=
  [⟨.physicalize [.rootDir],.ok [.rootDir]⟩,⟨.openDirectory none,.ok ()⟩,
    ⟨.statDirectory,.ok (0,0)⟩,⟨.geteuid,(0 : Nat)⟩,⟨.statAt "flag",.ok .regular⟩,
    ⟨.nanos,(1 : Nat)⟩,⟨.processId,(7 : Nat)⟩,⟨.create "flag.tmp-7-1",.ok ()⟩,
    ⟨.writeAll "flag.tmp-7-1" [1],.ok ()⟩,⟨.flush "flag.tmp-7-1",.ok ()⟩,
    ⟨.syncAll "flag.tmp-7-1",.ok ()⟩]

def diskFull : IoError := ⟨false,some 28,"No space left on device (os error 28)"⟩

def diskError : IoError := ⟨false,some 5,"Input/output error (os error 5)"⟩

def notRenamed : List storeSig.Event :=
  untilSynced ++ [⟨.renameAt "flag.tmp-7-1" "flag",.error diskFull⟩,⟨.unlinkAt "flag.tmp-7-1",.ok ()⟩]

def notSynced : List storeSig.Event :=
  untilSynced ++ [⟨.renameAt "flag.tmp-7-1" "flag",.ok ()⟩,⟨.syncDirectory,.error diskError⟩,
    ⟨.unlinkAt "flag.tmp-7-1",.error ⟨false,some enoent,"No such file or directory (os error 2)"⟩⟩]

theorem untilSynced_answered : directoryWorld.Answered flagDirectory untilSynced
    (flagDirectory.insert "flag.tmp-7-1" (.file [1])) :=
  .cons rfl (.cons rfl (.cons rfl (.cons rfl (.cons ⟨rfl,rfl⟩ (.cons rfl (.cons rfl
    (.cons ⟨rfl,rfl⟩ (.cons rfl (.cons rfl (.cons rfl (.nil _)))))))))))

theorem flag_opens : Program.Traces (openParent flagStore.path).run (untilSynced.take 4)
    (.ok ⟨[.rootDir],"flag"⟩) :=
  .ask _ (.ask _ (.ask _ (.ask _ (.done _))))

end Sample

theorem failed_write_invisible_renamed :
    let _ := Sample.flagCodec
    ∃ s', Program.Traces (Sample.flagStore.writeImpl true).run Sample.notRenamed
        (.error (.io Sample.diskFull)) ∧
      directoryWorld.Answered Sample.flagDirectory Sample.notRenamed s' ∧
      ∀ outcome : Except StoreError (Stored Bool), JsonStore.Loads Sample.flagStore s' outcome ↔
        JsonStore.Loads Sample.flagStore Sample.flagDirectory outcome := by
  intro _
  have ht : Program.Traces (Sample.flagStore.writeImpl true).run Sample.notRenamed
      (.error (.io Sample.diskFull)) := by
    unfold Sample.notRenamed Sample.untilSynced
    repeat' first | exact .done _ | refine .ask _ ?_
  have hw : directoryWorld.Answered Sample.flagDirectory Sample.notRenamed
      ((Sample.flagDirectory.insert "flag.tmp-7-1" (.file [1])).erase "flag.tmp-7-1") :=
    Sample.untilSynced_answered.append (.cons rfl (.cons rfl (.nil _)))
  refine ⟨_,ht,hw,(JsonStore.failed_write_invisible_iff ht hw).2 fun hfailed => ?_⟩
  exact (JsonStore.not_syncFailed (by simp [Sample.notRenamed,Sample.untilSynced]) hfailed).elim

/-- A write whose last step failed is seen by the next load. -/
theorem failed_write_visible :
    let _ := Sample.flagCodec
    ∃ s', Program.Traces (Sample.flagStore.writeImpl true).run Sample.notSynced
        (.error (.io Sample.diskError)) ∧
      directoryWorld.Answered Sample.flagDirectory Sample.notSynced s' ∧
      JsonStore.Loads Sample.flagStore Sample.flagDirectory (.ok (.present false)) ∧
      JsonStore.Loads Sample.flagStore s' (.ok (.present true)) ∧
      ¬ JsonStore.Loads Sample.flagStore Sample.flagDirectory (.ok (.present true)) := by
  intro _
  have ht : Program.Traces (Sample.flagStore.writeImpl true).run Sample.notSynced
      (.error (.io Sample.diskError)) := by
    unfold Sample.notSynced Sample.untilSynced
    repeat' first | exact .done _ | refine .ask _ ?_
  have hw : directoryWorld.Answered Sample.flagDirectory Sample.notSynced
      (((Sample.flagDirectory.insert "flag.tmp-7-1" (.file [1])).erase "flag.tmp-7-1").insert "flag"
        (.file [1])) :=
    Sample.untilSynced_answered.append (.cons ⟨_,rfl,rfl⟩ (.cons rfl (.cons rfl (.nil _))))
  have hloads : ∀ (s : Directory) (value : Bool), s["flag"]? = some (.file [if value then 1 else 0]) →
      JsonStore.Loads Sample.flagStore s (.ok (.present value)) := by
    intro s value hentry
    refine JsonStore.loads_iff.2 ⟨_,_,Sample.flag_opens,?_⟩
    dsimp only
    rw [hentry]
    cases value <;> exact .inl rfl
  refine ⟨_,ht,hw,hloads _ _ rfl,hloads _ _ rfl,fun hbefore => ?_⟩
  obtain ⟨h,result,hopened,hreturn⟩ := JsonStore.loads_iff.1 hbefore
  cases result with
  | error => cases hreturn
  | ok parent =>
    obtain ⟨path,name⟩ := parent
    obtain rfl : "flag" = name := Option.some.inj (JsonStore.openParent_name hopened)
    have hold : (Sample.flagStore.reading Sample.flagDirectory["flag"]? : JsonStore.Reading Bool) =
        .present false := rfl
    cases hold.symm.trans (JsonStore.mayReturn_ok.1 true hreturn)

end WatchMe
