import WatchMe.Store.Load

/-! # What is written is loaded

A write that has succeeded is loaded again, nothing longer than the limit is loaded or put in place,
and a write that is stopped at any point leaves the old file or all of the new one. A load computes
the limit of its read as a `u64`: the store whose own limit is the largest one is never loaded.
-/
namespace WatchMe
open Effects

namespace JsonStore
variable {V : Type} [JsonCodec V]
variable {store : JsonStore} {op : StoreOp} {s : Directory} {I : Directory → Prop}

/-! ### The limit of a read

The limit is computed as a `u64`, and the process is aborted if it does not fit. -/

def InRange (h : List storeSig.Event) : Prop :=
  ∀ e ∈ h, ∀ name limit, e.op = .read name limit → limit < 2 ^ 64

/-- `load` may come to its end with this. -/
def Returns (store : JsonStore) (s : Directory) (outcome : Except StoreError (Stored V)) : Prop :=
  directoryWorld.Admits store.loadImpl.run s fun h _ result => result = outcome ∧ InRange h

/-- The request is no read, or one up to the limit of the store. -/
def ReadsUpTo (store : JsonStore) (op : StoreOp) : Prop :=
  ∀ name limit, op = .read name limit → limit = store.maxBytes + 1

theorem readsUpTo_quiet (hop : Quiet op) : ReadsUpTo store op := by
  rintro name limit rfl
  exact hop.elim

omit [JsonCodec V] in
theorem quarantine_reads (store : JsonStore) (parent : TrustedParent) (bytes : List UInt8) :
    (quarantine (V := V) parent bytes).run.Asks (ReadsUpTo store) := by
  have hcall : ∀ op, (∀ name limit, op ≠ .read name limit) → (call op).Asks (ReadsUpTo store) :=
    fun op hop => asks_call fun name limit heq => (hop name limit heq).elim
  refine Program.Asks.run_bind ?_ fun name => ?_
  · refine Program.Asks.run_bind (Program.Asks.run_lift (hcall _ (by simp))) fun _ => ?_
    exact Program.Asks.run_bind (Program.Asks.run_lift (hcall _ (by simp))) fun _ => trivial
  refine Program.Asks.run_bind (asks_io (hcall _ (by simp))) fun _ => ?_
  refine Program.Asks.run_bind (Program.Asks.bind ?_ fun result => ?_) fun _ => trivial
  · refine Program.Asks.run_bind ?_ fun _ => (hcall _ (by simp)).bind fun _ => trivial
    refine Program.Asks.run_bind (hcall _ (by simp)) fun _ => ?_
    exact Program.Asks.run_bind (hcall _ (by simp)) fun _ => hcall _ (by simp)
  · cases result with
    | ok => trivial
    | error => exact (hcall _ (by simp)).bind fun _ => trivial

theorem decoded_reads (store : JsonStore) (parent : TrustedParent) (bytes : List UInt8) :
    (store.decoded (V := V) parent bytes).run.Asks (ReadsUpTo store) := by
  rw [decoded_eq]
  cases (store.contents bytes : Option V) with
  | some => trivial
  | none => exact quarantine_reads store parent bytes

theorem readOpened_reads (store : JsonStore) (parent : TrustedParent) :
    (store.readOpened (V := V) parent).run.Asks (ReadsUpTo store) := by
  have hcall : ∀ op, (∀ name limit, op ≠ .read name limit) → (call op).Asks (ReadsUpTo store) :=
    fun op hop => asks_call fun name limit heq => (hop name limit heq).elim
  have hchecked : ∀ {α : Type} (result : Except StoreError α),
      (checked result).run.Asks (ReadsUpTo store) := fun _ => trivial
  refine Program.Asks.run_bind (asks_io (hcall _ (by simp))) fun (type,size) => ?_
  refine (hchecked _).run_bind fun _ => (hchecked _).run_bind fun _ => ?_
  refine Program.Asks.run_bind (asks_io (hcall _ (by simp))) fun flags => ?_
  refine Program.Asks.run_bind (asks_io (hcall _ (by simp))) fun _ => ?_
  refine Program.Asks.run_bind (asks_io (asks_call ?_)) fun bytes =>
    decoded_reads store parent bytes
  rintro name limit heq
  cases heq
  rfl

theorem loadImpl_reads (store : JsonStore) :
    (store.loadImpl (V := V)).run.Asks (ReadsUpTo store) := by
  refine Program.Asks.run_bind ((openParent_quiet _).mono fun _ => readsUpTo_quiet) fun parent => ?_
  refine Program.Asks.bind (asks_call (fun name limit heq => by cases heq)) fun opened => ?_
  cases opened with
  | ok => exact readOpened_reads store parent
  | error => trivial

theorem returns_iff (hfits : store.maxBytes + 1 < 2 ^ 64) {outcome : Except StoreError (Stored V)} :
    Returns store s outcome ↔ Loads store s outcome := by
  constructor
  · intro h
    exact h.mono fun _ _ _ hresult => hresult.1
  · rintro ⟨h,s',result,ht,hw,rfl⟩
    refine ⟨h,s',result,ht,hw,rfl,fun e he name limit heq => ?_⟩
    rw [(loadImpl_reads store).traced ht e he name limit heq]
    exact hfits

theorem present_reads {h : List storeSig.Event} {value : V}
    (ht : Program.Traces store.loadImpl.run h (.ok (.present value))) :
    ∃ e ∈ h, ∃ name, e.op = .read name (store.maxBytes + 1) := by
  obtain ⟨h₁,k₁,parent,rfl,-,ht⟩ := ht.run_bind_ok_inv
  obtain ⟨h₂,k₂,opened,rfl,-,ht⟩ := Program.Traces.bind_inv ht
  cases opened with
  | error =>
    obtain ⟨-,heq⟩ := Program.Traces.done_inv ht
    split at heq <;> cases heq
  | ok =>
    obtain ⟨h₃,k₃,⟨type,size⟩,rfl,-,ht⟩ := ht.run_bind_ok_inv
    obtain ⟨h₄,k₄,_,rfl,-,ht⟩ := ht.run_bind_ok_inv
    obtain ⟨h₅,k₅,_,rfl,-,ht⟩ := ht.run_bind_ok_inv
    obtain ⟨h₆,k₆,flags,rfl,-,ht⟩ := ht.run_bind_ok_inv
    obtain ⟨h₇,k₇,_,rfl,-,ht⟩ := ht.run_bind_ok_inv
    obtain ⟨h₈,k₈,bytes,rfl,hread,-⟩ := ht.run_bind_ok_inv
    obtain ⟨h₉,k₉,answer,rfl,hcall,-⟩ := Program.Traces.bind_inv hread
    obtain ⟨r,l,rfl,-⟩ := Program.Traces.ask_inv _ hcall
    exact ⟨⟨.read parent.name (store.maxBytes + 1),r⟩,by simp,parent.name,rfl⟩

theorem keeps_quiet {α : Type} {p : Program storeSig α} (hp : p.Asks Quiet) (hs : I s) :
    directoryWorld.Keeps I p s := by
  intro h k s' a ht hw
  have hquiet : ∀ e ∈ h, Quiet e.op := fun e he => hp.traced ht e (List.mem_append_left _ he)
  rw [(quiet_answered hquiet).1 hw]
  exact hs

theorem keeps_call (hs : I s) (h : ∀ r s', directoryWorld.Answers s ⟨op,r⟩ s' → I s') :
    directoryWorld.Keeps I (call op) s :=
  World.keeps_ask hs fun r s' hw => World.keeps_done (h r s' hw)

theorem keeps_io {α : Type} {p : Program storeSig (Except IoError α)}
    (hp : directoryWorld.Keeps I p s) : directoryWorld.Keeps I (io p).run s := by
  exact World.keeps_bind hp fun _ _ _ _ _ hs => World.keeps_done hs

/-- The file is the old one, or all of the new one. -/
def Midway (store : JsonStore) (value : V) (s s' : Directory) : Prop :=
  ∀ name, fileName store.path = some name →
    Frame (fun i => i = name ∨ Temporary name i) s s' ∧
    (s'[name]? = s[name]? ∨ ∃ parent k bytes,
      Program.Traces (openParent store.path).run k (.ok parent) ∧
      JsonCodec.toVec value = .ok bytes ∧ bytes.length ≤ store.maxBytes ∧
      s'[name]? = some (.file bytes))

theorem midway_self (store : JsonStore) (value : V) (s : Directory) : Midway store value s s :=
  fun _ _ => ⟨fun _ _ => rfl,.inl rfl⟩

theorem Midway.temporary {value : V} {s' s'' : Directory} {name : String}
    (h : Midway store value s s') (hname : fileName store.path = some name)
    (hframe : Frame (Temporary name) s' s'') : Midway store value s s'' := by
  intro name' hname'
  obtain rfl := Option.some.inj (hname.symm.trans hname')
  obtain ⟨hkept,hfile⟩ := h name hname
  have hsame : s''[name]? = s'[name]? := hframe name fun ⟨pid,nonce,heq⟩ =>
    generated_ne_name _ _ _ _ heq.symm
  refine ⟨hkept.trans (hframe.mono fun _ => .inr),?_⟩
  rw [hsame]
  exact hfile

section Install
variable {store : JsonStore} {value : V} {parent : TrustedParent} {bytes : List UInt8}
  {temporary : String} {s s₁ : Directory} {k : List storeSig.Event}

/-- Requests that leave the directory, however they are answered. -/
def Inert (op : StoreOp) : Prop := ∀ s r s', directoryWorld.Answers s ⟨op,r⟩ s' → s' = s

theorem keeps_inert (hop : Inert op) (hs : I s) : directoryWorld.Keeps I (call op) s :=
  keeps_call hs fun r s' hw => (hop s r s' hw).symm ▸ hs

theorem fill_keeps (hname : fileName store.path = some parent.name)
    (htemporary : Temporary parent.name temporary) (hs : Midway store value s s₁) :
    directoryWorld.Keeps (Midway store value s) (fill temporary bytes).run s₁ := by
  have hinsert : ∀ node, Midway store value s (s₁.insert temporary node) := fun node =>
    hs.temporary hname (frame_insert htemporary s₁ node)
  refine World.keeps_run_bind (keeps_call hs fun r s' hw => ?_) fun h s₂ r _ _ _ _ hs₂ => ?_
  · cases r with
    | ok =>
      obtain rfl : s' = s₁.insert temporary (.file bytes) := hw
      exact hinsert _
    | error =>
      obtain ⟨n,rfl⟩ := hw
      exact hinsert _
  · exact World.keeps_run_bind (keeps_inert (fun _ _ _ hw => hw) hs₂)
      fun _ _ _ _ _ _ _ hs₃ => keeps_inert (fun _ _ _ hw => hw) hs₃

theorem install_keeps (hopened : Program.Traces (openParent store.path).run k (.ok parent))
    (hvec : JsonCodec.toVec value = .ok bytes) (hfits : bytes.length ≤ store.maxBytes)
    (htemporary : Temporary parent.name temporary) (hs : Midway store value s s₁) :
    directoryWorld.Keeps (Midway store value s) (install temporary parent.name bytes).run s₁ := by
  have hname := openParent_name hopened
  refine World.keeps_run_bind (fill_keeps hname htemporary hs) ?_
  intro h₂ s₂ r₂ ht₂ hw₂ _ hok hs₂
  have hfilled := (fill_ensures temporary bytes s₁ h₂ s₂ r₂ ht₂ hw₂).2.2 hok
  refine World.keeps_run_bind (keeps_call hs₂ fun r s₃ hw => ?_) ?_
  · cases r with
    | error =>
      obtain rfl : s₃ = s₂ := hw
      exact hs₂
    | ok =>
      -- the only request that touches the name, when the temporary file is complete
      obtain ⟨node,hnode,rfl⟩ := hw
      obtain rfl := Option.some.inj (hnode.symm.trans hfilled)
      intro name hname'
      obtain rfl := Option.some.inj (hname.symm.trans hname')
      refine ⟨?_,.inr ⟨parent,k,bytes,hopened,hvec,hfits,?_⟩⟩
      · exact ((hs₂ _ hname).1.trans (frame_erase (.inr htemporary) s₂)).trans
          (frame_insert (.inl rfl) _ _)
      · rw [StrMap.getElem?_insert,if_pos rfl]
  · intro _ s₃ _ _ _ _ _ hs₃
    exact World.keeps_bind (keeps_inert (fun _ _ _ hw => hw) hs₃) fun _ _ _ _ _ hs₄ =>
      World.keeps_done hs₄

theorem orRemoved_keeps (hname : fileName store.path = some parent.name)
    (htemporary : Temporary parent.name temporary)
    {body : ExceptT IoError (Program storeSig) Unit}
    (hbody : directoryWorld.Keeps (Midway store value s) body.run s₁) :
    directoryWorld.Keeps (Midway store value s) (orRemoved temporary body).run s₁ := by
  refine World.keeps_bind hbody fun _ s₂ r _ _ hs₂ => ?_
  cases r with
  | ok => exact World.keeps_done hs₂
  | error error =>
    refine World.keeps_bind (keeps_call hs₂ fun r s₃ hw => ?_) fun _ _ _ _ _ hs₃ =>
      World.keeps_done hs₃
    cases r with
    | ok =>
      obtain rfl : s₃ = s₂.erase temporary := hw
      exact hs₂.temporary hname (frame_erase htemporary s₂)
    | error =>
      obtain rfl : s₃ = s₂ := hw
      exact hs₂

end Install

theorem generatedName_quiet (name label : String) : (generatedName name label).run.Asks Quiet := by
  refine Program.Asks.run_bind (Program.Asks.run_lift (asks_call trivial)) fun _ => ?_
  exact Program.Asks.run_bind (Program.Asks.run_lift (asks_call trivial)) fun _ => trivial

theorem keeps_checked {α β : Type} {result : Except StoreError α} {f : α → StoreM β} (hs : I s)
    (hf : ∀ a, result = .ok a → directoryWorld.Keeps I (f a).run s) :
    directoryWorld.Keeps I (checked result >>= f).run s := by
  cases result with
  | ok a => exact hf a rfl
  | error => exact World.keeps_done hs

theorem write_keeps (store : JsonStore) (value : V) (s : Directory) :
    directoryWorld.Keeps (Midway store value s) (store.writeImpl value).run s := by
  have hs := midway_self store value s
  refine keeps_checked hs fun bytes hvec => keeps_checked hs fun _ hfits => ?_
  have hvec' : JsonCodec.toVec value = .ok bytes := by
    cases htext : JsonCodec.toVec value with
    | ok =>
      rw [htext] at hvec
      exact congrArg Except.ok (Except.ok.inj hvec)
    | error =>
      rw [htext] at hvec
      cases hvec
  have hfits' : bytes.length ≤ store.maxBytes := by
    simpa using refuseIf_ok_iff.1 hfits
  refine World.keeps_run_bind (keeps_quiet (openParent_quiet _) hs) ?_
  rintro k s₁ _ hopened - parent rfl hs₁
  refine World.keeps_run_bind ?_ fun _ s₂ _ _ _ _ _ hs₂ => ?_
  · refine World.keeps_bind (keeps_call hs₁ fun r s' hw => ?_) fun _ _ _ _ _ h => World.keeps_done h
    cases r with
    | ok =>
      obtain ⟨rfl,-⟩ := hw
      exact hs₁
    | error =>
      obtain rfl : s' = s₁ := hw
      exact hs₁
  refine World.keeps_run_bind (keeps_quiet (generatedName_quiet _ _) hs₂) ?_
  intro h₃ s₃ r₃ ht₃ hw₃ temporary hok hs₃
  obtain ⟨-,-,pid,nonce,hgenerated⟩ := generatedName_ensures parent.name "tmp" s₂ h₃ s₃ r₃ ht₃ hw₃
  have htemporary : Temporary parent.name temporary :=
    ⟨pid,nonce,Except.ok.inj (hok.symm.trans hgenerated)⟩
  have hname := openParent_name hopened
  refine World.keeps_run_bind (keeps_io (keeps_call hs₃ fun r s₄ hw => ?_))
    fun _ s₄ _ _ _ _ _ hs₄ => orRemoved_keeps hname htemporary
      (install_keeps hopened hvec' hfits' htemporary hs₄)
  cases r with
  | ok =>
    obtain ⟨-,rfl⟩ := hw
    exact hs₃.temporary hname (frame_insert htemporary s₃ _)
  | error =>
    obtain rfl : s₄ = s₃ := hw
    exact hs₃

/-- Loads return the value, or fail. -/
def LoadsOnly (store : JsonStore) (s : Directory) (value : V) : Prop :=
  Returns store s (.ok (.present value)) ∧
    ∀ outcome : Except StoreError (Stored V), Returns store s outcome →
      outcome = .ok (.present value) ∨ ∃ error, outcome = .error error

/-- What is loaded is within the limit, and so is what a write puts in place. -/
def Bounded (V : Type) [JsonCodec V] (store : JsonStore) : Prop :=
  (∀ (s : Directory) (value : V), Returns store s (.ok (.present value)) →
    ∃ name bytes, fileName store.path = some name ∧ s[name]? = some (.file bytes) ∧
      bytes.length ≤ store.maxBytes) ∧
  ∀ (value : V) (s s' : Directory) (h k : List storeSig.Event) (result : Except StoreError Unit),
    Program.Traces (store.writeImpl value).run (h ++ k) result → directoryWorld.Answered s h s' →
    ∀ name, fileName store.path = some name → s'[name]? = s[name]? ∨
      ∃ bytes, s'[name]? = some (.file bytes) ∧ bytes.length ≤ store.maxBytes

/-- Wherever a write of the value stops, loads return what they did before it, or the value. -/
def CrashSafe (store : JsonStore) (value : V) : Prop :=
  ∀ (s s' : Directory) (h k : List storeSig.Event) (result : Except StoreError Unit),
    Program.Traces (store.writeImpl value).run (h ++ k) result → directoryWorld.Answered s h s' →
    (∀ outcome : Except StoreError (Stored V), Returns store s' outcome ↔ Returns store s outcome) ∨
      LoadsOnly store s' value

variable {store : JsonStore} {value : V} {s s' : Directory}

def Faithful (V : Type) [JsonCodec V] : Prop :=
  ∀ (value : V) bytes, JsonCodec.toVec value = .ok bytes → JsonCodec.fromSlice bytes = .ok value

theorem reading_written (hcodec : Faithful V) {bytes : List UInt8}
    (hvec : JsonCodec.toVec value = .ok bytes) (hfits : bytes.length ≤ store.maxBytes) :
    store.reading (some (.file bytes)) = .present value := by
  have hcontents : store.contents bytes = some value := by
    rw [contents,if_pos hfits,hcodec value bytes hvec]
    rfl
  simp only [reading,hcontents]

theorem loadsOnly_of_file (hcodec : Faithful V) (hrange : store.maxBytes + 1 < 2 ^ 64)
    {parent : TrustedParent} {k : List storeSig.Event} {bytes : List UInt8}
    (hopened : Program.Traces (openParent store.path).run k (.ok parent))
    (hvec : JsonCodec.toVec value = .ok bytes) (hfits : bytes.length ≤ store.maxBytes)
    (hfile : s[parent.name]? = some (.file bytes)) : LoadsOnly store s value := by
  have hname := openParent_name hopened
  have hreading := reading_written hcodec hvec hfits
  refine ⟨(returns_iff hrange).2 (loads_iff.2 ⟨k,_,hopened,?_⟩),fun outcome hreturns => ?_⟩
  · dsimp only
    rw [hfile,hreading]
    exact .inl rfl
  · obtain ⟨k',result,hopened',houtcome⟩ := loads_iff.1 ((returns_iff hrange).1 hreturns)
    cases result with
    | error error => exact .inr ⟨error,houtcome⟩
    | ok =>
      have heq := Option.some.inj ((openParent_name hopened').symm.trans hname)
      dsimp only at houtcome
      rw [heq,hfile,hreading] at houtcome
      rcases houtcome with h | ⟨error,h⟩
      · exact .inl h
      · exact .inr ⟨_,h⟩

theorem reading_present {entry : Option FileNode} (h : store.reading entry = .present value) :
    ∃ bytes, entry = some (.file bytes) ∧ bytes.length ≤ store.maxBytes := by
  rcases entry with _ | bytes | _ | _
  · cases h
  · refine ⟨bytes,rfl,?_⟩
    by_contra hlong
    rw [reading,contents,if_neg hlong] at h
    cases h
  · cases h
  · cases h

theorem bounded (hrange : store.maxBytes + 1 < 2 ^ 64) : Bounded V store := by
  constructor
  · intro s value hreturns
    obtain ⟨k,result,hopened,houtcome⟩ := loads_iff.1 ((returns_iff hrange).1 hreturns)
    cases result with
    | error => cases houtcome
    | ok parent =>
      obtain ⟨bytes,hfile,hfits⟩ := reading_present (mayReturn_ok.1 value houtcome)
      exact ⟨parent.name,bytes,openParent_name hopened,hfile,hfits⟩
  · intro value s s' h k result ht hw name hname
    rcases (write_keeps store value s h k s' result ht hw name hname).2 with hsame | hnew
    · exact .inl hsame
    · obtain ⟨parent,k,bytes,-,-,hfits,hfile⟩ := hnew
      exact .inr ⟨bytes,hfile,hfits⟩

theorem crashSafe (hcodec : Faithful V) (hrange : store.maxBytes + 1 < 2 ^ 64) (value : V) :
    CrashSafe store value := by
  intro s s' h k result ht hw
  have hmidway := write_keeps store value s h k s' result ht hw
  simp only [returns_iff hrange]
  cases hname : fileName store.path with
  | none => exact .inl (loads_congr fun name hname' => by cases hname.symm.trans hname')
  | some name =>
    obtain ⟨hframe,hsame | ⟨parent,k',bytes,hopened,hvec,hfits,hfile⟩⟩ := hmidway name hname
    · refine .inl (loads_congr fun name' hname' => ?_)
      obtain rfl := Option.some.inj (hname.symm.trans hname')
      refine ⟨by rw [hsame],fun pid nonce => hframe _ ?_⟩
      rintro (heq | ⟨pid',nonce',heq⟩)
      · exact generated_ne_name _ _ _ _ heq
      · exact corrupt_ne_tmp _ _ _ _ _ heq
    · obtain rfl := Option.some.inj ((openParent_name hopened).symm.trans hname)
      exact .inr (loadsOnly_of_file hcodec hrange hopened hvec hfits hfile)

/-- For a write that has succeeded: the next load returns the value, loads and writes are within the
limit and a crash leaves the old value or the new one, exactly if the limit of the reads, which is
one more than that of the store, is a `u64`. -/
theorem write_load_iff (hcodec : Faithful V) {h : List storeSig.Event}
    (ht : Program.Traces (store.writeImpl value).run h (.ok ()))
    (hw : directoryWorld.Answered s h s') :
    LoadsOnly store s' value ∧ Bounded V store ∧ CrashSafe store value ↔
      store.maxBytes + 1 < 2 ^ 64 := by
  constructor
  · rintro ⟨⟨⟨h,_,_,hload,-,rfl,hrange⟩,-⟩,-⟩
    obtain ⟨e,he,name,hop⟩ := present_reads hload
    exact hrange e he name _ hop
  · intro hrange
    refine ⟨?_,bounded hrange,crashSafe hcodec hrange value⟩
    rcases write_ensures store value s h s' _ ht hw with
      ⟨parent,bytes,⟨k,hopened⟩,hvec,hfits,-,hfile,-⟩ | ⟨hfailed,-⟩
    · exact loadsOnly_of_file hcodec hrange hopened hvec hfits hfile
    · exact (hfailed rfl).elim

end JsonStore

namespace Sample
open JsonStore

def flagWritten : List storeSig.Event :=
  untilSynced ++ [⟨.renameAt "flag.tmp-7-1" "flag",.ok ()⟩,⟨.syncDirectory,.ok ()⟩]

theorem flagWritten_answered : directoryWorld.Answered flagDirectory flagWritten
    (((flagDirectory.insert "flag.tmp-7-1" (.file [1])).erase "flag.tmp-7-1").insert "flag"
      (.file [1])) :=
  untilSynced_answered.append (.cons ⟨_,rfl,rfl⟩ (.cons rfl (.nil _)))

theorem flagCodec_faithful :
    let _ := flagCodec
    Faithful Bool := by
  rintro _ (_ | _) bytes h
  · cases h
    rfl
  · cases h
    rfl

/-- The limit of this store is the largest `u64`. -/
def endlessStore : JsonStore := { flagStore with maxBytes := 2 ^ 64 - 1 }

end Sample

theorem write_load_flag :
    let _ := Sample.flagCodec
    ∃ s', Program.Traces (Sample.flagStore.writeImpl true).run Sample.flagWritten (.ok ()) ∧
      directoryWorld.Answered Sample.flagDirectory Sample.flagWritten s' ∧
      JsonStore.LoadsOnly Sample.flagStore s' true ∧ JsonStore.Bounded Bool Sample.flagStore ∧
      JsonStore.CrashSafe Sample.flagStore true := by
  intro _
  have ht : Program.Traces (Sample.flagStore.writeImpl true).run Sample.flagWritten (.ok ()) := by
    unfold Sample.flagWritten Sample.untilSynced
    repeat' first | exact .done _ | refine .ask _ ?_
  exact ⟨_,ht,Sample.flagWritten_answered,
    (JsonStore.write_load_iff Sample.flagCodec_faithful ht Sample.flagWritten_answered).2
      (by decide)⟩

/-- With the largest limit a file that was written is never loaded: the process is aborted before
it has read it. -/
theorem write_load_endless :
    let _ := Sample.flagCodec
    ∃ s', Program.Traces (Sample.endlessStore.writeImpl true).run Sample.flagWritten (.ok ()) ∧
      directoryWorld.Answered Sample.flagDirectory Sample.flagWritten s' ∧
      JsonStore.Faithful Bool ∧
      ∀ stored : Bool, ¬ JsonStore.Returns Sample.endlessStore s' (.ok (.present stored)) := by
  intro _
  have ht : Program.Traces (Sample.endlessStore.writeImpl true).run Sample.flagWritten
      (.ok ()) := by
    unfold Sample.flagWritten Sample.untilSynced
    repeat' first | exact .done _ | refine .ask _ ?_
  refine ⟨_,ht,Sample.flagWritten_answered,Sample.flagCodec_faithful,?_⟩
  rintro stored ⟨h,_,_,hload,-,rfl,hrange⟩
  obtain ⟨e,he,name,hop⟩ := JsonStore.present_reads hload
  exact absurd (hrange e he name _ hop) (by decide)

end WatchMe
