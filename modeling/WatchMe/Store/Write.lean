import WatchMe.Store.Json

/-! # What a write leaves

`write_ensures` says what a write has done, by its answer: all errors but one leave the old entry.
The registry's writes, whose outcome is one of three, are shown to be writes of such a file.
-/
namespace WatchMe
open Effects

namespace JsonStore
variable {V : Type} [JsonCodec V]
variable {h k : List storeSig.Event} {E : String → Prop} {s s' : Directory} {store : JsonStore}
  {value : V}

def SyncFailed (h : List storeSig.Event) : Prop :=
  ∃ error, (⟨.syncDirectory,.error error⟩ : storeSig.Event) ∈ h ∧
    isUnsupportedDirectorySync error = false

theorem syncFailed_append : SyncFailed (h ++ k) ↔ SyncFailed h ∨ SyncFailed k := by
  simp only [SyncFailed,List.mem_append,or_and_right,exists_or]

theorem not_syncFailed (hh : ∀ e ∈ h, e.op ≠ .syncDirectory) : ¬ SyncFailed h := by
  rintro ⟨error,hmem,-⟩
  exact hh _ hmem rfl

theorem syncFailed_append_right (hh : ∀ e ∈ h, e.op ≠ .syncDirectory) :
    SyncFailed (h ++ k) ↔ SyncFailed k := by
  rw [syncFailed_append,or_iff_right (not_syncFailed hh)]

/-- The entries under all names but some are the same. -/
def Frame (E : String → Prop) (s s' : Directory) : Prop :=
  ∀ i : String, ¬ E i → s'[i]? = s[i]?

theorem Frame.trans {s'' : Directory} (h : Frame E s s') (h' : Frame E s' s'') : Frame E s s'' :=
  fun i hi => (h' i hi).trans (h i hi)

theorem Frame.mono {E' : String → Prop} (h : Frame E s s') (himp : ∀ i, E i → E' i) :
    Frame E' s s' :=
  fun i hi => h i fun hi' => hi (himp i hi')

theorem frame_insert {name : String} (hname : E name) (s : Directory) (node : FileNode) :
    Frame E s (s.insert name node) := by
  intro i hi
  rw [StrMap.getElem?_insert,if_neg]
  rintro rfl
  exact hi hname

theorem frame_erase {name : String} (hname : E name) (s : Directory) :
    Frame E s (s.erase name) := by
  intro i hi
  rw [StrMap.getElem?_erase,if_neg]
  rintro rfl
  exact hi hname

/-- What an attempt to fill a file has done, by its answer. -/
def Filled (name : String) (bytes : List UInt8) (s : Directory) (h : List storeSig.Event)
    (s' : Directory) (result : Except IoError Unit) : Prop :=
  (∀ e ∈ h, e.op ≠ .syncDirectory) ∧ Frame (· = name) s s' ∧
    (result = .ok () → s'[name]? = some (.file bytes))

theorem fill_ensures (name : String) (bytes : List UInt8) (s : Directory) :
    directoryWorld.Ensures (fill name bytes).run s (Filled name bytes s) := by
  unfold fill
  refine World.ensures_run_bind.2 (ensures_call fun written s₁ hwritten => ?_)
  cases written with
  | error =>
    obtain ⟨n,rfl⟩ := hwritten
    exact ⟨by simp,frame_insert (E := (· = name)) rfl s _,fun h => by cases h⟩
  | ok =>
    obtain rfl : s₁ = s.insert name (.file bytes) := hwritten
    refine World.ensures_run_bind.2 (ensures_call fun flushed s₂ hflushed => ?_)
    obtain rfl : s₂ = s.insert name (.file bytes) := hflushed
    have hframe := frame_insert (E := (· = name)) rfl s (.file bytes)
    cases flushed with
    | error => exact ⟨by simp,hframe,fun h => by cases h⟩
    | ok =>
      refine ensures_call fun synced s₃ hsynced => ?_
      obtain rfl : s₃ = s.insert name (.file bytes) := hsynced
      exact ⟨by simp,hframe,fun _ => by rw [StrMap.getElem?_insert,if_pos rfl]⟩

/-- What the installation of a new content has done, by its answer: an error of the last step
comes when the new content is in place. -/
def Installed (temporary name : String) (bytes : List UInt8) (s : Directory)
    (h : List storeSig.Event) (s' : Directory) (result : Except IoError Unit) : Prop :=
  ((result = .ok () ∨ SyncFailed h) ∧ s'[name]? = some (.file bytes) ∧
      Frame (fun i => i = temporary ∨ i = name) s s') ∨
    (result ≠ .ok () ∧ ¬ SyncFailed h ∧ Frame (· = temporary) s s')

theorem install_ensures (temporary name : String) (bytes : List UInt8) (s : Directory) :
    directoryWorld.Ensures (install temporary name bytes).run s
      (Installed temporary name bytes s) := by
  unfold install
  refine World.ensures_run_bind.2 ((fill_ensures temporary bytes s).mono ?_)
  rintro h₁ s₁ (error | _) ⟨hquiet,hframe,hfilled⟩
  · exact .inr ⟨fun heq => (by cases heq),not_syncFailed hquiet,hframe⟩
  · refine World.ensures_run_bind.2 (ensures_call fun renamed s₂ hrenamed => ?_)
    cases renamed with
    | error =>
      obtain rfl : s₂ = s₁ := hrenamed
      refine .inr ⟨fun heq => (by cases heq),?_,hframe⟩
      rw [syncFailed_append_right hquiet]
      exact not_syncFailed (by simp)
    | ok =>
      obtain ⟨node,hnode,rfl⟩ := hrenamed
      obtain rfl : node = .file bytes := Option.some.inj (hnode.symm.trans (hfilled rfl))
      have hplaced : Frame (fun i => i = temporary ∨ i = name) s
          ((s₁.erase temporary).insert name (.file bytes)) :=
        ((hframe.mono fun i => .inl).trans (frame_erase (.inl rfl) s₁)).trans
          (frame_insert (.inr rfl) _ _)
      refine World.ensures_bind.2 (ensures_call fun synced s₃ hsynced => ?_)
      obtain rfl : s₃ = (s₁.erase temporary).insert name (.file bytes) := hsynced
      refine World.ensures_done.2 ?_
      refine .inl ⟨?_,by rw [StrMap.getElem?_insert,if_pos rfl],hplaced⟩
      cases synced with
      | ok => exact .inl rfl
      | error error =>
        dsimp only
        cases hsupported : isUnsupportedDirectorySync error with
        | true => exact .inl rfl
        | false => exact .inr ⟨error,by simp,hsupported⟩

theorem generatedName_ensures (name label : String) (s : Directory) :
    directoryWorld.Ensures (generatedName name label).run s fun h s' result =>
      s' = s ∧ (∀ e ∈ h, e.op ≠ .syncDirectory) ∧
        ∃ pid nonce, result = .ok (generated name label pid nonce) := by
  refine World.ensures_run_bind.2 (World.ensures_bind.2 (ensures_call fun nonce s₁ h₁ => ?_))
  obtain rfl : s₁ = s := h₁
  refine World.ensures_done.2 (World.ensures_run_bind.2 (World.ensures_bind.2
    (ensures_call fun pid s₂ h₂ => ?_)))
  obtain rfl : s₂ = s₁ := h₂
  exact World.ensures_done.2 (World.ensures_done.2 ⟨rfl,by simp,pid,nonce,rfl⟩)

theorem openParent_ensures (path : List PathPart) (s : Directory) :
    directoryWorld.Ensures (openParent path).run s fun h s' result =>
      s' = s ∧ (∀ e ∈ h, e.op ≠ .syncDirectory) ∧ Program.Traces (openParent path).run h result := by
  intro h s' result ht hw
  have hquiet := (openParent_quiet path).traced ht
  refine ⟨(quiet_answered hquiet).1 hw,fun e he heq => ?_,ht⟩
  have hsync := hquiet e he
  rw [heq] at hsync
  exact hsync

/-- Names that `write` gives to its temporary files. -/
def Temporary (name i : String) : Prop := ∃ pid nonce, i = generated name "tmp" pid nonce

/-- What a write has done, by its answer: the new content is in place if it succeeded, or failed
at the sync of the directory. -/
def Written (store : JsonStore) (value : V) (s : Directory) (h : List storeSig.Event)
    (s' : Directory) (result : Except StoreError Unit) : Prop :=
  (∃ parent bytes, (∃ k, Program.Traces (openParent store.path).run k (.ok parent)) ∧
    JsonCodec.toVec value = .ok bytes ∧ bytes.length ≤ store.maxBytes ∧
    (result = .ok () ∨ SyncFailed h) ∧ s'[parent.name]? = some (.file bytes) ∧
    Frame (fun i => i = parent.name ∨ Temporary parent.name i) s s') ∨
  (result ≠ .ok () ∧ ¬ SyncFailed h ∧
    ∀ name, fileName store.path = some name → Frame (Temporary name) s s')

theorem Written.skip {result : Except StoreError Unit} (hh : ∀ e ∈ h, e.op ≠ .syncDirectory)
    (hk : Written store value s k s' result) : Written store value s (h ++ k) s' result := by
  unfold Written
  rw [syncFailed_append_right hh]
  exact hk

theorem written_rested (error : StoreError) (hh : ∀ e ∈ h, e.op ≠ .syncDirectory) :
    Written store value s h s (.error error) :=
  .inr ⟨fun heq => (by cases heq),not_syncFailed hh,fun _ _ _ _ => rfl⟩

theorem orRemoved_ensures {name : String} {body : ExceptT IoError (Program storeSig) Unit}
    {R : List storeSig.Event → Directory → Except IoError Unit → Prop}
    (hbody : directoryWorld.Ensures body.run s R) :
    directoryWorld.Ensures (orRemoved name body).run s fun h s' result => ∃ k s₁ r,
      R k s₁ r ∧ result = r.mapError .io ∧ (SyncFailed h ↔ SyncFailed k) ∧
        Frame (· = name) s₁ s' := by
  refine World.ensures_bind.2 (hbody.mono fun k s₁ r hr => ?_)
  cases r with
  | ok => exact World.ensures_done.2 ⟨k,s₁,_,hr,rfl,by rw [List.append_nil],fun _ _ => rfl⟩
  | error error =>
    refine World.ensures_bind.2 (ensures_call fun removed s₂ hremoved => ?_)
    refine World.ensures_done.2 ⟨k,s₁,_,hr,rfl,?_,?_⟩
    · rw [syncFailed_append,or_iff_left]
      exact not_syncFailed (by simp)
    · cases removed with
      | ok =>
        obtain rfl : s₂ = s₁.erase name := hremoved
        exact frame_erase (E := (· = name)) rfl s₁
      | error =>
        obtain rfl : s₂ = s₁ := hremoved
        exact fun _ _ => rfl

theorem generated_toList (name label : String) (pid nonce : Nat) :
    ∃ rest, (generated name label pid nonce).toList = name.toList ++ '.' :: (label.toList ++ rest) := by
  refine ⟨("-" ++ toString pid ++ "-" ++ toString nonce).toList,?_⟩
  simp [generated]

theorem generated_ne_name (name label : String) (pid nonce : Nat) :
    generated name label pid nonce ≠ name := by
  intro heq
  obtain ⟨rest,hlist⟩ := generated_toList name label pid nonce
  rw [heq,List.self_eq_append_right] at hlist
  cases hlist

theorem corrupt_ne_tmp (name : String) (pid nonce pid' nonce' : Nat) :
    generated name "corrupt" pid nonce ≠ generated name "tmp" pid' nonce' := by
  intro heq
  obtain ⟨rest,hlist⟩ := generated_toList name "corrupt" pid nonce
  obtain ⟨rest',hlist'⟩ := generated_toList name "tmp" pid' nonce'
  rw [heq,hlist',List.append_cancel_left_eq] at hlist
  simp at hlist

theorem placed_ensures {parent : TrustedParent} {bytes : List UInt8}
    (hopened : Program.Traces (openParent store.path).run k (.ok parent))
    (hvec : JsonCodec.toVec value = .ok bytes) (hfits : bytes.length ≤ store.maxBytes)
    {temporary : String} (htemporary : Temporary parent.name temporary) {s₁ : Directory}
    (hcreated : Frame (· = temporary) s s₁) :
    directoryWorld.Ensures (orRemoved temporary (install temporary parent.name bytes)).run s₁
      (Written store value s) := by
  refine (orRemoved_ensures (install_ensures temporary parent.name bytes s₁)).mono ?_
  rintro h s' _ ⟨k',s₂,result,hinstalled,rfl,hfailed,hremoved⟩
  have htmp : ∀ i, i = temporary → Temporary parent.name i := fun i hi => hi ▸ htemporary
  rcases hinstalled with ⟨hanswer,hfile,hframe⟩ | ⟨hanswer,hnot,hframe⟩
  · refine .inl ⟨parent,bytes,⟨k,hopened⟩,hvec,hfits,?_,?_,?_⟩
    · rw [hfailed]
      exact hanswer.imp (fun hok => by rw [hok]; rfl) id
    · rw [hremoved parent.name,hfile]
      obtain ⟨pid,nonce,rfl⟩ := htemporary
      exact (generated_ne_name _ _ pid nonce).symm
    · refine (hcreated.mono fun i hi => .inr (htmp i hi)).trans
        (Frame.trans (hframe.mono ?_) (hremoved.mono fun i hi => .inr (htmp i hi)))
      rintro i (hi | hi)
      · exact .inr (htmp i hi)
      · exact .inl hi
  · refine .inr ⟨?_,mt hfailed.1 hnot,fun name hname => ?_⟩
    · cases result with
      | ok => exact (hanswer rfl).elim
      | error => exact fun heq => by cases heq
    · obtain rfl := Option.some.inj (hname.symm.trans (openParent_name hopened))
      exact (hcreated.mono htmp).trans ((hframe.mono htmp).trans (hremoved.mono htmp))

theorem write_ensures (store : JsonStore) (value : V) (s : Directory) :
    directoryWorld.Ensures (store.writeImpl value).run s (Written store value s) := by
  unfold writeImpl
  refine ensures_checked.2 ?_
  cases hvec : JsonCodec.toVec value with
  | error => exact written_rested _ (by simp)
  | ok bytes =>
    refine ensures_checked.2 ?_
    by_cases hfits : store.maxBytes < bytes.length
    · simp only [refuseIf,hfits,decide_true,if_true]
      exact written_rested _ (by simp)
    simp only [refuseIf,hfits,decide_false,Bool.false_eq_true,if_false]
    refine World.ensures_run_bind.2 ((openParent_ensures store.path s).mono ?_)
    rintro h₁ s₁ (error | parent) ⟨rfl,hquiet,hopened⟩
    · exact written_rested _ hquiet
    refine World.Ensures.mono ?_ fun _ _ _ => Written.skip hquiet
    refine World.ensures_run_bind.2 (World.ensures_bind.2 (ensures_call fun found s₂ hfound => ?_))
    obtain rfl : s₂ = s₁ := by
      cases found with
      | ok => exact hfound.1
      | error => exact hfound
    refine World.ensures_done.2 ?_
    cases store.targetVerdict found with
    | error => exact written_rested _ (by simp)
    | ok =>
      refine World.Ensures.mono ?_ fun _ _ _ => Written.skip (by simp)
      refine World.ensures_run_bind.2 ((generatedName_ensures parent.name "tmp" s₂).mono ?_)
      rintro h₂ s₃ _ ⟨rfl,hnames,pid,nonce,rfl⟩
      refine World.Ensures.mono ?_ fun _ _ _ => Written.skip hnames
      refine World.ensures_run_bind.2 (World.ensures_adapt.2 (ensures_call fun created s₄ h₄ => ?_))
      cases created with
      | error =>
        obtain rfl : s₄ = s₃ := h₄
        exact written_rested _ (by simp)
      | ok =>
        obtain ⟨-,rfl⟩ := h₄
        refine World.Ensures.mono ?_ fun _ _ _ => Written.skip (by simp)
        exact placed_ensures hopened hvec (Nat.not_lt.1 hfits) ⟨pid,nonce,rfl⟩
          (frame_insert (E := (· = _)) rfl _ _)
end JsonStore

namespace Registry
open JsonStore

/-- The file is the text of what the registry has on disk. -/
def Shows [JsonCodec PersistedRegistry] (store : JsonStore) (s : Directory)
    (disk : Option PersistedRegistry) : Prop :=
  ∀ name, fileName store.path = some name → match disk with
    | none => s[name]? = none
    | some saved => ∃ bytes, JsonCodec.toVec saved = .ok bytes ∧ s[name]? = some (.file bytes)

end Registry

end WatchMe
