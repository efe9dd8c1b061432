import WatchMe.Effects.Trace

/-! # Programs alone in a world

A program that nothing else interferes with is judged by its complete traces that the world can
answer: all of them meet `Q` (`Ensures`), or one does (`Admits`). `Q` sees the history, the state
that is left and the value returned. The rules follow the statements of a program. What holds in
every state on the way is what a program `Keeps`. Where the history does not matter, a program
`Achieves` what all its traces meet if it is never left without an answer.
-/
namespace WatchMe.Effects
open Program

variable {S : Signature} {α β η η' σ : Type}

namespace World
variable (W : World S σ)

def Ensures (p : Program S α) (s : σ) (Q : List S.Event → σ → α → Prop) : Prop :=
  ∀ h s' a, Traces p h a → W.Answered s h s' → Q h s' a

def Admits (p : Program S α) (s : σ) (Q : List S.Event → σ → α → Prop) : Prop :=
  ∃ h s' a, Traces p h a ∧ W.Answered s h s' ∧ Q h s' a

variable {W} {s s' : σ} {Q Q' : List S.Event → σ → α → Prop}
variable {p : Program S α} {a : α} {op : S.Op} {next : S.Answer op → Program S α}

theorem Ensures.mono (hp : W.Ensures p s Q)
    (hQ : ∀ h s' a, Q h s' a → Q' h s' a) : W.Ensures p s Q' :=
  fun h s' a ht hw => hQ h s' a (hp h s' a ht hw)

theorem Admits.mono (hp : W.Admits p s Q)
    (hQ : ∀ h s' a, Q h s' a → Q' h s' a) : W.Admits p s Q' := by
  obtain ⟨h,s',a,ht,hw,hq⟩ := hp
  exact ⟨h,s',a,ht,hw,hQ h s' a hq⟩

theorem ensures_done : W.Ensures (.done a) s Q ↔ Q [] s a := by
  constructor
  · intro hp
    exact hp [] s a (.done a) (.nil s)
  · intro hq h s' b ht hw
    obtain ⟨rfl,rfl⟩ := Traces.done_inv ht
    rw [hw.nil_inv]
    exact hq

theorem admits_done : W.Admits (.done a) s Q ↔ Q [] s a := by
  constructor
  · rintro ⟨h,s',b,ht,hw,hq⟩
    obtain ⟨rfl,rfl⟩ := Traces.done_inv ht
    rw [hw.nil_inv] at hq
    exact hq
  · intro hq
    exact ⟨[],s,a,.done a,.nil s,hq⟩

theorem ensures_ask :
    W.Ensures (.ask op next) s Q ↔ ∀ r s', W.Answers s ⟨op,r⟩ s' →
      W.Ensures (next r) s' fun h => Q (⟨op,r⟩ :: h) := by
  constructor
  · intro hp r s' hfirst h s'' a ht hw
    exact hp _ _ _ (.ask r ht) (.cons hfirst hw)
  · intro hp h s' a ht hw
    obtain ⟨r,k,rfl,hnext⟩ := Traces.ask_inv op ht
    obtain ⟨t,hfirst,hrest⟩ := hw.cons_inv
    exact hp r t hfirst k s' a hnext hrest

theorem admits_ask :
    W.Admits (.ask op next) s Q ↔ ∃ r s', W.Answers s ⟨op,r⟩ s' ∧
      W.Admits (next r) s' fun h => Q (⟨op,r⟩ :: h) := by
  constructor
  · rintro ⟨h,s',a,ht,hw,hq⟩
    obtain ⟨r,k,rfl,hnext⟩ := Traces.ask_inv op ht
    obtain ⟨t,hfirst,hrest⟩ := hw.cons_inv
    exact ⟨r,t,hfirst,k,s',a,hnext,hrest,hq⟩
  · rintro ⟨r,t,hfirst,k,s',a,hnext,hrest,hq⟩
    exact ⟨_,s',a,.ask r hnext,.cons hfirst hrest,hq⟩

theorem ensures_bind {f : α → Program S β}
    {Q : List S.Event → σ → β → Prop} : W.Ensures (p >>= f) s Q ↔
      W.Ensures p s fun h s' a => W.Ensures (f a) s' fun k => Q (h ++ k) := by
  constructor
  · intro hp h s' a ht hw k s'' b hk hw'
    exact hp _ _ _ (ht.bind hk) (hw.append hw')
  · intro hp l s'' b ht hw
    obtain ⟨h,k,a,rfl,hh,hk⟩ := ht.bind_inv
    obtain ⟨t,hw₁,hw₂⟩ := hw.append_inv
    exact hp h t a hh hw₁ k s'' b hk hw₂

theorem admits_bind {f : α → Program S β}
    {Q : List S.Event → σ → β → Prop} : W.Admits (p >>= f) s Q ↔
      W.Admits p s fun h s' a => W.Admits (f a) s' fun k => Q (h ++ k) := by
  constructor
  · rintro ⟨l,s'',b,ht,hw,hq⟩
    obtain ⟨h,k,a,rfl,hh,hk⟩ := ht.bind_inv
    obtain ⟨t,hw₁,hw₂⟩ := hw.append_inv
    exact ⟨h,t,a,hh,hw₁,k,s'',b,hk,hw₂,hq⟩
  · rintro ⟨h,t,a,hh,hw₁,k,s'',b,hk,hw₂,hq⟩
    exact ⟨_,s'',b,hh.bind hk,hw₁.append hw₂,hq⟩

variable {x : ExceptT η (Program S) α} {f : α → ExceptT η (Program S) β}
  {R : List S.Event → σ → Except η β → Prop}

theorem ensures_run_bind : W.Ensures (x >>= f).run s R ↔
    W.Ensures x.run s fun h s' r => match r with
      | .ok a => W.Ensures (f a).run s' fun k => R (h ++ k)
      | .error e => R h s' (.error e) := by
  rw [ExceptT.run_bind,ensures_bind]
  refine forall₅_congr fun h s' r _ _ => ?_
  cases r with
  | ok => exact Iff.rfl
  | error => exact ensures_done.trans (by rw [List.append_nil])

theorem admits_run_bind : W.Admits (x >>= f).run s R ↔
    W.Admits x.run s fun h s' r => match r with
      | .ok a => W.Admits (f a).run s' fun k => R (h ++ k)
      | .error e => R h s' (.error e) := by
  rw [ExceptT.run_bind,admits_bind]
  refine exists₃_congr fun h s' r => and_congr_right fun _ => and_congr_right fun _ => ?_
  cases r with
  | ok => exact Iff.rfl
  | error => exact admits_done.trans (by rw [List.append_nil])

theorem ensures_adapt {wrap : η → η'} {R : List S.Event → σ → Except η' α → Prop} :
    W.Ensures (ExceptT.adapt wrap x).run s R ↔
      W.Ensures x.run s fun h s' r => R h s' (r.mapError wrap) := by
  change W.Ensures (x.run >>= fun r => .done (r.mapError wrap)) s R ↔ _
  rw [ensures_bind]
  refine forall₅_congr fun h s' r _ _ => ?_
  exact ensures_done.trans (by rw [List.append_nil])

theorem admits_adapt {wrap : η → η'} {R : List S.Event → σ → Except η' α → Prop} :
    W.Admits (ExceptT.adapt wrap x).run s R ↔
      W.Admits x.run s fun h s' r => R h s' (r.mapError wrap) := by
  change W.Admits (x.run >>= fun r => .done (r.mapError wrap)) s R ↔ _
  rw [admits_bind]
  refine exists₃_congr fun h s' r => and_congr_right fun _ => and_congr_right fun _ => ?_
  exact admits_done.trans (by rw [List.append_nil])

/-- The invariant holds in every state that the program passes through. -/
def Keeps (W : World S σ) (I : σ → Prop) (p : Program S α) (s : σ) : Prop :=
  ∀ h k s' a, Traces p (h ++ k) a → W.Answered s h s' → I s'

section Keeps
variable {I : σ → Prop}

theorem keeps_done (hs : I s) : W.Keeps I (.done a) s := by
  intro h k s' b ht hw
  obtain ⟨hnil,-⟩ := Traces.done_inv ht
  obtain ⟨rfl,rfl⟩ := List.append_eq_nil_iff.1 hnil
  rw [hw.nil_inv]
  exact hs

theorem keeps_ask (hs : I s) (hnext : ∀ r s', W.Answers s ⟨op,r⟩ s' → W.Keeps I (next r) s') :
    W.Keeps I (.ask op next) s := by
  intro h k s' a ht hw
  obtain ⟨r,l,heq,hl⟩ := Traces.ask_inv op ht
  cases h with
  | nil =>
    rw [hw.nil_inv]
    exact hs
  | cons e h =>
    obtain ⟨rfl,rfl⟩ := List.cons.inj heq
    obtain ⟨t,hfirst,hrest⟩ := hw.cons_inv
    exact hnext r t hfirst h k s' a hl hrest

theorem Keeps.ends (hp : W.Keeps I p s) :
    W.Ensures p s fun _ s' _ => I s' := by
  intro h s' a ht hw
  rw [← List.append_nil h] at ht
  exact hp h [] s' a ht hw

theorem keeps_bind {f : α → Program S β} (hp : W.Keeps I p s)
    (hf : W.Ensures p s fun _ s' a => I s' → W.Keeps I (f a) s') : W.Keeps I (p >>= f) s := by
  intro h k s' b ht hw
  obtain ⟨h₁,k₁,a,heq,hh,hk⟩ := ht.bind_inv
  -- the state lies within the first program or within the second
  rcases List.append_eq_append_iff.1 heq with ⟨l,rfl,rfl⟩ | ⟨l,rfl,rfl⟩
  · exact hp h l s' a hh hw
  · obtain ⟨t,hw₁,hw₂⟩ := hw.append_inv
    exact hf h₁ t a hh hw₁ (hp.ends h₁ t a hh hw₁) l k s' b hk hw₂

theorem keeps_run_bind (hx : W.Keeps I x.run s)
    (hf : W.Ensures x.run s fun _ s' r => ∀ a, r = .ok a → I s' → W.Keeps I (f a).run s') :
    W.Keeps I (x >>= f).run s := by
  rw [ExceptT.run_bind]
  refine keeps_bind hx fun h s' r ht hw hs => ?_
  cases r with
  | ok a => exact hf h s' _ ht hw a rfl hs
  | error => exact keeps_done hs

end Keeps
/-- However the world answers, the program gets an answer and goes on, and it ends in `Q`. -/
def Achieves (W : World S σ) (Q : σ → α → Prop) : Program S α → σ → Prop
  | .done a, s => Q s a
  | .ask op next, s => (∃ r s', W.Answers s ⟨op,r⟩ s') ∧
      ∀ r s', W.Answers s ⟨op,r⟩ s' → Achieves W Q (next r) s'

section Achieves
variable {Q Q' : σ → α → Prop}

theorem Achieves.mono (hp : W.Achieves Q p s) (hQ : ∀ s a, Q s a → Q' s a) :
    W.Achieves Q' p s := by
  induction p generalizing s with
  | done a => exact hQ s a hp
  | ask op next ih => exact ⟨hp.1,fun r s' hw => ih r (hp.2 r s' hw)⟩

theorem achieves_bind {Q : σ → β → Prop} {f : α → Program S β} :
    W.Achieves Q (p >>= f) s ↔ W.Achieves (fun s' a => W.Achieves Q (f a) s') p s := by
  change W.Achieves Q (p.bind f) s ↔ _
  induction p generalizing s with
  | done => rfl
  | ask op next ih => simp only [Program.bind,Achieves,ih]

def Then (W : World S σ) (Q : σ → Except η β → Prop) (f : α → ExceptT η (Program S) β) (s : σ) :
    Except η α → Prop
  | .ok a => W.Achieves Q (f a).run s
  | .error e => Q s (.error e)

theorem achieves_run_bind {Q : σ → Except η β → Prop} :
    W.Achieves Q (x >>= f).run s ↔ W.Achieves (W.Then Q f) x.run s := by
  rw [ExceptT.run_bind,achieves_bind]
  constructor <;> intro h <;> refine h.mono fun s' r hr => ?_
  · cases r <;> exact hr
  · cases r <;> exact hr

theorem Achieves.run_bind {Q : σ → Except η β → Prop} {P : σ → α → Prop}
    (hx : W.Achieves (fun s' r => ∃ a, r = .ok a ∧ P s' a) x.run s)
    (hf : ∀ s' a, P s' a → W.Achieves Q (f a).run s') : W.Achieves Q (x >>= f).run s := by
  refine achieves_run_bind.2 (hx.mono fun s' r hr => ?_)
  obtain ⟨a,rfl,ha⟩ := hr
  exact hf s' a ha

theorem Achieves.value_iff {v : α} {R : α → Prop}
    (hp : W.Achieves (fun _ a => a = v) p s) : W.Achieves (fun _ a => R a) p s ↔ R v := by
  induction p generalizing s with
  | done a =>
    have ha : a = v := hp
    rw [← ha]
    rfl
  | ask op next ih =>
    obtain ⟨⟨r,s',hfirst⟩,hall⟩ := hp
    constructor
    · intro h
      exact (ih r (hall r s' hfirst)).1 (h.2 r s' hfirst)
    · intro hv
      exact ⟨⟨r,s',hfirst⟩,fun r' t ht => (ih r' (hall r' t ht)).2 hv⟩

end Achieves

section Returns
variable {ι : Type} {body : ι → Program S (ι ⊕ α)} {Q : σ → α → Prop}

/-- However the world answers, the looping program gets an answer and goes on, it comes to an
end, and it ends in `Q`. -/
inductive Returns (W : World S σ) (body : ι → Program S (ι ⊕ α)) (Q : σ → α → Prop) :
    Program S (ι ⊕ α) → σ → Prop
  | done {a : α} {s : σ} (h : Q s a) : Returns W body Q (.done (.inr a)) s
  | again {i : ι} {s : σ} (h : Returns W body Q (body i) s) : Returns W body Q (.done (.inl i)) s
  | ask {op : S.Op} {next : S.Answer op → Program S (ι ⊕ α)} {s : σ}
      (hanswered : ∃ r s', W.Answers s ⟨op,r⟩ s')
      (hnext : ∀ r s', W.Answers s ⟨op,r⟩ s' → Returns W body Q (next r) s') :
      Returns W body Q (.ask op next) s

/-- What one round comes to: a next round that meets `R`, or the end. -/
def Round (R : ι → σ → Prop) (Q : σ → α → Prop) (s : σ) : ι ⊕ α → Prop
  | .inl i => R i s
  | .inr a => Q s a

theorem Achieves.returns {p : Program S (ι ⊕ α)}
    (hp : W.Achieves (Round (fun i => W.Returns body Q (body i)) Q) p s) :
    W.Returns body Q p s := by
  induction p generalizing s with
  | done r =>
    rcases r with i | a
    · exact .again hp
    · exact .done hp
  | ask op next ih => exact .ask hp.1 fun r s' hw => ih r (hp.2 r s' hw)

/-- The rule for a loop: an invariant, and a rank that every further round lowers. -/
theorem returns_loop {I : ι → σ → Prop} (rank : ι → σ → Nat)
    (hbody : ∀ i s, I i s →
      W.Achieves (Round (fun j s' => I j s' ∧ rank j s' < rank i s) Q) (body i) s)
    {i : ι} (hi : I i s) : W.Returns body Q (body i) s := by
  generalize hn : rank i s = n
  induction n using Nat.strongRecOn generalizing i s with
  | ind n ih =>
    refine Achieves.returns ((hbody i s hi).mono fun s' r hr => ?_)
    cases r with
    | inl => exact ih _ (hn ▸ hr.2) hr.1 rfl
    | inr => exact hr

end Returns

end World

end WatchMe.Effects
