import WatchMe.Effects.Pool

/-! # Paths of a pool

A path is a finite schedule with its labels, for statements about everything that happens
between two of its steps. The requests a thread can still make are read off its program.
-/
namespace WatchMe.Effects

variable {S : Signature} {α β η ι κ σ : Type} {φ : S.Op → Prop}

namespace Program
variable {p : Program S α} {f : α → Program S β}

/-- Every request that the program may come to make is of the kind. -/
def Asks (φ : S.Op → Prop) : Program S α → Prop
  | done _ => True
  | ask op next => φ op ∧ ∀ r, (next r).Asks φ

theorem Asks.mono {ψ : S.Op → Prop} (hp : p.Asks φ) (h : ∀ op, φ op → ψ op) :
    p.Asks ψ := by
  induction p with
  | done => trivial
  | ask op next ih => exact ⟨h op hp.1,fun r => ih r (hp.2 r)⟩

theorem Asks.bind (hp : p.Asks φ) (hf : ∀ a, (f a).Asks φ) : (p >>= f).Asks φ := by
  change (p.bind f).Asks φ
  induction p with
  | done a => exact hf a
  | ask op next ih => exact ⟨hp.1,fun r => ih r (hp.2 r)⟩

theorem Asks.run_bind {x : ExceptT η (Program S) α} {f : α → ExceptT η (Program S) β}
    (hx : x.run.Asks φ) (hf : ∀ a, (f a).run.Asks φ) : (x >>= f).run.Asks φ := by
  rw [ExceptT.run_bind]
  refine hx.bind fun r => ?_
  cases r with
  | ok a => exact hf a
  | error => trivial

theorem Asks.run_lift (hp : p.Asks φ) :
    (ExceptT.lift p : ExceptT η (Program S) α).run.Asks φ :=
  hp.bind fun _ => trivial

theorem Asks.conforms {ε : Type} {M : Machine S κ ε} {s : M.State}
    (hp : p.Asks φ) (hres : M.result s = none) (hstep : ∀ e : S.Event, φ e.op → M.Step s e s) :
    Conforms M (fun t _ => t = s) p s := by
  induction p with
  | done => rfl
  | ask op next ih => exact ⟨hres,fun r => ⟨s,hstep ⟨op,r⟩ hp.1,ih r (hp.2 r)⟩⟩

abbrev asking (φ : S.Op → Prop) : Machine S Unit Unit where
  State := Unit
  start _ := ()
  Step _ e _ := φ e.op
  result _ := none

theorem asking_runs {h : List S.Event} {s : Unit} (hr : (asking φ).Runs () h s) :
    ∀ e ∈ h, φ e.op := by
  refine hr.invariant (by simp) ?_
  intro h s e s' hall he e' hmem
  rcases List.mem_append.1 hmem with hmem | hmem
  · exact hall e' hmem
  · rw [List.mem_singleton.1 hmem]
    exact he

theorem Asks.andThen {Q : Unit → β → Prop}
    (hp : p.Asks φ) (hf : ∀ a, Conforms (asking φ) Q (f a) ()) :
    Conforms (asking φ) Q (p >>= f) () :=
  conforms_bind.2 ((hp.conforms rfl fun _ he => he).mono fun _ a _ => hf a)

theorem Asks.unroll {p : Program S (Empty ⊕ α)} (hp : p.Asks φ) : (p.unroll nofun).Asks φ := by
  rcases p with (⟨⟨⟩⟩ | a) | ⟨op,next⟩
  · trivial
  · exact hp

theorem Asks.step {p q : Program S (Empty ⊕ α)} {e : S.Event} (hp : p.Asks φ)
    (hs : Program.Step nofun p e q) : φ e.op ∧ q.Asks φ := by
  cases hs with
  | answer op next r => exact ⟨hp.1,(hp.2 r).unroll⟩

end Program

def Label.own (i : Nat) : Label S κ → Option S.Event
  | .act j e => if j = i then some e else none
  | _ => none

namespace Pool
variable {M : Machine S κ α} {W : World S σ}
variable {P Q : Pool M σ} {l : Label S κ} {ls : List (Label S κ)} {i : Nat} {t : Thread M}

inductive Path (W : World S σ) : Pool M σ → List (Label S κ) → Pool M σ → Prop
  | nil (P : Pool M σ) : Path W P [] P
  | cons {P Q R : Pool M σ} {l : Label S κ} {ls : List (Label S κ)} :
      Step W P l Q → Path W Q ls R → Path W P (l :: ls) R

theorem Path.append {P Q R : Pool M σ} {ls ms : List (Label S κ)} (h : Path W P ls Q)
    (hm : Path W Q ms R) : Path W P (ls ++ ms) R := by
  induction h with
  | nil => exact hm
  | cons hs _ ih => exact .cons hs (ih hm)

theorem Path.of_mem {P R : Pool M σ} (h : Path W P ls R) (hl : l ∈ ls) :
    ∃ ls₁ ls₂ Q Q', ls = ls₁ ++ l :: ls₂ ∧ Path W P ls₁ Q ∧ Step W Q l Q' ∧ Path W Q' ls₂ R := by
  induction h with
  | nil => cases hl
  | @cons P Q R m ls hs hrest ih =>
    rcases List.mem_cons.1 hl with rfl | hl
    · exact ⟨[],ls,P,Q,rfl,.nil P,hs,hrest⟩
    · obtain ⟨ls₁,ls₂,Q₁,Q₂,rfl,h₁,hstep,h₂⟩ := ih hl
      exact ⟨m :: ls₁,ls₂,Q₁,Q₂,rfl,.cons hs h₁,hstep,h₂⟩

/-- A step of the path is of the kind, by what it makes of the shared state. -/
def Passes (W : World S σ) (φ : σ → Label S κ → σ → Prop) (P : Pool M σ) (ls : List (Label S κ))
    (R : Pool M σ) : Prop :=
  ∃ ls₁ l ls₂ Q Q', ls = ls₁ ++ l :: ls₂ ∧ Path W P ls₁ Q ∧ Step W Q l Q' ∧ Path W Q' ls₂ R ∧
    φ Q.shared l Q'.shared

theorem Path.reachable {D : Discipline S κ α σ} {init : σ}
    (h : Path W P ls Q) (hD : ∀ V, ∀ l ∈ ls, D V l)
    (hr : Reachable M W D init P) : Reachable M W D init Q := by
  induction h with
  | nil => exact hr
  | cons hs _ ih =>
    exact ih (fun V l hl => hD V l (List.mem_cons_of_mem _ hl))
      (hr.step (hD _ _ List.mem_cons_self) hs)

theorem Step.keeps (hs : Step W P l Q) (ht : P.threads[i]? = some t) :
    ∃ u, Q.threads[i]? = some u ∧ ((u = t ∧ l ≠ .crash ∧ l.own i = none) ∨
      (∃ e s, l = .act i e ∧ M.Step t.state e s ∧ u = t.advance e s) ∨
      (l = .crash ∧ u = t.kill)) := by
  have hlt := (List.getElem?_eq_some_iff.1 ht).1
  cases hs with
  | spawn => exact ⟨t,(List.getElem?_append_left hlt).trans ht,.inl ⟨rfl,nofun,rfl⟩⟩
  | act j v e s shared hv hva hm =>
    by_cases hij : j = i
    · subst hij
      obtain rfl := Option.some.inj (ht.symm.trans hv)
      exact ⟨_,List.getElem?_set_self hlt,.inr (.inl ⟨e,s,rfl,hm,rfl⟩)⟩
    · exact ⟨t,(List.getElem?_set_ne hij).trans ht,.inl ⟨rfl,nofun,if_neg hij⟩⟩
  | crash => exact ⟨t.kill,by rw [List.getElem?_map,ht]; rfl,.inr (.inr ⟨rfl,rfl⟩)⟩

theorem Step.thread {J : M.State → Prop} (hJ : ∀ s e s', J s → M.Step s e s' → J s')
    (hs : Step W P l Q) (ht : P.threads[i]? = some t) (hj : J t.state) :
    ∃ u, Q.threads[i]? = some u ∧ u.call = t.call ∧ J u.state ∧
      (u.alive = true → t.alive = true ∧ l ≠ .crash) := by
  obtain ⟨u,hu,⟨rfl,hl,-⟩ | ⟨e,s,rfl,hm,rfl⟩ | ⟨rfl,rfl⟩⟩ := hs.keeps ht
  · exact ⟨u,hu,rfl,hj,fun h => ⟨h,hl⟩⟩
  · exact ⟨_,hu,rfl,hJ _ _ _ hj hm,fun h => ⟨h,nofun⟩⟩
  · exact ⟨_,hu,rfl,hj,fun h => by cases h⟩

theorem Path.thread {J : M.State → Prop} (hJ : ∀ s e s', J s → M.Step s e s' → J s')
    (h : Path W P ls Q) (ht : P.threads[i]? = some t) (hj : J t.state) :
    ∃ u, Q.threads[i]? = some u ∧ u.call = t.call ∧ J u.state ∧
      (u.alive = true → t.alive = true ∧ .crash ∉ ls) := by
  induction h generalizing t with
  | nil => exact ⟨t,ht,rfl,hj,fun h => ⟨h,List.not_mem_nil⟩⟩
  | cons hs _ ih =>
    obtain ⟨u,hu,huc,huj,hua⟩ := hs.thread hJ ht hj
    obtain ⟨v,hv,hvc,hvj,hva⟩ := ih hu huj
    refine ⟨v,hv,hvc.trans huc,hvj,fun h => ?_⟩
    obtain ⟨halive,hnot⟩ := hva h
    obtain ⟨halive',hne⟩ := hua halive
    exact ⟨halive',fun hmem => (List.mem_cons.1 hmem).elim (fun heq => hne heq.symm) hnot⟩

theorem Step.history (hs : Step W P l Q) (ht : P.threads[i]? = some t) :
    ∃ u, Q.threads[i]? = some u ∧ u.call = t.call ∧
      u.history = t.history ++ (l.own i).toList := by
  obtain ⟨u,hu,⟨rfl,-,hown⟩ | ⟨e,s,rfl,-,rfl⟩ | ⟨rfl,rfl⟩⟩ := hs.keeps ht
  · exact ⟨u,hu,rfl,by simp [hown]⟩
  · exact ⟨_,hu,rfl,by simp [Label.own,Thread.advance]⟩
  · exact ⟨_,hu,rfl,by simp [Label.own,Thread.kill]⟩

theorem Path.history (h : Path W P ls Q) (ht : P.threads[i]? = some t) :
    ∃ u, Q.threads[i]? = some u ∧ u.call = t.call ∧
      u.history = t.history ++ ls.filterMap (Label.own i) := by
  induction h generalizing t with
  | nil => exact ⟨t,ht,rfl,by simp⟩
  | @cons P Q R l ls hs _ ih =>
    obtain ⟨u,hu,huc,huh⟩ := hs.history ht
    obtain ⟨v,hv,hvc,hvh⟩ := ih hu
    refine ⟨v,hv,hvc.trans huc,?_⟩
    rw [hvh,huh,List.append_assoc,List.filterMap_cons]
    cases l.own i <;> simp

theorem Path.shared {r : σ → σ → Prop}
    (h : Path W P ls Q) (hrefl : ∀ s, r s s) (htrans : ∀ s t u, r s t → r t u → r s u)
    (hanswer : ∀ s e s', W.Answers s e s' → r s s') (hcrash : .crash ∉ ls) :
    r P.shared Q.shared := by
  induction h with
  | nil => exact hrefl _
  | cons hs _ ih =>
    rw [List.mem_cons,not_or] at hcrash
    refine htrans _ _ _ ?_ (ih hcrash.2)
    cases hs with
    | spawn => exact hrefl _
    | act i t e s shared _ _ _ hw => exact hanswer _ _ _ hw
    | crash => exact absurd rfl hcrash.1

end Pool

/-- No entry is lost, and an entry that changed has a greater version. -/
def Advances {β : Type} (version : β → Nat) (m m' : κ → Option β) : Prop :=
  ∀ k v, m k = some v → ∃ v', m' k = some v' ∧ (v' = v ∨ version v < version v')

namespace Advances
variable {version : β → Nat} {m m' m'' : κ → Option β} {k : κ} {v : β}

theorem refl (m : κ → Option β) : Advances version m m := fun _ v h => ⟨v,h,.inl rfl⟩

theorem trans (h : Advances version m m') (h' : Advances version m' m'') :
    Advances version m m'' := by
  intro k v hv
  obtain ⟨v',hv',hor⟩ := h k v hv
  obtain ⟨v'',hv'',hor'⟩ := h' k v' hv'
  refine ⟨v'',hv'',?_⟩
  rcases hor with rfl | hlt
  · exact hor'
  · rcases hor' with rfl | hlt'
    · exact .inr hlt
    · exact .inr (Nat.lt_trans hlt hlt')

theorem between (h : Advances version m m') (h' : Advances version m' m'') (hv : m k = some v)
    (hv'' : m'' k = some v) : m' k = some v := by
  obtain ⟨v',hv',hor⟩ := h k v hv
  obtain ⟨w,hw,hor'⟩ := h' k v' hv'
  obtain rfl := Option.some.inj (hw.symm.trans hv'')
  rcases hor with rfl | hlt
  · exact hv'
  · rcases hor' with rfl | hlt'
    · exact hv'
    · omega

end Advances

end WatchMe.Effects
