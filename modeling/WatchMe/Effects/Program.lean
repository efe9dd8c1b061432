import Mathlib.Algebra.Order.Ring.Int
import Mathlib.Data.List.Induction

/-! # Effectful programs and the automata they follow

A program is a tree of requests. Its environment is not modelled here: every
answer of the right type is possible, so a fact about all runs of a program holds
under any scheduler, any store and any clock. A machine is a labelled transition
system over answered requests. A looping program is one machine, a hand written
automaton is another, and `Conforms` is the simulation between the two: it is all
that later proofs need to know about a program's text.
-/
namespace WatchMe.Effects

/-- The requests a program may make, each with the type of its answers. -/
structure Signature where
  Op : Type
  Answer : Op → Type

structure Signature.Event (S : Signature) where
  op : S.Op
  answer : S.Answer op

inductive Program (S : Signature) (α : Type) where
  | done (value : α)
  | ask (op : S.Op) (next : S.Answer op → Program S α)

variable {S : Signature} {α β ι κ ε : Type}

namespace Program

def bind (p : Program S α) (f : α → Program S β) : Program S β :=
  match p with
  | done a => f a
  | ask op next => ask op (fun r => (next r).bind f)

instance : Monad (Program S) where
  pure := done
  bind := bind

def request (op : S.Op) : Program S (S.Answer op) := ask op done

/-- A loop that has come round again continues with its body. -/
def unroll (body : ι → Program S (ι ⊕ α)) : Program S (ι ⊕ α) → Program S (ι ⊕ α)
  | done (.inl i) => body i
  | p => p

/-- One request of a looping program is answered. -/
inductive Step (body : ι → Program S (ι ⊕ α)) :
    Program S (ι ⊕ α) → S.Event → Program S (ι ⊕ α) → Prop
  | answer (op : S.Op) (next : S.Answer op → Program S (ι ⊕ α)) (r : S.Answer op) :
      Step body (ask op next) ⟨op,r⟩ (unroll body (next r))

def result : Program S (ι ⊕ α) → Option α
  | done (.inr a) => some a
  | _ => none

end Program

/-- A labelled transition system over answered requests, with a start for every call
and the value a finished state returns. -/
structure Machine (S : Signature) (κ α : Type) where
  State : Type
  start : κ → State
  Step : State → S.Event → State → Prop
  result : State → Option α

/-- The machine of the calls `main`, whose loops all have the given body. -/
def Program.machine (body : ι → Program S (ι ⊕ α)) (main : κ → Program S (ι ⊕ α)) :
    Machine S κ α where
  State := Program S (ι ⊕ α)
  start k := (main k).unroll body
  Step := Program.Step body
  result := Program.result

namespace Machine
variable {M : Machine S κ α} {k : κ} {h : List S.Event} {s s' : M.State} {e : S.Event}

inductive Runs (M : Machine S κ α) (k : κ) : List S.Event → M.State → Prop
  | start : Runs M k [] (M.start k)
  | snoc {h : List S.Event} {s s' : M.State} {e : S.Event} :
      Runs M k h s → M.Step s e s' → Runs M k (h ++ [e]) s'

/-- A property of history and state that holds at the start and is kept by every
step holds of every run. -/
@[elab_as_elim]
theorem Runs.invariant {I : List S.Event → M.State → Prop} (hstart : I [] (M.start k))
    (hstep : ∀ h s e s', I h s → M.Step s e s' → I (h ++ [e]) s') (hr : Runs M k h s) : I h s := by
  induction hr with
  | start => exact hstart
  | snoc _ hs ih => exact hstep _ _ _ _ ih hs

theorem Runs.last (hr : Runs M k h s) : (h = [] ∧ s = M.start k) ∨
      ∃ h₀ s₀ e, h = h₀ ++ [e] ∧ Runs M k h₀ s₀ ∧ M.Step s₀ e s := by
  cases hr with
  | start => exact .inl ⟨rfl,rfl⟩
  | snoc hr hs => exact .inr ⟨_,_,_,rfl,hr,hs⟩

theorem Runs.snoc_inv (hr : Runs M k (h ++ [e]) s') : ∃ s, Runs M k h s ∧ M.Step s e s' := by
  rcases hr.last with ⟨hnil,-⟩ | ⟨h₀,s₀,e₀,hl,hr₀,hs₀⟩
  · simp at hnil
  · obtain ⟨rfl,he⟩ := List.append_inj' hl rfl
    cases he
    exact ⟨s₀,hr₀,hs₀⟩

theorem Runs.of_append {h l : List S.Event} (hr : Runs M k (h ++ l) s') : ∃ s, Runs M k h s := by
  induction l using List.reverseRecOn generalizing s' with
  | nil => exact ⟨s',by simpa using hr⟩
  | append_singleton l e ih =>
    rw [← List.append_assoc] at hr
    obtain ⟨t,ht,-⟩ := hr.snoc_inv
    exact ih ht

/-- The machine that takes only the steps which meet a condition. -/
def restrict (M : Machine S κ α) (D : M.State → S.Event → Prop) : Machine S κ α where
  State := M.State
  start := M.start
  Step s e s' := D s e ∧ M.Step s e s'
  result := M.result

theorem Runs.unrestrict {D : M.State → S.Event → Prop}
    (hr : (M.restrict D).Runs k h s) : M.Runs k h s :=
  Runs.invariant (M := M.restrict D) (I := fun h (s : M.State) => M.Runs k h s) .start
    (fun _ _ _ _ hI hs => hI.snoc hs.2) hr

/-- Every step of `C` is matched by one of `A` under the relation, with equal results. -/
structure Simulates (C A : Machine S κ α) (R : C.State → A.State → Prop) : Prop where
  start (k : κ) : R (C.start k) (A.start k)
  step {p q : C.State} {s : A.State} {e : S.Event} :
    R p s → C.Step p e q → ∃ t, A.Step s e t ∧ R q t
  result {p : C.State} {s : A.State} : R p s → C.result p = A.result s

theorem Simulates.runs {C A : Machine S κ α} {R : C.State → A.State → Prop}
    (hsim : Simulates C A R) {p : C.State} (hr : Runs C k h p) :
    ∃ s, Runs A k h s ∧ R p s := by
  induction hr with
  | start => exact ⟨_,.start,hsim.start k⟩
  | snoc _ hs ih =>
    obtain ⟨s,hrun,hR⟩ := ih
    obtain ⟨t,ht,hR'⟩ := hsim.step hR hs
    exact ⟨t,hrun.snoc ht,hR'⟩

end Machine

/-- Every request of the program is a step of the automaton, whatever the answer,
and a returned value meets `Q` in the state reached. -/
def Conforms (M : Machine S κ ε) (Q : M.State → α → Prop) : Program S α → M.State → Prop
  | .done a, s => Q s a
  | .ask op next, s =>
    M.result s = none ∧ ∀ r, ∃ s', M.Step s ⟨op,r⟩ s' ∧ Conforms M Q (next r) s'

section Conforms
variable {M : Machine S κ ε} {s : M.State}

@[simp] theorem conforms_bind {Q : M.State → β → Prop} {p : Program S α}
    {f : α → Program S β} :
    Conforms M Q (p >>= f) s ↔ Conforms M (fun t a => Conforms M Q (f a) t) p s := by
  change Conforms M Q (p.bind f) s ↔ _
  induction p generalizing s with
  | done => rfl
  | ask op next ih => simp only [Program.bind,Conforms,ih]

theorem Conforms.mono {Q R : M.State → α → Prop} {p : Program S α} (hp : Conforms M Q p s)
    (hQR : ∀ t a, Q t a → R t a) : Conforms M R p s := by
  induction p generalizing s with
  | done a => exact hQR s a hp
  | ask op next ih =>
    refine ⟨hp.1,fun r => ?_⟩
    obtain ⟨t,hs,ht⟩ := hp.2 r
    exact ⟨t,hs,ih r ht⟩

theorem Conforms.transfer {κ' ε' : Type} {N : Machine S κ' ε'} {R : M.State → N.State → Prop}
    (hstep : ∀ {s s' : M.State} {t : N.State} {e : S.Event}, R s t → M.Step s e s' →
      ∃ t', N.Step t e t' ∧ R s' t')
    (hresult : ∀ {s : M.State} {t : N.State}, R s t → M.result s = none → N.result t = none)
    {Q : M.State → α → Prop} {p : Program S α} (hp : Conforms M Q p s) {t : N.State}
    (hR : R s t) : Conforms N (fun t a => ∃ s, R s t ∧ Q s a) p t := by
  induction p generalizing s t with
  | done => exact ⟨s,hR,hp⟩
  | ask op next ih =>
    refine ⟨hresult hR hp.1,fun r => ?_⟩
    obtain ⟨s',hs,hnext⟩ := hp.2 r
    obtain ⟨t',ht,hR'⟩ := hstep hR hs
    exact ⟨t',ht,ih r hnext hR'⟩

/-- The postcondition of the first of two programs that may fail: an error skips the
second. -/
def Sequel {η : Type} (Q : M.State → Except η β → Prop) (f : α → ExceptT η (Program S) β)
    (t : M.State) : Except η α → Prop
  | .ok a => Conforms M Q (f a).run t
  | .error e => Q t (.error e)

theorem conforms_run_bind {η : Type} {Q : M.State → Except η β → Prop}
    {x : ExceptT η (Program S) α} {f : α → ExceptT η (Program S) β} :
    Conforms M Q (x >>= f).run s ↔ Conforms M (Sequel Q f) x.run s := by
  have heq : (x >>= f).run = x.run >>= fun r => match r with
      | .ok a => (f a).run
      | .error e => pure (.error e) := by
    rw [ExceptT.run_bind]
    congr 1
    funext r
    cases r <;> rfl
  rw [heq,conforms_bind]
  constructor <;> intro h <;> refine h.mono fun t r hr => ?_
  · cases r <;> exact hr
  · cases r <;> exact hr

theorem conforms_run_lift {η : Type} {Q : M.State → Except η α → Prop} {p : Program S α} :
    Conforms M Q (ExceptT.lift p : ExceptT η (Program S) α).run s ↔
      Conforms M (fun t a => Q t (.ok a)) p s := by
  change Conforms M Q (p >>= fun a => pure (.ok a)) s ↔ _
  rw [conforms_bind]
  rfl

end Conforms

section Loop
variable {M : Machine S κ α} {s : M.State}

/-- What a looping program leaves behind: the loop invariant when it goes round
again, the returned value as the automaton's own result otherwise. -/
def LoopPost (J : M.State → ι → Prop) (t : M.State) : ι ⊕ α → Prop
  | .inl i => J t i
  | .inr a => M.result t = some a

variable {J : M.State → ι → Prop} {body : ι → Program S (ι ⊕ α)}
  {main : κ → Program S (ι ⊕ α)}

theorem Conforms.unroll (hbody : ∀ t i, J t i → ∃ op next, body i = .ask op next ∧
      Conforms M (LoopPost J) (body i) t)
    {p : Program S (ι ⊕ α)} (hp : Conforms M (LoopPost J) p s) :
    Conforms M (LoopPost J) (p.unroll body) s ∧ (p.unroll body).result = M.result s := by
  rcases p with (i | a) | ⟨op,next⟩
  · obtain ⟨op,next,heq,hc⟩ := hbody s i hp
    have hres := hc
    rw [heq] at hres
    exact ⟨hc,by simp only [Program.unroll,heq,Program.result,hres.1]⟩
  · exact ⟨hp,hp.symm⟩
  · exact ⟨hp,hp.1.symm⟩

/-- A looping program whose calls and body conform to an automaton is simulated by it. -/
theorem Conforms.simulates
    (hbody : ∀ t i, J t i → ∃ op next, body i = .ask op next ∧
      Conforms M (LoopPost J) (body i) t)
    (hmain : ∀ k, Conforms M (LoopPost J) (main k) (M.start k)) :
    Machine.Simulates (Program.machine body main) M
      (fun p s => Conforms M (LoopPost J) p s ∧ Program.result p = M.result s) where
  start k := (hmain k).unroll hbody
  step := by
    rintro p q s e ⟨hp,-⟩ hstep
    cases hstep with
    | answer op next r =>
      obtain ⟨t,hs,ht⟩ := hp.2 r
      exact ⟨t,hs,ht.unroll hbody⟩
  result h := h.2

theorem Conforms.runs {κ' : Type} {A : Machine S κ' ε} {Q : A.State → ι ⊕ α → Prop} {k : κ} {k' : κ'}
    (hbody : ∀ t i, Q t (.inl i) → Conforms A Q (body i) t)
    (hmain : Conforms A Q (main k) (A.start k')) {h : List S.Event}
    {p : Program S (ι ⊕ α)} (hr : (Program.machine body main).Runs k h p) :
    ∃ s, A.Runs k' h s ∧ Conforms A Q p s := by
  have hunroll : ∀ {p : Program S (ι ⊕ α)} {t : A.State}, Conforms A Q p t →
      Conforms A Q (p.unroll body) t := by
    intro p t hp
    rcases p with (i | a) | ⟨op,next⟩
    · exact hbody t i hp
    · exact hp
    · exact hp
  refine hr.invariant
    ⟨_,.start,hunroll hmain⟩ ?_
  rintro h p e q ⟨s,hrun,hp⟩ hstep
  cases hstep with
  | answer op next r =>
    obtain ⟨t,hs,ht⟩ := hp.2 r
    exact ⟨t,hrun.snoc hs,hunroll ht⟩

end Loop

end WatchMe.Effects
