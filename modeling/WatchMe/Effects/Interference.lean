import WatchMe.Effects.Pool

/-! # Assertions and interference

An invariant of a pool of threads, put together from three parts: what holds of the shared state,
what a thread in some state may assert of it, and what two threads exclude. A step of a thread has to
establish its own next assertion and must not interfere with the assertions of the others.
-/
namespace WatchMe.Effects.Pool

variable {S : Signature} {κ α σ : Type} {M : Machine S κ α}

structure Asserts (I : σ → Prop) (A : M.State → σ → Prop) (B : M.State → M.State → Prop)
    (P : Pool M σ) : Prop where
  shared : I P.shared
  thread : ∀ (i : Nat) (t : Thread M), P.threads[i]? = some t → A t.state P.shared
  pair : ∀ (i j : Nat) (t u : Thread M), P.threads[i]? = some t → P.threads[j]? = some u → i ≠ j →
    B t.state u.state

/-- The threads do not interfere with each other. -/
structure Interference (M : Machine S κ α) (W : World S σ) (I : σ → Prop)
    (A : M.State → σ → Prop) (B : M.State → M.State → Prop) : Prop where
  crash : ∀ s s', ¬ W.Restarts s s'
  start : ∀ k s, I s → A (M.start k) s
  startPair : ∀ k u, B (M.start k) u
  symm : ∀ {p q}, B p q → B q p
  shared : ∀ {p q e s s'}, I s → A p s → M.Step p e q → W.Answers s e s' → I s'
  own : ∀ {p q e s s'}, I s → A p s → M.Step p e q → W.Answers s e s' → A q s'
  other : ∀ {p q u e s s'}, I s → A p s → A u s → B p u → M.Step p e q → W.Answers s e s' →
    A u s' ∧ B q u

namespace Asserts
variable {W : World S σ} {I : σ → Prop} {A : M.State → σ → Prop} {B : M.State → M.State → Prop}
  {P P' : Pool M σ} {l : Label S κ}

theorem spawn {k : κ} (hsymm : ∀ {p q}, B p q → B q p) (hstart : A (M.start k) P.shared)
    (hpair : ∀ u, B (M.start k) u) (h : Asserts I A B P) :
    Asserts I A B ⟨P.shared,P.threads ++ [Thread.spawned M k]⟩ := by
  refine ⟨h.shared,fun i t ht => ?_,fun i j t u ht hu hij => ?_⟩
  · rcases getElem?_spawn ht with ht | ⟨-,rfl⟩
    · exact h.thread i t ht
    · exact hstart
  · rcases getElem?_spawn ht with ht | ⟨hi,rfl⟩ <;> rcases getElem?_spawn hu with hu | ⟨hj,rfl⟩
    · exact h.pair i j t u ht hu hij
    · exact hsymm (hpair _)
    · exact hpair _
    · exact absurd (hi.symm.trans hj) hij

theorem act {i : Nat} {t : Thread M} {e : S.Event} {q : M.State} {shared : σ}
    (hsymm : ∀ {p q}, B p q → B q p) (h : Asserts I A B P) (ht : P.threads[i]? = some t)
    (hshared : I shared) (hown : A q shared)
    (hother : ∀ (j : Nat) (u : Thread M), P.threads[j]? = some u → j ≠ i →
      A u.state shared ∧ B q u.state) :
    Asserts I A B ⟨shared,P.threads.set i (t.advance e q)⟩ := by
  refine ⟨hshared,fun j u hu => ?_,fun j l u v hu hv hjl => ?_⟩
  · rcases getElem?_act ht hu with ⟨rfl,rfl⟩ | ⟨hne,hu⟩
    · exact hown
    · exact (hother j u hu hne).1
  · rcases getElem?_act ht hu with ⟨rfl,rfl⟩ | ⟨hne,hu'⟩ <;>
      rcases getElem?_act ht hv with ⟨rfl,rfl⟩ | ⟨hne',hv'⟩
    · exact absurd rfl hjl
    · exact (hother l v hv' hne').2
    · exact hsymm (hother j u hu' hne).2
    · exact h.pair j l u v hu' hv' hjl

theorem step (hfree : Interference M W I A B) (h : Asserts I A B P) (hs : Step W P l P') :
    Asserts I A B P' := by
  cases hs with
  | spawn k => exact h.spawn hfree.symm (hfree.start k _ h.shared) (hfree.startPair k)
  | act i t e q shared ht _ hm hw =>
    have hi := h.thread i t ht
    exact h.act hfree.symm ht (hfree.shared h.shared hi hm hw) (hfree.own h.shared hi hm hw)
      fun j u hu hne =>
        hfree.other h.shared hi (h.thread j u hu) (h.pair i j t u ht hu hne.symm) hm hw
  | crash shared hrestart => exact absurd hrestart (hfree.crash _ _)

end Asserts

theorem Reachable.asserts {W : World S σ} {I : σ → Prop} {A : M.State → σ → Prop}
    {B : M.State → M.State → Prop} {D : Discipline S κ α σ} {init : σ} {P : Pool M σ}
    (hfree : Interference M W I A B) (hinit : I init) (hr : Reachable M W D init P) :
    Asserts I A B P := by
  refine hr.invariant ⟨hinit,fun i t ht => ?_,fun i j t u ht => ?_⟩ fun _ _ _ _ h _ hs =>
    h.step hfree hs
  · cases ht
  · cases ht

end WatchMe.Effects.Pool
