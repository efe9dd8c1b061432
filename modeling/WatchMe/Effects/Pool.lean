import WatchMe.Effects.Program

/-! # Interleaved threads over a shared state

Any number of calls of one machine run over a shared state. Every request is one
atomic step, a crash stops all threads and restarts the shared state, and a
discipline restricts which steps a scheduler may take. Disciplines and results
are about what can be seen of a pool: its shared state and, for each thread, the
call, the history, whether it is alive and what it returned. A simulation of
machines therefore lifts to pools without change to what is seen.
-/
namespace WatchMe.Effects

variable {S : Signature} {κ α σ : Type}

/-- How requests are answered out of the shared state, and what a crash leaves of it. -/
structure World (S : Signature) (σ : Type) where
  Answers : σ → S.Event → σ → Prop
  Restarts : σ → σ → Prop

inductive Label (S : Signature) (κ : Type) where
  | spawn (call : κ)
  | act (i : Nat) (event : S.Event)
  | crash

structure Thread (M : Machine S κ α) where
  call : κ
  state : M.State
  history : List S.Event
  alive : Bool

structure Pool (M : Machine S κ α) (σ : Type) where
  shared : σ
  threads : List (Thread M)

structure ThreadView (S : Signature) (κ α : Type) where
  call : κ
  history : List S.Event
  alive : Bool
  result : Option α

def ThreadView.Running (v : ThreadView S κ α) : Prop := v.alive = true ∧ v.result = none

structure PoolView (S : Signature) (κ α σ : Type) where
  shared : σ
  threads : List (ThreadView S κ α)

abbrev Discipline (S : Signature) (κ α σ : Type) := PoolView S κ α σ → Label S κ → Prop

namespace Thread
variable {M : Machine S κ α}

def spawned (M : Machine S κ α) (call : κ) : Thread M := ⟨call,M.start call,[],true⟩

def advance (t : Thread M) (e : S.Event) (s : M.State) : Thread M :=
  ⟨t.call,s,t.history ++ [e],t.alive⟩

def kill (t : Thread M) : Thread M := ⟨t.call,t.state,t.history,false⟩

def view (t : Thread M) : ThreadView S κ α := ⟨t.call,t.history,t.alive,M.result t.state⟩

end Thread

namespace Pool
variable {M : Machine S κ α}

def view (P : Pool M σ) : PoolView S κ α σ := ⟨P.shared,P.threads.map Thread.view⟩

inductive Step (W : World S σ) : Pool M σ → Label S κ → Pool M σ → Prop
  | spawn (P : Pool M σ) (call : κ) :
      Step W P (.spawn call) ⟨P.shared,P.threads ++ [Thread.spawned M call]⟩
  | act (P : Pool M σ) (i : Nat) (t : Thread M) (e : S.Event) (s : M.State) (shared : σ) :
      P.threads[i]? = some t → t.alive = true → M.Step t.state e s →
      W.Answers P.shared e shared →
      Step W P (.act i e) ⟨shared,P.threads.set i (t.advance e s)⟩
  | crash (P : Pool M σ) (shared : σ) :
      W.Restarts P.shared shared → Step W P .crash ⟨shared,P.threads.map Thread.kill⟩

/-- The pools a scheduler under the discipline can reach from an initial shared state. -/
inductive Reachable (M : Machine S κ α) (W : World S σ) (D : Discipline S κ α σ) (init : σ) :
    Pool M σ → Prop
  | init : Reachable M W D init ⟨init,[]⟩
  | step {P P' : Pool M σ} {l : Label S κ} :
      Reachable M W D init P → D P.view l → Step W P l P' → Reachable M W D init P'

section Invariant
variable {W : World S σ} {D : Discipline S κ α σ} {init : σ}
variable {P P' : Pool M σ} {l : Label S κ} {i j : Nat} {t u : Thread M}

@[elab_as_elim]
theorem Reachable.invariant {I : Pool M σ → Prop} (hinit : I ⟨init,[]⟩)
    (hstep : ∀ P l P', Reachable M W D init P → I P → D P.view l → Step W P l P' → I P')
    (hr : Reachable M W D init P) : I P := by
  induction hr with
  | init => exact hinit
  | step hr hd hs ih => exact hstep _ _ _ hr ih hd hs

theorem Reachable.mono {D' : Discipline S κ α σ} (h : ∀ V l, D V l → D' V l)
    (hr : Reachable M W D init P) : Reachable M W D' init P := by
  induction hr with
  | init => exact .init
  | step _ hd hs ih => exact .step ih (h _ _ hd) hs

theorem Reachable.weaken {W' : World S σ} (hanswers : ∀ s e s', W.Answers s e s' → W'.Answers s e s')
    (hrestarts : ∀ s s', W.Restarts s s' → W'.Restarts s s')
    (hr : Reachable M W D init P) : Reachable M W' D init P := by
  induction hr with
  | init => exact .init
  | step _ hd hs ih =>
    refine .step ih hd ?_
    cases hs with
    | spawn call => exact .spawn _ call
    | act i t e s shared ht ha hm hw => exact .act _ i t e s shared ht ha hm (hanswers _ _ _ hw)
    | crash shared hw => exact .crash _ shared (hrestarts _ _ hw)

theorem getElem?_act {l : List (Thread M)} {t t' u : Thread M}
    (ht : l[i]? = some t) (hu : (l.set i t')[j]? = some u) :
    (j = i ∧ u = t') ∨ (j ≠ i ∧ l[j]? = some u) := by
  rw [List.getElem?_set] at hu
  by_cases hij : i = j
  · subst hij
    have hlt : i < l.length := (List.getElem?_eq_some_iff.1 ht).1
    simp only [if_pos hlt,if_true,Option.some.injEq] at hu
    exact .inl ⟨rfl,hu.symm⟩
  · rw [if_neg hij] at hu
    exact .inr ⟨Ne.symm hij,hu⟩

theorem getElem?_spawn {l : List (Thread M)}
    (hu : (l ++ [t])[j]? = some u) : l[j]? = some u ∨ (l.length = j ∧ u = t) := by
  rcases Nat.lt_or_ge j l.length with hj | hj
  · exact .inl (by rwa [List.getElem?_append_left hj] at hu)
  · obtain ⟨hlt,-⟩ := List.getElem?_eq_some_iff.1 hu
    rw [List.length_append,List.length_singleton] at hlt
    rw [List.getElem?_append_right hj] at hu
    exact .inr ⟨by omega,List.mem_singleton.1 (List.mem_of_getElem? hu)⟩

theorem getElem?_crash {l : List (Thread M)}
    (hu : (l.map Thread.kill)[j]? = some u) : ∃ t, l[j]? = some t ∧ u = t.kill := by
  rw [List.getElem?_map,Option.map_eq_some_iff] at hu
  obtain ⟨t,ht,rfl⟩ := hu
  exact ⟨t,ht,rfl⟩

/-- How a thread came to its place in a step. -/
inductive Change (W : World S σ) (P P' : Pool M σ) (j : Nat) : Label S κ → Thread M → Prop
  | spawned (call : κ) : P.threads.length = j → P'.shared = P.shared →
      Change W P P' j (.spawn call) (Thread.spawned M call)
  | beside (call : κ) {t : Thread M} : P.threads[j]? = some t → P'.shared = P.shared →
      Change W P P' j (.spawn call) t
  | acts {t : Thread M} {e : S.Event} {s : M.State} : P.threads[j]? = some t → t.alive = true →
      M.Step t.state e s → W.Answers P.shared e P'.shared →
      Change W P P' j (.act j e) (t.advance e s)
  | waits {t t' : Thread M} {i : Nat} {e : S.Event} {s : M.State} : P.threads[j]? = some t →
      j ≠ i → P.threads[i]? = some t' → t'.alive = true → M.Step t'.state e s →
      W.Answers P.shared e P'.shared → Change W P P' j (.act i e) t
  | killed {t : Thread M} : P.threads[j]? = some t → W.Restarts P.shared P'.shared →
      Change W P P' j .crash t.kill

theorem Step.change (hs : Step W P l P') (hu : P'.threads[j]? = some u) : Change W P P' j l u := by
  cases hs with
  | spawn call =>
    rcases getElem?_spawn hu with hu | ⟨hj,rfl⟩
    · exact .beside call hu rfl
    · exact .spawned call hj rfl
  | act i t e s shared ht ha hm hw =>
    rcases getElem?_act ht hu with ⟨rfl,rfl⟩ | ⟨hji,hu⟩
    · exact .acts ht ha hm hw
    · exact .waits hu hji ht ha hm hw
  | crash shared hw =>
    obtain ⟨t,ht,rfl⟩ := getElem?_crash hu
    exact .killed ht hw

theorem Step.caller (hs : Step W P l P') (hu : P'.threads[j]? = some u) :
    (P.threads.length = j ∧ l = .spawn u.call) ∨ ∃ t, P.threads[j]? = some t ∧ t.call = u.call := by
  cases hs.change hu with
  | spawned call hj => exact .inl ⟨hj,rfl⟩
  | beside _ ht | waits ht | acts ht | killed ht => exact .inr ⟨_,ht,rfl⟩

theorem Step.forall_thread {φ : Thread M → Prop} (hs : Step W P l P') (hall : ∀ t ∈ P.threads, φ t)
    (hspawn : ∀ call, φ (Thread.spawned M call))
    (hact : ∀ i t e s, l = .act i e → P.threads[i]? = some t → φ t → t.alive = true →
      M.Step t.state e s → W.Answers P.shared e P'.shared → φ (t.advance e s))
    (hcrash : ∀ t, φ t → φ t.kill) : ∀ t ∈ P'.threads, φ t := by
  intro u hu
  obtain ⟨j,hj⟩ := List.mem_iff_getElem?.1 hu
  cases hs.change hj with
  | spawned call => exact hspawn call
  | beside _ ht | waits ht => exact hall u (List.mem_of_getElem? ht)
  | acts ht ha hm hw => exact hact j _ _ _ rfl ht (hall _ (List.mem_of_getElem? ht)) ha hm hw
  | killed ht => exact hcrash _ (hall _ (List.mem_of_getElem? ht))

theorem Reachable.alive (hcrash : ∀ s s', ¬ W.Restarts s s')
    (hr : Reachable M W D init P) : ∀ t ∈ P.threads, t.alive = true := by
  refine hr.invariant (by simp) ?_
  intro P l P' _ ih _ hs u hu
  obtain ⟨j,hj⟩ := List.mem_iff_getElem?.1 hu
  cases hs.change hj with
  | spawned => rfl
  | beside _ ht | waits ht => exact ih u (List.mem_of_getElem? ht)
  | acts _ ha => exact ha
  | killed _ hrestart => exact absurd hrestart (hcrash _ _)

theorem Reachable.runs (hr : Reachable M W D init P) :
    ∀ t ∈ P.threads, M.Runs t.call t.history t.state := by
  induction hr with
  | init => simp
  | step _ _ hs ih =>
    exact hs.forall_thread ih (fun _ => .start) (fun _ _ _ _ _ _ h _ hm _ => h.snoc hm)
      (fun _ h => h)

theorem Reachable.runs_at (hr : Reachable M W D init P)
    (ht : P.threads[i]? = some t) : M.Runs t.call t.history t.state :=
  hr.runs t (List.mem_of_getElem? ht)

/-- A fact about every thread that is alive and what they share holds if it holds of a new
thread and a step establishes it for its own thread and keeps it for the others. -/
theorem Reachable.live {Φ : σ → κ → List S.Event → Prop}
    (hspawn : ∀ P call, Reachable M W D init P →
      (∀ t ∈ P.threads, t.alive = true → Φ P.shared t.call t.history) → D P.view (.spawn call) →
      Φ P.shared call []) (hact : ∀ P i t e s shared, Reachable M W D init P →
      (∀ t ∈ P.threads, t.alive = true → Φ P.shared t.call t.history) → D P.view (.act i e) →
      P.threads[i]? = some t → t.alive = true → M.Step t.state e s → W.Answers P.shared e shared →
      Φ shared t.call (t.history ++ [e]) ∧
        ∀ u ∈ P.threads, u.alive = true → Φ shared u.call u.history) (hr : Reachable M W D init P) :
    ∀ t ∈ P.threads, t.alive = true → Φ P.shared t.call t.history := by
  refine hr.invariant
    (by simp) ?_
  intro P l P' hr hall hd hs u hu ha
  obtain ⟨j,hj⟩ := List.mem_iff_getElem?.1 hu
  cases hs.change hj with
  | spawned call _ hshared => exact hshared ▸ hspawn P call hr hall hd
  | beside _ ht hshared => exact hshared ▸ hall u (List.mem_of_getElem? ht) ha
  | acts ht halive hm hw => exact (hact P j _ _ _ _ hr hall hd ht halive hm hw).1
  | waits hu _ ht halive hm hw =>
    exact (hact P _ _ _ _ _ hr hall hd ht halive hm hw).2 u (List.mem_of_getElem? hu) ha
  | killed => cases ha

end Invariant

section Simulation
variable {C A : Machine S κ α} {R : C.State → A.State → Prop}
variable {P P' : Pool C σ} {Q : Pool A σ} {i : Nat} {W : World S σ}

/-- Two threads look alike and, while alive, are in related states. -/
structure Matches (R : C.State → A.State → Prop) (t : Thread C) (u : Thread A) : Prop where
  view : t.view = u.view
  related : t.alive = true → R t.state u.state

theorem Matches.advance (hsim : Machine.Simulates C A R) {t : Thread C} {u : Thread A}
    (hm : Matches R t u) (ha : t.alive = true) {e : S.Event} {s : C.State}
    (hs : C.Step t.state e s) :
    ∃ s', A.Step u.state e s' ∧ Matches R (t.advance e s) (u.advance e s') := by
  obtain ⟨s',hs',hR⟩ := hsim.step (hm.related ha) hs
  have hv := hm.view
  simp only [Thread.view,ThreadView.mk.injEq] at hv
  refine ⟨s',hs',?_,fun _ => hR⟩
  simp only [Thread.view,Thread.advance,hv.1,hv.2.1,hv.2.2.1,hsim.result hR]

/-- Thread by thread, two pools look alike. -/
structure Similar (R : C.State → A.State → Prop) (P : Pool C σ) (Q : Pool A σ) : Prop where
  shared : P.shared = Q.shared
  threads : List.Forall₂ (Matches R) P.threads Q.threads

theorem Similar.view (h : Similar R P Q) : P.view = Q.view := by
  have hmap : ∀ {l : List (Thread C)} {m : List (Thread A)}, List.Forall₂ (Matches R) l m →
      l.map Thread.view = m.map Thread.view := by
    intro l m hf
    induction hf with
    | nil => rfl
    | cons hm _ ih => rw [List.map_cons,List.map_cons,hm.view,ih]
  rw [Pool.view,Pool.view,h.shared,hmap h.threads]

private theorem forall₂_getElem? {β γ : Type} {T : β → γ → Prop} {l : List β} {m : List γ}
    (hf : List.Forall₂ T l m) {i : Nat} {x : β} (hx : l[i]? = some x) :
    ∃ y, m[i]? = some y ∧ T x y := by
  induction hf generalizing i with
  | nil => simp at hx
  | cons h _ ih =>
    cases i with
    | zero =>
      simp only [List.getElem?_cons_zero,Option.some.injEq] at hx
      exact ⟨_,rfl,hx ▸ h⟩
    | succ => exact ih (by simpa using hx)

theorem Similar.matched (h : Similar R P Q) {t : Thread C} (ht : P.threads[i]? = some t) :
    ∃ u, Q.threads[i]? = some u ∧ Matches R t u :=
  forall₂_getElem? h.threads ht

theorem Similar.matching (h : Similar R P Q) {u : Thread A} (hu : Q.threads[i]? = some u) :
    ∃ t, P.threads[i]? = some t ∧ Matches R t u := by
  have hview := congrArg (fun V : PoolView S κ α σ => V.threads[i]?) h.view
  simp only [Pool.view,List.getElem?_map,hu,Option.map_some] at hview
  obtain ⟨t,ht,-⟩ := Option.map_eq_some_iff.1 hview
  obtain ⟨u',hu',hm⟩ := h.matched ht
  obtain rfl : u' = u := Option.some.inj (hu'.symm.trans hu)
  exact ⟨t,ht,hm⟩

theorem Similar.thread (h : Similar R P Q) {t : Thread C} (ht : P.threads[i]? = some t) :
    ∃ u, Q.threads[i]? = some u ∧ u.view = t.view ∧ u.call = t.call ∧ u.history = t.history := by
  obtain ⟨u,hu,hm⟩ := h.matched ht
  have hview := hm.view.symm
  exact ⟨u,hu,hview,congrArg ThreadView.call hview,congrArg ThreadView.history hview⟩

private theorem forall₂_set {β γ : Type} {T : β → γ → Prop} {l : List β} {m : List γ}
    (hf : List.Forall₂ T l m) (i : Nat) {x : β} {y : γ} (h : T x y) :
    List.Forall₂ T (l.set i x) (m.set i y) := by
  induction hf generalizing i with
  | nil => exact .nil
  | cons h' hf ih =>
    cases i with
    | zero => exact .cons h hf
    | succ i => exact .cons h' (ih i)

private theorem forall₂_append {β γ : Type} {T : β → γ → Prop} {l : List β} {m : List γ}
    (hf : List.Forall₂ T l m) {x : β} {y : γ} (h : T x y) :
    List.Forall₂ T (l ++ [x]) (m ++ [y]) := by
  induction hf with
  | nil => exact .cons h .nil
  | cons h' _ ih => exact .cons h' ih

private theorem forall₂_kill {l : List (Thread C)} {m : List (Thread A)}
    (hf : List.Forall₂ (Matches R) l m) :
    List.Forall₂ (Matches R) (l.map Thread.kill) (m.map Thread.kill) := by
  induction hf with
  | nil => exact .nil
  | @cons t u _ _ h _ ih =>
    refine .cons ⟨?_,fun ha => by simp [Thread.kill] at ha⟩ ih
    have hv := h.view
    simp only [Thread.view,ThreadView.mk.injEq] at hv
    simp only [Thread.view,Thread.kill,hv.1,hv.2.1,hv.2.2.2]

theorem Similar.step (hsim : Machine.Simulates C A R)
    {l : Label S κ} (h : Similar R P Q) (hs : Step W P l P') :
    ∃ Q', Step W Q l Q' ∧ Similar R P' Q' := by
  cases hs with
  | spawn call =>
    have hm : Matches R (Thread.spawned C call) (Thread.spawned A call) :=
      ⟨by simp only [Thread.view,Thread.spawned,hsim.result (hsim.start call)],
        fun _ => hsim.start call⟩
    exact ⟨_,.spawn Q call,h.shared,forall₂_append h.threads hm⟩
  | act i t e s shared ht ha hstep hw =>
    obtain ⟨u,hu,hm⟩ := h.matched ht
    obtain ⟨s',hs',hm'⟩ := hm.advance hsim ha hstep
    have hv := hm.view
    simp only [Thread.view,ThreadView.mk.injEq] at hv
    exact ⟨_,.act Q i u e s' shared hu (hv.2.2.1 ▸ ha) hs' (h.shared ▸ hw),rfl,
      forall₂_set h.threads i hm'⟩
  | crash shared hw =>
    exact ⟨_,.crash Q shared (h.shared ▸ hw),rfl,forall₂_kill h.threads⟩

theorem Reachable.similar (hsim : Machine.Simulates C A R)
    {D : Discipline S κ α σ} {init : σ} (hr : Reachable C W D init P) :
    ∃ Q, Reachable A W D init Q ∧ Similar R P Q := by
  induction hr with
  | init => exact ⟨_,.init,rfl,.nil⟩
  | step _ hd hs ih =>
    obtain ⟨Q,hQ,hPQ⟩ := ih
    obtain ⟨Q',hs',hPQ'⟩ := hPQ.step hsim hs
    exact ⟨Q',.step hQ (hPQ.view ▸ hd) hs',hPQ'⟩

end Simulation

section Total
variable {f : ThreadView S κ α → Nat} {P P' : Pool M σ} {W : World S σ} {l : Label S κ}

def total (f : ThreadView S κ α → Nat) (P : Pool M σ) : Nat := (P.view.threads.map f).sum

theorem total_set (shared : σ) {i : Nat} {t : Thread M} (ht : P.threads[i]? = some t)
    (t' : Thread M) :
    total f ⟨shared,P.threads.set i t'⟩ + f t.view = total f P + f t'.view := by
  obtain ⟨_,threads⟩ := P
  simp only [total,view,List.map_map] at ht ⊢
  induction threads generalizing i with
  | nil => cases ht
  | cons u threads ih =>
    cases i with
    | zero =>
      cases ht
      simp only [List.set_cons_zero,List.map_cons,List.sum_cons,Function.comp_apply]
      omega
    | succ =>
      have hrest := ih ht
      simp only [List.set_cons_succ,List.map_cons,List.sum_cons,Function.comp_apply] at hrest ⊢
      omega

theorem total_add_rest {g : ThreadView S κ α → Nat} (h : ∀ t ∈ P.threads, f t.view ≤ g t.view) :
    total f P + total (fun v => g v - f v) P = total g P := by
  obtain ⟨_,threads⟩ := P
  simp only [total,view,List.map_map] at h ⊢
  induction threads with
  | nil => rfl
  | cons t threads ih =>
    obtain ⟨hhead,htail⟩ := List.forall_mem_cons.1 h
    have hrest := ih htail
    simp only [List.map_cons,List.sum_cons,Function.comp_apply] at hrest ⊢
    omega

/-- How often a call of the kind has seen an event of the kind. -/
def tally (p : κ → Bool) (q : S.Event → Bool) (v : ThreadView S κ α) : Nat :=
  if p v.call then v.history.countP q else 0

variable {p : κ → Bool} {q : S.Event → Bool}

theorem total_tally_act {i : Nat} {t : Thread M} (ht : P.threads[i]? = some t) (shared : σ)
    (e : S.Event) (s : M.State) :
    total (tally p q) ⟨shared,P.threads.set i (t.advance e s)⟩ =
      total (tally p q) P + if p t.call = true ∧ q e = true then 1 else 0 := by
  have hset := total_set (f := tally p q) shared ht (t.advance e s)
  have hadvance : tally p q (t.advance e s).view =
      tally p q t.view + if p t.call = true ∧ q e = true then 1 else 0 := by
    simp only [tally,Thread.view,Thread.advance,List.countP_append,List.countP_singleton]
    by_cases hp : p t.call = true <;> simp [hp]
  omega

theorem total_tally_spawn (call : κ) :
    total (tally p q) ⟨P.shared,P.threads ++ [Thread.spawned M call]⟩ = total (tally p q) P := by
  simp [total,view,tally,Thread.view,Thread.spawned]

theorem total_tally_call [DecidableEq κ] (h : ∀ t ∈ P.threads, t.history.countP q ≤ 1) (call : κ) :
    total (tally (· == call) q) P =
      ((P.threads.filter fun t => t.history.any q).map Thread.call).count call := by
  obtain ⟨shared,threads⟩ := P
  simp only [total,view,List.map_map] at h ⊢
  induction threads with
  | nil => rfl
  | cons t threads ih =>
    obtain ⟨ht,hrest⟩ := List.forall_mem_cons.1 h
    have hany : t.history.any q = true ↔ 0 < t.history.countP q := by
      rw [List.any_eq_true,List.countP_pos_iff]
    rw [List.map_cons,List.sum_cons,ih hrest,List.filter_cons]
    by_cases hq : t.history.any q = true
    · have hone : t.history.countP q = 1 := by have := hany.1 hq; omega
      rw [if_pos hq,List.map_cons,List.count_cons,Nat.add_comm]
      simp [tally,Thread.view,hone]
    · have hnone : t.history.countP q = 0 := by have := mt hany.2 hq; omega
      simp [tally,Thread.view,hnone,hq]

theorem Step.total (hspawn : ∀ call, f (Thread.spawned M call).view = 0)
    (hkill : ∀ t : Thread M, f t.kill.view = f t.view) (hs : Step W P l P') :
    Pool.total f P' = Pool.total f P ∨ ∃ i e t s, l = .act i e ∧ P.threads[i]? = some t ∧
      M.Step t.state e s ∧
      Pool.total f P' + f t.view = Pool.total f P + f (t.advance e s).view := by
  cases hs with
  | spawn =>
    left
    simp [Pool.total,Pool.view,hspawn]
  | act i t e s shared ht _ hm =>
    exact .inr ⟨i,e,t,s,rfl,ht,hm,total_set shared ht _⟩
  | crash =>
    left
    simp only [Pool.total,Pool.view,List.map_map]
    exact congrArg List.sum (List.map_congr_left fun t _ => hkill t)

end Total

end Pool

end WatchMe.Effects
