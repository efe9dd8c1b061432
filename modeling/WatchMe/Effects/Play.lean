import WatchMe.Effects.Trace

/-! # Schedules that are carried out

A host computes the answers of a world. Moves of threads and new calls then lead from a pool to
one that is computed too, so that what becomes of a given schedule is a matter of evaluation.
-/
namespace WatchMe.Effects
open Program

variable {S : Signature} {α ι κ σ : Type}

instance [DecidableEq S.Op] [∀ op, DecidableEq (S.Answer op)] : DecidableEq S.Event
  | ⟨op,a⟩, ⟨op',b⟩ =>
    if h : op = op' then decidable_of_iff (h ▸ a = b) (by subst h; simp) else isFalse (by simp [h])

/-- Answers that the world may give. A request may have to wait for one. -/
structure Host (W : World S σ) where
  ready : σ → S.Op → Bool := fun _ _ => true
  answer : σ → (op : S.Op) → S.Answer op × σ
  answers (s : σ) (op : S.Op) : ready s op = true →
    W.Answers s ⟨op,(answer s op).1⟩ (answer s op).2

namespace Host
variable {W : World S σ}

/-- What a program asks of the host, and what comes of it. -/
def carry (host : Host W) : Program S α → σ → List S.Event × σ × α
  | .done a, s => ([],s,a)
  | .ask op next, s =>
    let (r,s') := host.answer s op
    let (h,result) := host.carry (next r) s'
    (⟨op,r⟩ :: h,result)

theorem carry_traces (host : Host W) (p : Program S α) (s : σ) :
    Traces p (host.carry p s).1 (host.carry p s).2.2 := by
  induction p generalizing s with
  | done a => exact .done a
  | ask op next ih => exact .ask _ (ih _ _)

theorem carry_answered (host : Host W) (hready : ∀ s op, host.ready s op = true)
    (p : Program S α) (s : σ) :
    W.Answered s (host.carry p s).1 (host.carry p s).2.1 := by
  induction p generalizing s with
  | done => exact .nil s
  | ask op next ih => exact .cons (host.answers s op (hready s op)) (ih _ _)

end Host

inductive Move (W : World S σ) (κ : Type) where
  | spawn (call : κ)
  | act (i : Nat) (host : Host W)

namespace Pool
variable {body : ι → Program S (ι ⊕ α)} {main : κ → Program S (ι ⊕ α)} {W : World S σ}

/-- The request that a thread is at, and how it goes on. -/
def pending (P : Pool (machine body main) σ) (i : Nat) :
    Option (Thread (machine body main) × (op : S.Op) × (S.Answer op → Program S (ι ⊕ α))) :=
  P.threads[i]?.bind fun t => match t.alive, (t.state : Program S (ι ⊕ α)) with
    | true, .ask op next => some (t,⟨op,next⟩)
    | _, _ => none

def asks (P : Pool (machine body main) σ) (i : Nat) : Option S.Op :=
  (P.pending i).map fun q => q.2.1

def move (P : Pool (machine body main) σ) :
    Move W κ → Option (Label S κ × Pool (machine body main) σ)
  | .spawn k => some (.spawn k,⟨P.shared,P.threads ++ [Thread.spawned _ k]⟩)
  | .act i host => (P.pending i).bind fun (t,⟨op,next⟩) =>
    let (r,shared) := host.answer P.shared op
    if host.ready P.shared op then some
      (.act i ⟨op,r⟩,⟨shared,P.threads.set i (t.advance ⟨op,r⟩ ((next r).unroll body))⟩)
    else none

/-- A move that the pool does not allow is passed over. -/
def next (P : Pool (machine body main) σ) (m : Move W κ) : Pool (machine body main) σ :=
  ((P.move m).map Prod.snd).getD P

def play (P : Pool (machine body main) σ) : List (Move W κ) → Pool (machine body main) σ
  | [] => P
  | m :: ms => (P.next m).play ms

def labels (P : Pool (machine body main) σ) : List (Move W κ) → List (Label S κ)
  | [] => []
  | m :: ms => ((P.move m).map Prod.fst).toList ++ (P.next m).labels ms

/-- Every move of the schedule passes a test of its label at the pool that it is made from. -/
def allows (test : Pool (machine body main) σ → Label S κ → Bool) (P : Pool (machine body main) σ) :
    List (Move W κ) → Bool
  | [] => true
  | m :: ms => ((P.move m).all fun a => test P a.1) && (P.next m).allows test ms

variable {P P' : Pool (machine body main) σ} {D : Discipline S κ α σ} {init : σ} {i : Nat}

theorem pending_eq_some {t : Thread (machine body main)} {op : S.Op}
    {k : S.Answer op → Program S (ι ⊕ α)} (h : P.pending i = some (t,⟨op,k⟩)) :
    P.threads[i]? = some t ∧ t.alive = true ∧ t.state = Program.ask op k := by
  obtain ⟨u,hu,hmatch⟩ := Option.bind_eq_some_iff.1 h
  split at hmatch
  · next halive hstate =>
    cases hmatch
    exact ⟨hu,halive,hstate⟩
  · cases hmatch

theorem step_of_move {m : Move W κ} {l : Label S κ} (h : P.move m = some (l,P')) :
    Step W P l P' := by
  cases m with
  | spawn k =>
    cases h
    exact .spawn P k
  | act i host =>
    obtain ⟨⟨t,op,k⟩,hpending,heq⟩ := Option.bind_eq_some_iff.1 h
    obtain ⟨ht,halive,hstate⟩ := pending_eq_some hpending
    obtain ⟨hready,heq⟩ := Option.ite_none_right_eq_some.1 heq
    cases heq
    refine .act P i t _ _ _ ht halive ?_ (host.answers P.shared op hready)
    rw [hstate]
    exact .answer op k _

theorem next_eq {m : Move W κ} {a : Label S κ × Pool (machine body main) σ}
    (h : P.move m = some a) : P.next m = a.2 := by
  rw [next,h]
  rfl

theorem next_eq_self {m : Move W κ} (h : P.move m = none) : P.next m = P := by
  rw [next,h]
  rfl

theorem path_play (P : Pool (machine body main) σ) (ms : List (Move W κ)) :
    Path W P (P.labels ms) (P.play ms) := by
  induction ms generalizing P with
  | nil => exact .nil P
  | cons m ms ih =>
    have hrest := ih (P.next m)
    unfold labels play
    cases hm : P.move m with
    | none =>
      rw [next_eq_self hm] at hrest ⊢
      exact hrest
    | some =>
      rw [next_eq hm] at hrest ⊢
      exact .cons (step_of_move hm) hrest

theorem Reachable.play (hr : Reachable (machine body main) W D init P) (ms : List (Move W κ))
    (hD : ∀ V, ∀ l ∈ P.labels ms, D V l) : Reachable (machine body main) W D init (P.play ms) :=
  (P.path_play ms).reachable hD hr

theorem Reachable.play_of (test : Label S κ → Bool)
    (hr : Reachable (machine body main) W D init P) (ms : List (Move W κ))
    (hD : ∀ V l, test l = true → D V l) (h : (P.labels ms).all test = true) :
    Reachable (machine body main) W D init (P.play ms) :=
  hr.play ms fun V l hl => hD V l (List.all_eq_true.1 h l hl)

theorem Reachable.play_at (test : Pool (machine body main) σ → Label S κ → Bool)
    (hr : Reachable (machine body main) W D init P) (ms : List (Move W κ))
    (hD : ∀ P l, test P l = true → D P.view l) (h : P.allows test ms = true) :
    Reachable (machine body main) W D init (P.play ms) := by
  induction ms generalizing P with
  | nil => exact hr
  | cons m ms ih =>
    obtain ⟨hm,hms⟩ := Bool.and_eq_true_iff.1 h
    refine ih ?_ hms
    cases hmove : P.move m with
    | none =>
      rw [next_eq_self hmove]
      exact hr
    | some a =>
      rw [hmove] at hm
      rw [next_eq hmove]
      exact hr.step (hD P a.1 hm) (step_of_move hmove)

theorem Reachable.play_decided [∀ V l, Decidable (D V l)]
    (hr : Reachable (machine body main) W D init P) (ms : List (Move W κ))
    (h : P.allows (fun P l => decide (D P.view l)) ms = true) :
    Reachable (machine body main) W D init (P.play ms) :=
  hr.play_at _ ms (fun _ _ => of_decide_eq_true) h

theorem mem_labels_replicate {host : Host W} {n : Nat} {l : Label S κ}
    (h : l ∈ P.labels (List.replicate n (.act i host))) : ∃ e, l = .act i e := by
  induction n generalizing P with
  | zero => cases h
  | succ n ih =>
    rcases List.mem_append.1 h with h | h
    · obtain ⟨a,ha,rfl⟩ := Option.map_eq_some_iff.1 (Option.mem_toList.1 h)
      obtain ⟨q,-,hq⟩ := Option.bind_eq_some_iff.1 ha
      obtain ⟨-,heq⟩ := Option.ite_none_right_eq_some.1 hq
      cases heq
      exact ⟨_,rfl⟩
    · exact ih h

theorem step_next (host : Host W) {op : S.Op} {r : S.Answer op} (hop : P.asks i = some op)
    (hr : (host.answer P.shared op).1 = r) (hready : host.ready P.shared op = true := by rfl) :
    Step W P (.act i ⟨op,r⟩) (P.next (.act i host)) := by
  obtain ⟨⟨t,op',k⟩,hpending,rfl⟩ := Option.map_eq_some_iff.1 hop
  subst hr
  have hm : P.move (.act i host) = some (.act i ⟨op',(host.answer P.shared op').1⟩,_) :=
    (congrArg (Option.bind · _) hpending).trans (if_pos hready)
  rw [next_eq hm]
  exact step_of_move hm

theorem exists_step (host : Host W) (h : (P.asks i).isSome = true)
    (hready : ∀ op, host.ready P.shared op = true := by exact fun _ => rfl) :
    ∃ e, Step W P (.act i e) (P.next (.act i host)) := by
  obtain ⟨op,hop⟩ := Option.isSome_iff_exists.1 h
  exact ⟨_,step_next host hop rfl (hready op)⟩

theorem exists_thread {M : Machine S κ α} {l : List (Thread M)} (test : Thread M → Bool)
    (h : (match l with | [t] => test t | _ => false) = true) : ∃ t, l = [t] ∧ test t = true := by
  split at h
  · exact ⟨_,rfl,h⟩
  · cases h

theorem exists_threads {M : Machine S κ α} {l : List (Thread M)} (test : Thread M → Thread M → Bool)
    (h : (match l with | [t,u] => test t u | _ => false) = true) :
    ∃ t u, l = [t,u] ∧ test t u = true := by
  split at h
  · exact ⟨_,_,rfl,h⟩
  · cases h

end Pool

end WatchMe.Effects
