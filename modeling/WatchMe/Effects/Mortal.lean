import WatchMe.Effects.Trace

/-! # Programs that may die

A process may die at every request that it makes. A request is then answered, or never returns:
`none` stands for the death before the request is carried out. The automaton of a mortal program has
one more state, in which it is dead, and a program that conforms to an automaton conforms, made
mortal, to the mortal automaton.
-/
namespace WatchMe.Effects

variable {S : Signature} {α κ σ ε : Type}

def Signature.mortal (S : Signature) : Signature := ⟨S.Op,fun op => Option (S.Answer op)⟩

instance [DecidableEq S.Op] : DecidableEq S.mortal.Op := inferInstanceAs (DecidableEq S.Op)

namespace Program

def mortal : Program S α → Program S.mortal (Option α)
  | done a => .done (some a)
  | ask op next => .ask (S := S.mortal) op fun r => match r with
    | some r => (next r).mortal
    | none => .done none

def once (p : Program S α) : Program S (Empty ⊕ α) := p >>= fun a => .done (.inr a)

def survived (e : S.Event) : S.mortal.Event := ⟨e.op,some e.answer⟩

end Program

/-- The dead state is `none`; a program dies at a request that it could make. -/
def Machine.mortal (M : Machine S κ α) : Machine S.mortal κ (Option α) where
  State := Option M.State
  start k := some (M.start k)
  Step s e s' := match s, e, s' with
    | some s, ⟨op,some r⟩, some s' => M.Step s ⟨op,r⟩ s'
    | some s, ⟨op,none⟩, none => ∃ r s', M.Step s ⟨op,r⟩ s'
    | _, _, _ => False
  result s := match s with
    | some s => (M.result s).map some
    | none => some none

/-- `dies` is what the death of a program at a request does to the shared state. -/
def World.mortal (W : World S σ) (dies : σ → S.Op → σ → Prop) : World S.mortal σ where
  Answers s e s' := match e with
    | ⟨op,some r⟩ => W.Answers s ⟨op,r⟩ s'
    | ⟨op,none⟩ => dies s op s'
  Restarts := W.Restarts

namespace Conforms
variable {M : Machine S κ ε} {s : M.State}

/-- What a mortal program leaves: the postcondition, if it lives. -/
def Survives (Q : M.State → α → Prop) : M.mortal.State → Option α → Prop
  | some t, some a => Q t a
  | none, none => True
  | _, _ => False

theorem mortal (hanswer : ∀ op, Nonempty (S.Answer op)) {Q : M.State → α → Prop}
    {p : Program S α} (hp : Conforms M Q p s) :
    Conforms M.mortal (Survives Q) p.mortal (some s) := by
  induction p generalizing s with
  | done => exact hp
  | ask op next ih =>
    unfold Program.mortal
    refine ⟨?_,fun r => ?_⟩
    · change (M.result s).map some = none
      rw [hp.1]
      rfl
    · cases r with
      | some r =>
        obtain ⟨t,hs,ht⟩ := hp.2 r
        exact ⟨some t,hs,ih r ht⟩
      | none =>
        obtain ⟨r⟩ := hanswer op
        obtain ⟨t,hs,-⟩ := hp.2 r
        exact ⟨none,⟨r,t,hs⟩,trivial⟩

end Conforms

/-- The pool machine of mortal calls is simulated by the mortal automaton to which the calls
conform. -/
theorem Conforms.simulates_mortal {M : Machine S κ α} {main : κ → Program S α}
    (hanswer : ∀ op, Nonempty (S.Answer op))
    (hmain : ∀ k, Conforms M (fun t a => M.result t = some a) (main k) (M.start k)) :
    Machine.Simulates (Program.machine (Empty.elim) fun k => (main k).mortal.once) M.mortal
      fun p s => Conforms M.mortal (LoopPost fun _ i => Empty.elim i) p s ∧
        Program.result p = M.mortal.result s := by
  refine Conforms.simulates (fun _ i => i.elim) fun k => conforms_bind.2 ?_
  refine ((hmain k).mortal hanswer).mono ?_
  rintro (_ | t) (_ | a) h
  · rfl
  · exact h.elim
  · exact h.elim
  · change (M.result t).map some = some (some a)
    rw [h]
    rfl

end WatchMe.Effects
