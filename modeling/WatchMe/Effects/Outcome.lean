import Mathlib.Data.List.Induction

/-! # Postconditions of state programs with errors

`Yields x s Q` says that `x`, run from `s`, returns a result and leaves a state that meet
`Q`. What a program had written when it failed stays written, so an error has a state too.
The rules follow the statements of a program.
-/
namespace WatchMe.Effects

variable {ε σ α β : Type}

def Yields (x : ExceptT ε (StateM σ) α) (s : σ) (Q : Except ε α → σ → Prop) : Prop :=
  Q (x.run s).1 (x.run s).2

namespace Yields
variable {s : σ} {Q : Except ε β → σ → Prop}

theorem bind {x : ExceptT ε (StateM σ) α} {f : α → ExceptT ε (StateM σ) β}
    (h : Yields x s fun result s' => match result with
      | .ok a => Yields (f a) s' Q
      | .error e => Q (.error e) s') : Yields (x >>= f) s Q := by
  have hrun : (x >>= f).run s = match x.run s with
      | (.ok a,s') => (f a).run s'
      | (.error e,s') => (.error e,s') := by
    simp only [ExceptT.run_bind]
    change (x.run.bind _) s = _
    simp only [StateT.bind]
    rcases x.run s with ⟨_ | a,s'⟩ <;> rfl
  unfold Yields at h ⊢
  rw [hrun]
  rcases hx : x.run s with ⟨e | a,s'⟩
  · rw [hx] at h
    exact h
  · rw [hx] at h
    exact h

theorem get_bind {f : σ → ExceptT ε (StateM σ) β} (h : Yields (f s) s Q) :
    Yields (get >>= f) s Q :=
  bind h

theorem modify_bind {g : σ → σ} {f : PUnit → ExceptT ε (StateM σ) β}
    (h : Yields (f ⟨⟩) (g s) Q) : Yields (modify g >>= f) s Q :=
  bind h

theorem guard {bad : Prop} [Decidable bad] {e : ε} {k : PUnit → ExceptT ε (StateM σ) β}
    {rest : ExceptT ε (StateM σ) β} (hbad : bad → Q (.error e) s)
    (hgood : ¬ bad → Yields rest s Q) :
    Yields (if bad then throw e >>= k else rest) s Q := by
  by_cases hc : bad
  · rw [if_pos hc]
    exact bind (hbad hc)
  · rw [if_neg hc]
    exact hgood hc

end Yields

end WatchMe.Effects
