import WatchMe.Effects.Interpret

/-! # Programs that make remarks

A program may make further requests of which nothing else that it does depends. `Erases R p q`
says that `p` is `q` with such remarks in between, up to the relation `R` on the values they
return, and a run of `p` without its remarks is then a run of `q`.

What a program says in its remarks is a matter of its history. A history that is kept as the
state of an automaton turns conformance into a logic for that: `Conforms` at `histories I` says
that the program never leaves the histories with `I`.
-/
namespace WatchMe.Effects

variable {S T : Signature} {α β γ ι ι' κ κ' ε : Type}

@[reducible] def Signature.plus (S T : Signature) : Signature where
  Op := S.Op ⊕ T.Op
  Answer
    | .inl op => S.Answer op
    | .inr op => T.Answer op

namespace Signature.Event

/-- What is left of an event if remarks do not count. -/
def own : (S.plus T).Event → Option S.Event
  | ⟨.inl op,r⟩ => some ⟨op,r⟩
  | ⟨.inr _,_⟩ => none

end Signature.Event

namespace Program

def within : Program S α → Program (S.plus T) α
  | done a => done a
  | ask op next => ask (S := S.plus T) (.inl op) fun r => (next r).within

/-- The first program is the second one with remarks. -/
def Erases (R : α → β → Prop) : Program (S.plus T) α → Program S β → Prop
  | done a, q => ∃ b, q = done b ∧ R a b
  | ask (.inl op) next, q => ∃ next', q = ask op next' ∧ ∀ r, (next r).Erases R (next' r)
  | ask (.inr _) next, q => ∀ r, (next r).Erases R q

namespace Erases
variable {R : α → β → Prop}

section Loop
variable {R : α → β → Prop} {J : ι → ι' → Prop} {body : ι → Program (S.plus T) (ι ⊕ α)}
  {main : κ → Program (S.plus T) (ι ⊕ α)} {body' : ι' → Program S (ι' ⊕ β)}
  {main' : κ' → Program S (ι' ⊕ β)}

/-- The loop with remarks is in a state of the loop without. The one without may have gone round
already when the other still has something to remark. -/
def Behind (R : α → β → Prop) (J : ι → ι' → Prop) (body' : ι' → Program S (ι' ⊕ β))
    (p : Program (S.plus T) (ι ⊕ α)) (s : Program S (ι' ⊕ β)) : Prop :=
  ∃ q : Program S (ι' ⊕ β), p.Erases (Sum.LiftRel J R) q ∧ s = q.unroll body'

theorem behind_unroll (hasks : ∀ j, (body' j).unroll body' = body' j)
    (hbody : ∀ i j, J i j → (body i).Erases (Sum.LiftRel J R) (body' j))
    {p : Program (S.plus T) (ι ⊕ α)} {q : Program S (ι' ⊕ β)}
    (h : p.Erases (Sum.LiftRel J R) q) : Behind R J body' (p.unroll body) (q.unroll body') := by
  rcases p with (i | a) | ⟨op,next⟩
  · obtain ⟨_,rfl,hJ⟩ := h
    cases hJ with
    | inl hJ => exact ⟨_,hbody _ _ hJ,(hasks _).symm⟩
  · exact ⟨q,h,rfl⟩
  · exact ⟨q,h,rfl⟩

theorem runs (hasks : ∀ j, (body' j).unroll body' = body' j)
    (hbody : ∀ i j, J i j → (body i).Erases (Sum.LiftRel J R) (body' j)) {k : κ} {k' : κ'}
    (hmain : (main k).Erases (Sum.LiftRel J R) (main' k')) {h : List (S.plus T).Event}
    {p : Program (S.plus T) (ι ⊕ α)} (hr : (machine body main).Runs k h p) :
    ∃ s, (machine body' main').Runs k' (h.filterMap (·.own)) s ∧ Behind R J body' p s := by
  refine hr.invariant ⟨_,.start,behind_unroll hasks hbody hmain⟩ ?_
  rintro h _ _ _ ⟨s,hs,q,hq,rfl⟩ ⟨op,next,r⟩
  cases op with
  | inl op =>
    obtain ⟨next',rfl,hnext⟩ := hq
    refine ⟨_,?_,behind_unroll hasks hbody (hnext r)⟩
    rw [List.filterMap_append]
    exact hs.snoc (.answer op next' r)
  | inr =>
    refine ⟨_,?_,behind_unroll hasks hbody (hq r)⟩
    rw [List.filterMap_append]
    exact (List.append_nil _).symm ▸ hs

end Loop

end Erases
end Program

section Histories
variable {I : List S.Event → Prop}

end Histories

end WatchMe.Effects
