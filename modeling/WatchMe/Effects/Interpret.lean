import WatchMe.Effects.Trace

/-! # Programs inside other programs

A program may be run as a part of another one that has more requests: each of its requests is
handled by a program over the larger signature. What it asks, the automaton it conforms to and
the traces it has carry over.
-/
namespace WatchMe.Effects

variable {S T : Signature} {α β ε ε' ι κ κ' σ : Type}

namespace Program
variable {p : Program S α} {a : α} {handle : (op : S.Op) → Program T (S.Answer op)}

/-- Every request is handled by a program over another signature. -/
def interpret (handle : (op : S.Op) → Program T (S.Answer op)) : Program S α → Program T α
  | done a => done a
  | ask op next => (handle op).bind fun r => (next r).interpret handle

theorem asks_true (p : Program S α) : p.Asks fun _ => True := by
  induction p with
  | done => trivial
  | ask op next ih => exact ⟨trivial,ih⟩

theorem Asks.interpret {φ : S.Op → Prop} {ψ : T.Op → Prop}
    (hhandle : ∀ op, φ op → (handle op).Asks ψ) (hp : p.Asks φ) : (p.interpret handle).Asks ψ := by
  induction p with
  | done => trivial
  | ask op next ih => exact (hhandle op hp.1).bind fun r => ih r (hp.2 r)

theorem Traces.interpret_inv {k : List T.Event} (hp : Traces (p.interpret handle) k a) :
    ∃ l : List (S.Event × List T.Event), k = l.flatMap (·.2) ∧ Traces p (l.map (·.1)) a ∧
      ∀ x ∈ l, Traces (handle x.1.op) x.2 x.1.answer := by
  induction p generalizing k with
  | done =>
    obtain ⟨rfl,rfl⟩ := Traces.done_inv hp
    exact ⟨[],rfl,.done _,by simp⟩
  | ask op next ih =>
    obtain ⟨h,k,r,rfl,hhandle,hnext⟩ := Traces.bind_inv hp
    obtain ⟨l,rfl,hl,hall⟩ := ih r hnext
    refine ⟨(⟨op,r⟩,h) :: l,rfl,.ask r hl,fun x hx => ?_⟩
    rcases List.mem_cons.1 hx with rfl | hx
    · exact hhandle
    · exact hall x hx

theorem Asks.traced {φ : S.Op → Prop} {h : List S.Event}
    (hp : p.Asks φ) (ht : Traces p h a) : ∀ e ∈ h, φ e.op := by
  induction ht with
  | done => simp
  | @ask op next h a r _ ih =>
    intro e he
    rcases List.mem_cons.1 he with rfl | he
    · exact hp.1
    · exact ih (hp.2 r) e he

/-- Every request that the program may come to make, as long as the answers are of the kind
`A`, is of the kind `φ`. -/
def AsksIf (A : S.Event → Prop) (φ : S.Op → Prop) : Program S α → Prop
  | done _ => True
  | ask op next => φ op ∧ ∀ r, A ⟨op,r⟩ → (next r).AsksIf A φ

section AsksIf
variable {A : S.Event → Prop} {φ : S.Op → Prop}

theorem Asks.asksIf (hp : p.Asks φ) : p.AsksIf A φ := by
  induction p with
  | done => trivial
  | ask op next ih => exact ⟨hp.1,fun r _ => ih r (hp.2 r)⟩

theorem AsksIf.bind {f : α → Program S β} (hp : p.AsksIf A φ)
    (hf : ∀ a, (f a).AsksIf A φ) : (p >>= f).AsksIf A φ := by
  change (p.bind f).AsksIf A φ
  induction p with
  | done a => exact hf a
  | ask op next ih => exact ⟨hp.1,fun r hr => ih r (hp.2 r hr)⟩

theorem AsksIf.run_bind {η : Type} {x : ExceptT η (Program S) α}
    {f : α → ExceptT η (Program S) β} (hx : x.run.AsksIf A φ) (hf : ∀ a, (f a).run.AsksIf A φ) :
    (x >>= f).run.AsksIf A φ := by
  rw [ExceptT.run_bind]
  refine hx.bind fun r => ?_
  cases r with
  | ok a => exact hf a
  | error => trivial

theorem AsksIf.traced {h : List S.Event} (hp : p.AsksIf A φ)
    (ht : Traces p h a) (hA : ∀ e ∈ h, A e) : ∀ e ∈ h, φ e.op := by
  induction ht with
  | done => simp
  | @ask op next h a r _ ih =>
    obtain ⟨hr,hA⟩ := List.forall_mem_cons.1 hA
    exact List.forall_mem_cons.2 ⟨hp.1,ih (hp.2 r hr) hA⟩

end AsksIf

def eval (answer : (op : S.Op) → S.Answer op) : Program S α → α
  | done a => a
  | ask op next => (next (answer op)).eval answer

section Eval
variable {answer : (op : S.Op) → S.Answer op}

theorem eval_bind (p : Program S α) (f : α → Program S β) :
    (p >>= f).eval answer = (f (p.eval answer)).eval answer := by
  change (p.bind f).eval answer = _
  induction p with
  | done => rfl
  | ask op next ih => exact ih (answer op)

theorem eval_run_bind {η : Type} (x : ExceptT η (Program S) α)
    (f : α → ExceptT η (Program S) β) :
    (x >>= f).run.eval answer = x.run.eval answer >>= fun a => (f a).run.eval answer := by
  rw [ExceptT.run_bind,eval_bind]
  cases x.run.eval answer <;> rfl

theorem eval_run_adapt {η η' : Type} (wrap : η → η') (x : ExceptT η (Program S) α) :
    (ExceptT.adapt wrap x).run.eval answer = (x.run.eval answer).mapError wrap :=
  eval_bind x.run fun r => done (r.mapError wrap)

theorem eval_interpret {answer : (op : T.Op) → T.Answer op} (p : Program S α) :
    (p.interpret handle).eval answer = p.eval fun op => (handle op).eval answer := by
  induction p with
  | done => rfl
  | ask op next ih =>
    change ((handle op) >>= fun r => (next r).interpret handle).eval answer = _
    rw [eval_bind]
    exact ih _

theorem exists_traces_eval (p : Program S α) :
    ∃ h, Traces p h (p.eval answer) ∧ ∀ e ∈ h, e.answer = answer e.op := by
  induction p with
  | done a => exact ⟨[],.done a,by simp⟩
  | ask op next ih =>
    obtain ⟨h,ht,hall⟩ := ih (answer op)
    exact ⟨⟨op,answer op⟩ :: h,.ask _ ht,List.forall_mem_cons.2 ⟨rfl,hall⟩⟩

end Eval

end Program

/-- A program that conforms to an automaton conforms, once its requests are handled, to any
automaton in which the handling of a request comes down to a step of the first. -/
theorem Conforms.interpret {M : Machine S κ ε} {N : Machine T κ' ε'} (inside : M.State → N.State)
    {handle : (op : S.Op) → Program T (S.Answer op)}
    (hhandle : ∀ (op : S.Op) (s : M.State) (Q : N.State → S.Answer op → Prop),
      M.result s = none → (∀ r, ∃ s', M.Step s ⟨op,r⟩ s' ∧ Q (inside s') r) →
        Conforms N Q (handle op) (inside s))
    {Q : M.State → α → Prop} {p : Program S α} {s : M.State} (hp : Conforms M Q p s) :
    Conforms N (fun t a => ∃ s', t = inside s' ∧ Q s' a) (p.interpret handle) (inside s) := by
  induction p generalizing s with
  | done => exact ⟨s,rfl,hp⟩
  | ask op next ih =>
    change Conforms N _ (handle op >>= fun r => (next r).interpret handle) (inside s)
    refine conforms_bind.2 (hhandle op s _ hp.1 fun r => ?_)
    obtain ⟨s',hs,hnext⟩ := hp.2 r
    exact ⟨s',hs,ih r hnext⟩

namespace Pool
variable {M : Machine S κ α} {W : World S σ} {D : Discipline S κ α σ}
variable {P Q : Pool M σ} {init : σ}

/-- The pools that a scheduler under the discipline can reach from a given one. -/
inductive Leads (W : World S σ) (D : Discipline S κ α σ) (P : Pool M σ) : Pool M σ → Prop
  | refl : Leads W D P P
  | step {Q Q' : Pool M σ} {l : Label S κ} :
      Leads W D P Q → D Q.view l → Step W Q l Q' → Leads W D P Q'

@[elab_as_elim]
theorem Leads.invariant {I : Pool M σ → Prop} (h : Leads W D P Q) (hP : I P)
    (hstep : ∀ Q l Q', Leads W D P Q → I Q → D Q.view l → Step W Q l Q' → I Q') : I Q := by
  induction h with
  | refl => exact hP
  | step hl hd hs ih => exact hstep _ _ _ hl ih hd hs

theorem Path.leads {ls : List (Label S κ)} (h : Path W P ls Q)
    (hD : ∀ V, ∀ l ∈ ls, D V l) : Leads W D P Q := by
  have hfrom : ∀ {P₀}, Leads W D P₀ P → Leads W D P₀ Q := by
    induction h with
    | nil => exact id
    | cons hs _ ih =>
      intro P₀ hlead
      exact ih (fun V l hl => hD V l (List.mem_cons_of_mem _ hl))
        (hlead.step (hD _ _ List.mem_cons_self) hs)
  exact hfrom .refl

theorem Reachable.leads (hr : Reachable M W D init P) :
    Leads W D ⟨init,[]⟩ P := by
  induction hr with
  | init => exact .refl
  | step _ hd hs ih => exact .step ih hd hs

theorem Leads.reachable {D' : Discipline S κ α σ}
    (h : Leads W D P Q) (hD : ∀ V l, D V l → D' V l) (hr : Reachable M W D' init P) :
    Reachable M W D' init Q := by
  induction h with
  | refl => exact hr
  | step _ hd hs ih => exact ih.step (hD _ _ hd) hs

end Pool

end WatchMe.Effects
