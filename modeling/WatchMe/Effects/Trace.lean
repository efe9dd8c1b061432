import WatchMe.Effects.Path

/-! # Complete traces of programs

`Traces p h a` says that the answers in `h` lead `p` to the value `a`. It is the
existential side of the semantics: its rules follow the program text, and a trace of a
call becomes a run of its machine and, step by step, a schedule of a pool.
-/
namespace WatchMe.Effects

variable {S : Signature} {α β η ι κ σ : Type}

namespace Program
variable {p : Program S α} {h k l : List S.Event} {a : α} {b : β} {x : ExceptT η (Program S) α}
  {f : α → ExceptT η (Program S) β}

inductive Traces : Program S α → List S.Event → α → Prop
  | done (a : α) : Traces (.done a) [] a
  | ask {op : S.Op} {next : S.Answer op → Program S α} {h : List S.Event} {a : α}
      (r : S.Answer op) : Traces (next r) h a → Traces (.ask op next) (⟨op,r⟩ :: h) a

theorem Traces.ask_inv (op : S.Op) {next : S.Answer op → Program S α}
    (hp : Traces (.ask op next) h a) : ∃ r k, h = ⟨op,r⟩ :: k ∧ Traces (next r) k a := by
  cases hp with
  | ask r hn => exact ⟨r,_,rfl,hn⟩

theorem Traces.done_inv {a b : α} (hp : Traces (.done b : Program S α) h a) : h = [] ∧ a = b := by
  cases hp with
  | done => exact ⟨rfl,rfl⟩

theorem Traces.bind {f : α → Program S β}
    (hp : Traces p h a) (hf : Traces (f a) k b) : Traces (p >>= f) (h ++ k) b := by
  change Traces (p.bind f) (h ++ k) b
  induction hp with
  | done => exact hf
  | ask r _ ih => exact .ask r (ih hf)

theorem Traces.bind_pure (hp : Traces p h a)
    (f : α → β) : Traces (p >>= fun a => pure (f a)) h (f a) := by
  have hdone := hp.bind (f := fun a => (pure (f a) : Program S β)) (.done (f a))
  rwa [List.append_nil] at hdone

theorem Traces.exists (hanswer : ∀ op, Nonempty (S.Answer op)) (p : Program S α) :
    ∃ h a, Traces p h a := by
  induction p with
  | done a => exact ⟨[],a,.done a⟩
  | ask op next ih =>
    obtain ⟨r⟩ := hanswer op
    obtain ⟨h,a,hp⟩ := ih r
    exact ⟨_,a,.ask r hp⟩

theorem Traces.request {op : S.Op} (r : S.Answer op) : Traces (request op) [⟨op,r⟩] r :=
  .ask r (.done r)

theorem Traces.run_bind {b : Except η β} (hx : Traces x.run h (.ok a))
    (hf : Traces (f a).run k b) : Traces (x >>= f).run (h ++ k) b := by
  rw [ExceptT.run_bind]
  exact hx.bind hf

theorem Traces.run_bind_error {e : η} (hx : Traces x.run h (.error e)) :
    Traces (x >>= f).run h (.error e) := by
  rw [ExceptT.run_bind,← List.append_nil h]
  exact hx.bind (.done _)

theorem Traces.run_lift (hp : Traces p h a) :
    Traces (ExceptT.lift p : ExceptT η (Program S) α).run h (.ok a) := by
  exact hp.bind_pure Except.ok

theorem Traces.bind_inv {f : α → Program S β} (hp : Traces (p >>= f) l b) :
    ∃ h k a, l = h ++ k ∧ Traces p h a ∧ Traces (f a) k b := by
  change Traces (p.bind f) l b at hp
  induction p generalizing l with
  | done a => exact ⟨[],l,a,rfl,.done a,hp⟩
  | ask op next ih =>
    obtain ⟨r,k,rfl,hnext⟩ := Traces.ask_inv op hp
    obtain ⟨h,k,a,rfl,hh,hk⟩ := ih r hnext
    exact ⟨_,k,a,rfl,.ask r hh,hk⟩

theorem Traces.run_bind_inv {b : Except η β} (hx : Traces (x >>= f).run l b) :
    (∃ e, b = .error e ∧ Traces x.run l (.error e)) ∨
      ∃ h k a, l = h ++ k ∧ Traces x.run h (.ok a) ∧ Traces (f a).run k b := by
  rw [ExceptT.run_bind] at hx
  obtain ⟨h,k,result,rfl,hh,hk⟩ := hx.bind_inv
  cases result with
  | error e =>
    obtain ⟨rfl,rfl⟩ := Traces.done_inv hk
    exact .inl ⟨e,rfl,by simpa using hh⟩
  | ok a => exact .inr ⟨h,k,a,rfl,hh,hk⟩

theorem Traces.run_bind_ok_inv (hx : Traces (x >>= f).run l (.ok b)) :
    ∃ h k a, l = h ++ k ∧ Traces x.run h (.ok a) ∧ Traces (f a).run k (.ok b) := by
  rcases hx.run_bind_inv with ⟨e,heq,-⟩ | hok
  · cases heq
  · exact hok

theorem Traces.run_request_inv (op : S.Op) {f : S.Answer op → ExceptT η (Program S) β}
    {b : Except η β}
    (hx : Traces ((ExceptT.lift (Program.request op) : ExceptT η (Program S) (S.Answer op)) >>= f).run l b) :
    ∃ r k, l = ⟨op,r⟩ :: k ∧ Traces (f r).run k b := by
  obtain ⟨r,k,rfl,hnext⟩ := Traces.ask_inv op hx
  exact ⟨r,k,rfl,hnext⟩

theorem Traces.step (body : ι → Program S (ι ⊕ α)) {p : Program S (ι ⊕ α)} {e : S.Event}
    {x : ι ⊕ α} (hp : Traces p (e :: h) x) :
    ∃ q, Step body (p.unroll body) e (q.unroll body) ∧ Traces q h x := by
  cases hp with
  | ask r hn => exact ⟨_,.answer _ _ r,hn⟩

theorem Traces.runs {body : ι → Program S (ι ⊕ α)} {main : κ → Program S (ι ⊕ α)} {k : κ}
    {h₀ h : List S.Event} {p : Program S (ι ⊕ α)} {x : ι ⊕ α}
    (hr : (machine body main).Runs k h₀ (p.unroll body)) (hp : Traces p h x) :
    (machine body main).Runs k (h₀ ++ h) ((Program.done x).unroll body) := by
  induction h generalizing h₀ p with
  | nil =>
    cases hp with
    | done => simpa using hr
  | cons e h ih =>
    obtain ⟨q,hs,hq⟩ := hp.step body
    have hrest := ih (hr.snoc hs) hq
    rwa [List.append_assoc] at hrest

theorem Traces.runs_main (body : ι → Program S (ι ⊕ α)) {main : κ → Program S (ι ⊕ α)} {k : κ}
    {x : ι ⊕ α} (hp : Traces (main k) h x) :
    (machine body main).Runs k h ((Program.done x).unroll body) := by
  have hstart : (machine body main).Runs k [] ((main k).unroll body) := .start
  exact hp.runs hstart

end Program

/-- The shared states through which a world may answer a list of requests. -/
inductive World.Answered (W : World S σ) : σ → List S.Event → σ → Prop
  | nil (s : σ) : Answered W s [] s
  | cons {s s' s'' : σ} {e : S.Event} {h : List S.Event} :
      W.Answers s e s' → Answered W s' h s'' → Answered W s (e :: h) s''

theorem World.Answered.append {W : World S σ} {s s' s'' : σ} {h k : List S.Event}
    (hh : W.Answered s h s') (hk : W.Answered s' k s'') : W.Answered s (h ++ k) s'' := by
  induction hh with
  | nil => exact hk
  | cons hfirst _ ih => exact .cons hfirst (ih hk)

section Answered
variable {W : World S σ} {s s' : σ}

theorem World.Answered.nil_inv (h : W.Answered s [] s') : s' = s := by
  cases h with
  | nil => rfl

theorem World.Answered.cons_inv {e : S.Event} {h : List S.Event} (hw : W.Answered s (e :: h) s') :
    ∃ t, W.Answers s e t ∧ W.Answered t h s' := by
  cases hw with
  | cons hfirst hrest => exact ⟨_,hfirst,hrest⟩

theorem World.Answered.append_inv {h k : List S.Event} (hw : W.Answered s (h ++ k) s') :
    ∃ t, W.Answered s h t ∧ W.Answered t k s' := by
  induction h generalizing s with
  | nil => exact ⟨s,.nil s,hw⟩
  | cons e h ih =>
    obtain ⟨t,hfirst,hrest⟩ := hw.cons_inv
    obtain ⟨u,hh,hk⟩ := ih hrest
    exact ⟨u,.cons hfirst hh,hk⟩

end Answered

section Follow
open Program
variable {body : ι → Program S (ι ⊕ α)} {main : κ → Program S (ι ⊕ α)} {W : World S σ}
  {shared : σ} {P : Pool (machine body main) σ} {i : Nat}
  {t : Thread (machine body main)} {p : Program S (ι ⊕ α)} {x : ι ⊕ α}

theorem Pool.Step.follow {e : S.Event} {k : List S.Event} (ht : P.threads[i]? = some t)
    (ha : t.alive = true) (hstate : t.state = p.unroll body) (hp : Traces p (e :: k) x)
    (hw : W.Answers P.shared e shared) :
    ∃ (q : Program S (ι ⊕ α)) (P' : Pool (machine body main) σ), Traces q k x ∧
      P' = ⟨shared,P.threads.set i ⟨t.call,q.unroll body,t.history ++ [e],true⟩⟩ ∧
      Step W P (.act i e) P' := by
  obtain ⟨q,hs,hq⟩ := hp.step body
  rw [← hstate] at hs
  have hstep := Step.act (W := W) P i t e _ _ ht ha hs hw
  refine ⟨q,_,hq,?_,hstep⟩
  rw [← ha]
  rfl

theorem Pool.Path.follow {h k : List S.Event} (ht : P.threads[i]? = some t)
    (ha : t.alive = true) (hstate : t.state = p.unroll body) (hp : Traces p (h ++ k) x)
    (hw : W.Answered P.shared h shared) :
    ∃ q : Program S (ι ⊕ α), Traces q k x ∧ Path W P (h.map (Label.act i))
      ⟨shared,P.threads.set i ⟨t.call,q.unroll body,t.history ++ h,true⟩⟩ := by
  induction h generalizing P t p with
  | nil =>
    cases hw with
    | nil =>
      refine ⟨p,hp,?_⟩
      have hset : P.threads.set i ⟨t.call,p.unroll body,t.history ++ [],true⟩ = P.threads := by
        obtain ⟨hlt,rfl⟩ := List.getElem?_eq_some_iff.1 ht
        rw [List.append_nil,← ha,← hstate]
        exact List.set_getElem_self hlt
      rw [hset]
      exact .nil P
  | cons e h ih =>
    cases hw with
    | cons hfirst hrest =>
      have hlt : i < P.threads.length := (List.getElem?_eq_some_iff.1 ht).1
      obtain ⟨q,P',hq,heq,hs⟩ := Step.follow ht ha hstate hp hfirst
      have ht' : P'.threads[i]? = some ⟨t.call,q.unroll body,t.history ++ [e],true⟩ := by
        rw [heq]
        exact List.getElem?_set_self hlt
      obtain ⟨q',hq',hpath⟩ := ih ht' rfl rfl hq (heq ▸ hrest)
      refine ⟨q',hq',.cons hs ?_⟩
      subst heq
      simpa only [List.set_set,List.append_assoc,List.singleton_append] using hpath

theorem Pool.Path.call {k : κ} {h l : List S.Event} (hp : Traces (main k) (h ++ l) x)
    (hw : W.Answered P.shared h shared) :
    ∃ (q : Program S (ι ⊕ α)) (P' : Pool (machine body main) σ), Traces q l x ∧
      P' = ⟨shared,P.threads ++ [⟨k,q.unroll body,h,true⟩]⟩ ∧
      Path W P (.spawn k :: h.map (Label.act P.threads.length)) P' := by
  have ht : (P.threads ++ [Thread.spawned (machine body main) k])[P.threads.length]? =
      some (Thread.spawned (machine body main) k) := by simp
  obtain ⟨q,hq,hpath⟩ := Path.follow (P := ⟨P.shared,P.threads ++ [Thread.spawned _ k]⟩) ht rfl rfl
    hp hw
  refine ⟨q,_,hq,rfl,.cons (.spawn P k) ?_⟩
  simpa [Thread.spawned] using hpath

end Follow

end WatchMe.Effects
