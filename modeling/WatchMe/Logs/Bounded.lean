import Mathlib.Algebra.Order.Ring.Int
import Mathlib.Data.List.Forall2

/-! # Bounded logs

A log to which entries are appended and which is pruned now and then: entries outside a window
are dropped, the others are rewritten, and of these the oldest until the rest fits. An entry that
is in the window of every rule and fits together with all that came after it is never dropped.
-/
namespace WatchMe.Logs

variable {α : Type}

/-- What a pruning keeps, and how large the log may be afterwards. -/
structure Rule (α : Type) where
  keep : α → Bool
  limit : Nat

section Prune
variable (size : α → Nat)

def total (log : List α) : Nat := (log.map size).sum

def dropOldest (limit : Nat) : List α → List α
  | [] => []
  | entry :: log => if limit < total size (entry :: log) then dropOldest limit log else entry :: log

def prune (rewrite : α → α) (rule : Rule α) (log : List α) : List α :=
  dropOldest size rule.limit ((log.filter rule.keep).map rewrite)

variable {size}

theorem dropOldest_sublist (limit : Nat) (log : List α) :
    (dropOldest size limit log).Sublist log := by
  induction log with
  | nil => exact List.Sublist.refl _
  | cons entry log ih =>
    rw [dropOldest]
    split
    · exact ih.cons entry
    · exact List.Sublist.refl _

/-- The longest end of the log that fits. -/
structure Longest (size : α → Nat) (limit : Nat) (log kept : List α) : Prop where
  suffix : kept <:+ log
  fits : total size kept ≤ limit
  longest : ∀ back, back <:+ log → total size back ≤ limit → back <:+ kept

theorem dropOldest_longest (limit : Nat) (log : List α) :
    Longest size limit log (dropOldest size limit log) := by
  induction log with
  | nil => exact ⟨List.suffix_rfl,Nat.zero_le _,fun back hback _ => hback⟩
  | cons entry log ih =>
    rw [dropOldest]
    split
    · next hlarge =>
      refine ⟨ih.suffix.trans (List.suffix_cons _ _),ih.fits,fun back hback hfits => ?_⟩
      obtain rfl | hback := List.suffix_cons_iff.1 hback
      · exact absurd hfits (Nat.not_le.2 hlarge)
      · exact ih.longest back hback hfits
    · next hfits => exact ⟨List.suffix_rfl,Nat.not_lt.1 hfits,fun back hback _ => hback⟩

theorem dropOldest_append {limit : Nat} {entry : α} {back : List α}
    (h : total size (entry :: back) ≤ limit) (front : List α) :
    ∃ front', dropOldest size limit (front ++ entry :: back) = front' ++ entry :: back := by
  induction front with
  | nil => exact ⟨[],by rw [List.nil_append,dropOldest,if_neg (Nat.not_lt.2 h)]⟩
  | cons first front ih =>
    rw [List.cons_append,dropOldest]
    split
    · exact ih
    · exact ⟨first :: front,rfl⟩

end Prune

section Survival
variable (size : α → Nat) (rewrite : α → α) (rules : Set (Rule α))

/-- The second entry is the first one, rewritten any number of times. -/
def Rewritten (entry entry' : α) : Prop := ∃ n, entry' = rewrite^[n] entry

/-- The entries of the first log are rewritten entries of the second one, in its order. -/
abbrev Within (log log' : List α) : Prop :=
  List.SublistForall₂ (fun new old => Rewritten rewrite old new) log log'

/-- The entry is in every window, and fits with its successors however these are rewritten. -/
def Live (entry : α) (after : List α) : Prop :=
  ∀ rule ∈ rules, rule.keep entry = true ∧
    ∀ log, Within rewrite log ((entry :: after).filter rule.keep) → total size log ≤ rule.limit

/-- Every live entry of the journal is in the log, with rewritten successors only behind it. -/
def Retains (journal log : List α) : Prop :=
  ∀ before entry after, journal = before ++ entry :: after → Live size rewrite rules entry after →
    ∃ front entry' back, log = front ++ entry' :: back ∧ Rewritten rewrite entry entry' ∧
      Within rewrite back after

variable {size rewrite rules} {entry entry' : α} {journal log log' after : List α}

theorem Rewritten.refl : Rewritten rewrite entry entry := ⟨0,rfl⟩

theorem Rewritten.again (h : Rewritten rewrite entry entry') :
    Rewritten rewrite entry (rewrite entry') := by
  obtain ⟨n,rfl⟩ := h
  exact ⟨n + 1,(Function.iterate_succ_apply' rewrite n entry).symm⟩

theorem Rewritten.keep {keep : α → Bool} (hkeep : ∀ entry, keep (rewrite entry) = keep entry)
    (h : Rewritten rewrite entry entry') : keep entry' = keep entry := by
  obtain ⟨n,rfl⟩ := h
  induction n with
  | zero => rfl
  | succ n ih => rw [Function.iterate_succ_apply',hkeep,ih]

theorem Within.of_sublist (h : Within rewrite log log') (hsub : log'.Sublist after) :
    Within rewrite log after := by
  obtain ⟨mid,hmid,hmid'⟩ := List.sublistForall₂_iff.1 h
  exact List.sublistForall₂_iff.2 ⟨mid,hmid,hmid'.trans hsub⟩

theorem Within.concat (h : Within rewrite log after) (entry : α) :
    Within rewrite (log ++ [entry]) (after ++ [entry]) := by
  obtain ⟨mid,hmid,hsub⟩ := List.sublistForall₂_iff.1 h
  exact List.sublistForall₂_iff.2 ⟨mid ++ [entry],List.rel_append hmid (.cons .refl .nil),
    hsub.append (List.Sublist.refl _)⟩

theorem Within.map (h : Within rewrite log after) : Within rewrite (log.map rewrite) after := by
  induction h with
  | nil => exact .nil
  | cons hhead _ ih => exact .cons hhead.again ih
  | cons_right _ ih => exact .cons_right ih

theorem Within.filter {keep : α → Bool} (hkeep : ∀ entry, keep (rewrite entry) = keep entry)
    (h : Within rewrite log after) : Within rewrite (log.filter keep) (after.filter keep) := by
  induction h with
  | nil => exact .nil
  | @cons new old log after hhead _ ih =>
    have hsame : keep new = keep old := hhead.keep hkeep
    rw [List.filter_cons,List.filter_cons,hsame]
    split
    · exact .cons hhead ih
    · exact ih
  | @cons_right old log after _ ih =>
    rw [List.filter_cons]
    split
    · exact .cons_right ih
    · exact ih

theorem Live.of_concat {last : α} (h : Live size rewrite rules entry (after ++ [last])) :
    Live size rewrite rules entry after := by
  intro rule hrule
  obtain ⟨hkeep,hfits⟩ := h rule hrule
  refine ⟨hkeep,fun log hlog => hfits log (hlog.of_sublist ?_)⟩
  exact ((List.sublist_append_left after [last]).cons_cons entry).filter _

theorem Retains.nil : Retains size rewrite rules [] log := fun _ _ _ h => by simp at h

theorem Retains.mono {rules' : Set (Rule α)} (h : Retains size rewrite rules journal log)
    (hrules : rules ⊆ rules') : Retains size rewrite rules' journal log :=
  fun before entry after hjournal hlive =>
    h before entry after hjournal fun rule hrule => hlive rule (hrules hrule)

theorem Retains.append (h : Retains size rewrite rules journal log) (entry : α) :
    Retains size rewrite rules (journal ++ [entry]) (log ++ [entry]) := by
  intro before live after hjournal hlive
  rcases List.eq_nil_or_concat after with rfl | ⟨after,last,rfl⟩
  · obtain ⟨-,hentry⟩ := List.append_inj' hjournal rfl
    cases hentry
    exact ⟨log,entry,[],rfl,.refl,.nil⟩
  · rw [List.concat_eq_append] at hjournal hlive ⊢
    have hsplit : journal ++ [entry] = (before ++ live :: after) ++ [last] := by
      simpa using hjournal
    obtain ⟨hearlier,hlast⟩ := List.append_inj' hsplit rfl
    cases hlast
    obtain ⟨front,live',back,rfl,hlive',hback⟩ := h before live after hearlier hlive.of_concat
    exact ⟨front,live',back ++ [entry],by simp,hlive',hback.concat entry⟩

theorem Retains.map (h : Retains size rewrite rules journal log) :
    Retains size rewrite rules journal (log.map rewrite) := by
  intro before entry after hjournal hlive
  obtain ⟨front,entry',back,rfl,hentry,hback⟩ := h before entry after hjournal hlive
  exact ⟨front.map rewrite,rewrite entry',back.map rewrite,by simp,hentry.again,hback.map⟩

theorem Retains.prune {rule : Rule α} (h : Retains size rewrite rules journal log)
    (hrule : rule ∈ rules) (hkeep : ∀ entry, rule.keep (rewrite entry) = rule.keep entry) :
    Retains size rewrite rules journal (prune size rewrite rule log) := by
  intro before entry after hjournal hlive
  obtain ⟨front,entry',back,rfl,hentry,hback⟩ := h before entry after hjournal hlive
  obtain ⟨hin,hfits⟩ := hlive rule hrule
  have hkept : rule.keep entry' = true := (hentry.keep hkeep).trans hin
  have hback' : Within rewrite ((back.filter rule.keep).map rewrite) (after.filter rule.keep) :=
    (hback.filter hkeep).map
  have hsize : total size (rewrite entry' :: (back.filter rule.keep).map rewrite) ≤ rule.limit := by
    refine hfits _ ?_
    rw [List.filter_cons_of_pos hin]
    exact .cons hentry.again hback'
  obtain ⟨front',hfront⟩ := dropOldest_append hsize ((front.filter rule.keep).map rewrite)
  refine ⟨front',rewrite entry',(back.filter rule.keep).map rewrite,?_,hentry.again,
    hback'.of_sublist List.filter_sublist⟩
  rw [Logs.prune,← hfront]
  simp [hkept]

end Survival

end WatchMe.Logs
