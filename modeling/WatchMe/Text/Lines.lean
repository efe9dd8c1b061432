import Mathlib.Data.List.Basic
import Mathlib.Data.List.DropRight

/-! # Records on lines

The lines of a file as a buffered reader returns them, over any alphabet with a mark that ends a
line and one that is taken off before it. What was written as whole lines is read as these lines.
A reader that comes back while a text grows keeps the line that has not ended.
-/
namespace WatchMe.Text

variable {α : Type} [DecidableEq α] (newline ret : α)

/-- The carriage return of a line that ends with one. -/
def withoutReturn (line : List α) : List α :=
  if line.getLast? = some ret then line.dropLast else line

/-- The lines of the rest, after the start of the present one. The last line needs no end. -/
def linesFrom (current : List α) : List α → List (List α)
  | [] => if current = [] then [] else [current]
  | c :: text =>
    if c = newline then withoutReturn ret current :: linesFrom [] text
    else linesFrom (current ++ [c]) text

def bufLines (text : List α) : List (List α) := linesFrom newline ret [] text

def terminated (lines : List (List α)) : List α := lines.flatMap fun line => line ++ [newline]

/-- A text that is read back as one line. -/
def SingleLine (line : List α) : Prop := newline ∉ line ∧ line.getLast? ≠ some ret

variable {newline ret}

theorem linesFrom_append {line : List α} (hline : newline ∉ line) (current rest : List α) :
    linesFrom newline ret current (line ++ rest) =
      linesFrom newline ret (current ++ line) rest := by
  induction line generalizing current with
  | nil => simp
  | cons c line ih =>
    have hc : c ≠ newline := fun h => hline (h ▸ List.mem_cons_self)
    have hrest : newline ∉ line := fun h => hline (List.mem_cons_of_mem c h)
    simp only [List.cons_append,linesFrom,if_neg hc,ih hrest]
    simp

theorem bufLines_terminated {lines : List (List α)}
    (h : ∀ line ∈ lines, SingleLine newline ret line) :
    bufLines newline ret (terminated newline lines) = lines := by
  induction lines with
  | nil => rfl
  | cons line lines ih =>
    obtain ⟨⟨hline,hlast⟩,hlines⟩ := List.forall_mem_cons.1 h
    have hrest : bufLines newline ret (terminated newline lines) = lines := ih hlines
    simp only [bufLines,terminated,List.flatMap_cons,List.append_assoc] at hrest ⊢
    rw [linesFrom_append hline]
    simp only [List.nil_append,List.singleton_append,linesFrom,if_true,withoutReturn,
      if_neg hlast,hrest]

variable (newline)

/-- What stands behind the last end of a line. -/
def fragment (text : List α) : List α := text.rtakeWhile (· ≠ newline)

/-- The lines that have ended, without the empty ones. -/
def completeLines (text : List α) : List (List α) :=
  ((text.rdropWhile (· ≠ newline)).splitOn newline).filter (· ≠ [])

variable {newline}

theorem fragment_of_notMem {text : List α} (h : newline ∉ text) :
    completeLines newline text = [] ∧ fragment newline text = text := by
  have hall : ∀ c ∈ text, decide (c ≠ newline) = true := fun c hc =>
    decide_eq_true fun heq => h (heq ▸ hc)
  refine ⟨?_,List.rtakeWhile_eq_self_iff.2 hall⟩
  rw [completeLines,List.rdropWhile_eq_nil_iff.2 hall]
  rfl

theorem notMem_fragment (text : List α) : newline ∉ fragment newline text := fun h => by
  simpa using List.mem_rtakeWhile_imp h

theorem completeLines_last (before : List α) {rest : List α} (h : newline ∉ rest) :
    completeLines newline (before ++ newline :: rest) =
        (before.splitOn newline).filter (· ≠ []) ∧
      fragment newline (before ++ newline :: rest) = rest := by
  have hall : ∀ c ∈ rest.reverse, decide (c ≠ newline) = true := fun c hc =>
    decide_eq_true fun heq => h (heq ▸ List.mem_reverse.1 hc)
  have hreverse : (before ++ newline :: rest).reverse =
      rest.reverse ++ newline :: before.reverse := by simp
  constructor
  · rw [completeLines,List.rdropWhile,hreverse,List.dropWhile_append_of_pos hall,
      List.dropWhile_cons_of_neg (by simp),List.reverse_cons,List.reverse_reverse,List.splitOn,
      List.splitOnP_append_cons _ _ (by simp)]
    simp [List.splitOn]
  · rw [fragment,List.rtakeWhile,hreverse,List.takeWhile_append_of_pos hall,
      List.takeWhile_cons_of_neg (by simp),List.append_nil,List.reverse_reverse]

omit [DecidableEq α] in
theorem exists_last {text : List α} (h : newline ∈ text) :
    ∃ before rest, text = before ++ newline :: rest ∧ newline ∉ rest := by
  obtain ⟨rest,before,heq,hrest⟩ := List.eq_append_cons_of_mem (List.mem_reverse.2 h)
  refine ⟨before.reverse,rest.reverse,?_,fun h => hrest (List.mem_reverse.1 h)⟩
  simpa using congrArg List.reverse heq

theorem completeLines_append (newline : α) (text more : List α) :
    completeLines newline (text ++ more) =
        completeLines newline text ++ completeLines newline (fragment newline text ++ more) ∧
      fragment newline (text ++ more) = fragment newline (fragment newline text ++ more) := by
  by_cases htext : newline ∈ text
  · obtain ⟨before,rest,rfl,hrest⟩ := exists_last htext
    obtain ⟨hlines,hfragment⟩ := completeLines_last before hrest
    rw [hlines,hfragment]
    by_cases hmore : newline ∈ more
    · obtain ⟨before',rest',rfl,hrest'⟩ := exists_last hmore
      have hwhole := completeLines_last (before ++ newline :: (rest ++ before')) hrest'
      have hpart := completeLines_last (rest ++ before') hrest'
      simp only [List.append_assoc,List.cons_append] at hwhole hpart ⊢
      rw [hwhole.1,hwhole.2,hpart.1,hpart.2,List.splitOn,List.splitOnP_append_cons _ _ (by simp),
        List.filter_append]
      exact ⟨rfl,rfl⟩
    · have hmerged : newline ∉ rest ++ more := by simp [hrest,hmore]
      have hwhole := completeLines_last before hmerged
      rw [List.append_assoc,List.cons_append,hwhole.1,hwhole.2,(fragment_of_notMem hmerged).1,
        (fragment_of_notMem hmerged).2,List.append_nil]
      exact ⟨rfl,rfl⟩
  · rw [(fragment_of_notMem htext).1,(fragment_of_notMem htext).2]
    exact ⟨rfl,rfl⟩

theorem completeLines_first {line : List α} (h : newline ∉ line) (more : List α) :
    completeLines newline (line ++ newline :: more) =
        [line].filter (· ≠ []) ++ completeLines newline more ∧
      fragment newline (line ++ newline :: more) = fragment newline more := by
  have hline := completeLines_last line (List.not_mem_nil : newline ∉ [])
  have hmore := completeLines_append newline (line ++ [newline]) more
  have hsingle : line.splitOn newline = [line] := List.splitOnP_eq_singleton fun c hc => by
    simpa using ne_of_mem_of_not_mem hc h
  rw [hline.1,hline.2,hsingle] at hmore
  simpa using hmore

/-- A reader may have cut off the start of the last line. The lines it reads of what follows are
those of the text, except for the first. -/
theorem completeLines_cut {cut kept : List α} (h : newline ∉ cut ++ kept) (more : List α) :
    (completeLines newline (kept ++ more) = [] ∧ completeLines newline (cut ++ kept ++ more) = [] ∧
        fragment newline (kept ++ more) = kept ++ more ∧
        fragment newline (cut ++ kept ++ more) = cut ++ (kept ++ more)) ∨
      ∃ rest after, more = rest ++ newline :: after ∧
        completeLines newline (kept ++ more) =
          [kept ++ rest].filter (· ≠ []) ++ completeLines newline after ∧
        completeLines newline (cut ++ kept ++ more) =
          [cut ++ kept ++ rest].filter (· ≠ []) ++ completeLines newline after ∧
        fragment newline (kept ++ more) = fragment newline (cut ++ kept ++ more) := by
  by_cases hmore : newline ∈ more
  · obtain ⟨rest,after,rfl,hrest⟩ := List.eq_append_cons_of_mem hmore
    have hkept : newline ∉ kept ++ rest := by simp_all
    have hwhole : newline ∉ cut ++ kept ++ rest := by simp_all
    have hread := completeLines_first hkept after
    have hfile := completeLines_first hwhole after
    simp only [List.append_assoc] at hread hfile ⊢
    exact .inr ⟨rest,after,rfl,hread.1,hfile.1,hread.2.trans hfile.2.symm⟩
  · have hkept : newline ∉ kept ++ more := by simp_all
    have hwhole : newline ∉ cut ++ kept ++ more := by simp_all
    exact .inl ⟨(fragment_of_notMem hkept).1,(fragment_of_notMem hwhole).1,
      (fragment_of_notMem hkept).2,(fragment_of_notMem hwhole).2.trans (List.append_assoc _ _ _)⟩

end WatchMe.Text
