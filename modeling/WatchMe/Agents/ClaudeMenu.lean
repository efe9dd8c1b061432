import WatchMe.Agents.Recipes
import WatchMe.Mux.Composer

/-! # The wait menu of Claude

The menu of a limit is found on the screen, and the row that waits is selected by keys. Rows
whose label is empty or too long are not counted, although the cursor stops at them.
-/
namespace WatchMe
open Text

structure WaitMenu where
  moves : Int
  deriving DecidableEq, Repr

namespace ClaudeMenu

def waitLabel : String := "stop and wait for limit to reset"

def splitWhitespace (text : List Char) : List (List Char) :=
  (text.splitOnP isWhiteSpace).filter (· ≠ [])

def normalizeLabel (value : List Char) : List Char :=
  ((splitWhitespace value).intersperse [' ']).flatten.map Char.toLower

def isResetSuffix (suffix : List Char) : Bool :=
  let suffix := normalizeLabel suffix
  let wrapped := ((suffix.dropPrefix? ['(']).bind (·.dropSuffix? [')'])).or
    ((suffix.dropPrefix? ['-']).or (suffix.dropPrefix? ['–']))
  wrapped.any fun value => !value.isEmpty && decide ((String.ofList value).utf8ByteSize ≤ 160)
    && occurs "reset" value
    && value.all fun c => c.isAlphanum || " :,+-()/".toList.contains c

def isWaitLabel (label : List Char) : Bool :=
  let label := normalizeLabel label
  label == waitLabel.toList
    || (label.dropPrefix? waitLabel.toList).any fun suffix => isResetSuffix (trimChars suffix)

def looksQuoted (text : List Char) : Bool :=
  let lower := text.map Char.toLower
  occurs "documentation below" lower || occurs "untrusted tool output" lower
    || (textLines lower).any fun line => (trimStart line).head? == some '"'

structure OptionRow where
  cursor : Bool
  label : List Char

def numberedRow (line : List Char) : Option OptionRow := do
  let trimmed := trimChars line
  let (cursor,rest) := match (trimmed.dropPrefix? ['>']).or (trimmed.dropPrefix? ['›']) with
    | some rest => (true,trimStart rest)
    | none => (false,trimmed)
  let (number,label) ← splitOnce '.' rest
  if number.isEmpty || !number.all Char.isDigit then none else some ⟨cursor,normalizeLabel label⟩

def OptionRow.counted (row : OptionRow) : Bool :=
  !row.label.isEmpty && decide ((String.ofList row.label).utf8ByteSize ≤ 200)

def menuRow (line : List Char) : Option OptionRow := (numberedRow line).filter OptionRow.counted

/-- One line of the screen. A reset hint that is wrapped belongs to the row before it. -/
def pushLine (rows : List OptionRow) (line : List Char) : List OptionRow :=
  match menuRow line with
  | some row => rows ++ [row]
  | none =>
    match rows.getLast? with
    | none => rows
    | some previous =>
      if line.head?.any isWhiteSpace && isResetSuffix (trimChars line) then
        rows.dropLast ++ [{ previous with
          label := previous.label ++ ' ' :: normalizeLabel (trimChars line) }]
      else rows

def menuRows (screen : List Char) : Option (List OptionRow) :=
  match (textLines screen).foldl pushLine [] with
  | [] => none
  | rows => some rows

def labelledWaitMenu (first second : String) : Option WaitMenu := do
  if first ≠ second ∨ 16384 < first.utf8ByteSize ∨ looksQuoted first.toList then none
  else
    let rows ← menuRows first.toList
    let target ← rows.findIdx? fun row => isWaitLabel row.label
    let cursor ← rows.findIdx? (·.cursor)
    if rows.countP (fun row => isWaitLabel row.label) ≠ 1 ∨ rows.countP (·.cursor) ≠ 1 then none
    else return ⟨(← ClaudeRecipes.toI8 target) - (← ClaudeRecipes.toI8 cursor)⟩

def menuKeys (menu : WaitMenu) : List String := ClaudeRecipes.menuKeys menu.moves

def displayedRows (screen : String) : List OptionRow :=
  (textLines screen.toList).filterMap numberedRow

def press : List String → Int → Option Int
  | "UP" :: keys, position => press keys (position - 1)
  | "DOWN" :: keys, position => press keys (position + 1)
  | "ENTER" :: _, position => some position
  | _, _ => none

theorem press_replicate {key : String} {d : Int}
    (hkey : ∀ keys p, press (key :: keys) p = press keys (p + d)) (n : Nat) (p : Int) :
    press (List.replicate n key ++ ["ENTER"]) p = some (p + n * d) := by
  induction n generalizing p with
  | zero => simp [press]
  | succ n ih =>
    rw [List.replicate_succ,List.cons_append,hkey,ih]
    congr 1
    have hstep : ((n + 1 : Nat) : Int) * d = n * d + d := by
      rw [Int.natCast_succ,Int.add_mul,Int.one_mul]
    omega

theorem press_menuKeys (menu : WaitMenu) (p : Int) :
    press (menuKeys menu) p = some (p + menu.moves) := by
  unfold menuKeys ClaudeRecipes.menuKeys
  split
  · rw [press_replicate (d := -1) (fun _ _ => rfl)]
    congr 1
    omega
  · rw [press_replicate (d := 1) (fun _ _ => rfl)]
    congr 1
    omega

section Rank
variable {α : Type} {p : α → Bool} {l : List α} {i j : Nat} {a b : α}

/-- The number of elements of the kind before a position. -/
def rank (p : α → Bool) (l : List α) (i : Nat) : Nat := (l.take i).countP p

theorem rank_succ (hi : l[i]? = some a) (ha : p a = true) : rank p l (i + 1) = rank p l i + 1 := by
  rw [rank,List.take_add_one,hi,List.countP_append]
  simp [rank,ha]

theorem rank_mono (h : i ≤ j) : rank p l i ≤ rank p l j :=
  (List.take_sublist_take_left h).countP_le

theorem rank_inj (hi : l[i]? = some a) (ha : p a = true) (hj : l[j]? = some b) (hb : p b = true)
    (h : rank p l i = rank p l j) : i = j := by
  rcases Nat.lt_trichotomy i j with hij | hij | hij
  · have := rank_mono (p := p) (l := l) hij
    rw [Nat.succ_eq_add_one,rank_succ hi ha] at this
    omega
  · exact hij
  · have := rank_mono (p := p) (l := l) hij
    rw [Nat.succ_eq_add_one,rank_succ hj hb] at this
    omega

theorem rank_unique (hcount : l.countP p = 1) (hi : l[i]? = some a) (ha : p a = true)
    (hj : l[j]? = some b) (hb : p b = true) : i = j := by
  have hfirst : ∀ {k c}, l[k]? = some c → p c = true → rank p l k = 0 := by
    intro k c hk hc
    have hle : rank p l (k + 1) ≤ l.countP p := (List.take_sublist _ l).countP_le
    rw [rank_succ hk hc] at hle
    omega
  exact rank_inj hi ha hj hb ((hfirst hi ha).trans (hfirst hj hb).symm)

theorem getElem?_filter_iff {k : Nat} : (l.filter p)[k]? = some a ↔
    ∃ i, l[i]? = some a ∧ p a = true ∧ rank p l i = k := by
  induction l generalizing k with
  | nil => simp
  | cons x l ih =>
    have hrank : ∀ i, rank p (x :: l) (i + 1) = rank p l i + if p x then 1 else 0 := by
      simp [rank,List.countP_cons]
    constructor
    · intro h
      rw [List.filter_cons] at h
      split at h
      · rename_i hx
        cases k with
        | zero =>
          obtain rfl : x = a := by simpa using h
          exact ⟨0,rfl,hx,rfl⟩
        | succ =>
          obtain ⟨i,hi,ha,rfl⟩ := ih.1 h
          exact ⟨i + 1,hi,ha,by rw [hrank,if_pos hx]⟩
      · rename_i hx
        obtain ⟨i,hi,ha,rfl⟩ := ih.1 h
        exact ⟨i + 1,hi,ha,by rw [hrank,if_neg hx]; rfl⟩
    · rintro ⟨i,hi,ha,rfl⟩
      cases i with
      | zero =>
        obtain rfl : x = a := by simpa using hi
        simp [ha,rank]
      | succ i =>
        have hfound := ih.2 ⟨i,hi,ha,rfl⟩
        rw [hrank,List.filter_cons]
        split
        · rwa [List.getElem?_cons_succ]
        · exact hfound

theorem rank_add_iff {n : Nat} (h : i + n ≤ l.length) : rank p l (i + n) = rank p l i + n ↔
    ∀ k a, i ≤ k → k < i + n → l[k]? = some a → p a = true := by
  have hlength : ((l.drop i).take n).length = n := by
    rw [List.length_take,List.length_drop]
    omega
  have hsplit : rank p l (i + n) = rank p l i + ((l.drop i).take n).countP p := by
    rw [rank,List.take_add,List.countP_append,rank]
  have hall : ((l.drop i).take n).countP p = n ↔ ∀ a ∈ (l.drop i).take n, p a = true := by
    rw [← List.countP_eq_length,hlength]
  rw [hsplit,Nat.add_left_cancel_iff,hall]
  constructor
  · intro hp k a hik hkn hk
    refine hp a (List.mem_iff_getElem?.2 ⟨k - i,?_⟩)
    rw [List.getElem?_take,if_pos (by omega),List.getElem?_drop,Nat.add_sub_cancel' hik]
    exact hk
  · intro hp a ha
    obtain ⟨k,hk⟩ := List.mem_iff_getElem?.1 ha
    rw [List.getElem?_take] at hk
    split at hk
    · rw [List.getElem?_drop] at hk
      exact hp (i + k) a (by omega) (by omega) hk
    · cases hk

theorem rank_distance_iff (hi : l[i]? = some a) (ha : p a = true) (hj : l[j]? = some b)
    (hb : p b = true) : (i : Int) + (rank p l j - rank p l i) = j ↔
      ∀ k c, (i ≤ k ∧ k ≤ j ∨ j ≤ k ∧ k ≤ i) → l[k]? = some c → p c = true := by
  have hforward : ∀ {i j : Nat} {b : α}, i ≤ j → l[j]? = some b → p b = true →
      (rank p l j = rank p l i + (j - i) ↔
        ∀ k c, i ≤ k → k ≤ j → l[k]? = some c → p c = true) := by
    intro i j b hij hj hb
    have hlt := (List.getElem?_eq_some_iff.1 hj).1
    have hadd := rank_add_iff (p := p) (l := l) (i := i) (n := j - i) (by omega)
    rw [Nat.add_sub_cancel' hij] at hadd
    rw [hadd]
    refine ⟨fun h k c hik hkj hk => ?_,fun h k c hik hkj hk => h k c hik hkj.le hk⟩
    rcases Nat.lt_or_eq_of_le hkj with hlt | rfl
    · exact h k c hik hlt hk
    · obtain rfl := Option.some.inj (hj.symm.trans hk)
      exact hb
  rcases Nat.le_total i j with hij | hij
  · have hranks := rank_mono (p := p) (l := l) hij
    rw [show (i : Int) + (rank p l j - rank p l i) = j ↔ rank p l j = rank p l i + (j - i) by omega,
      hforward hij hj hb]
    refine ⟨fun h k c hk => h k c ?_ ?_,fun h k c hik hkj => h k c (.inl ⟨hik,hkj⟩)⟩ <;> omega
  · have hranks := rank_mono (p := p) (l := l) hij
    rw [show (i : Int) + (rank p l j - rank p l i) = j ↔ rank p l i = rank p l j + (i - j) by omega,
      hforward hij hi ha]
    refine ⟨fun h k c hk => h k c ?_ ?_,fun h k c hik hkj => h k c (.inr ⟨hik,hkj⟩)⟩ <;> omega

end Rank

theorem pushLine_cursors (rows : List OptionRow) (line : List Char) :
    (pushLine rows line).map (·.cursor) =
      rows.map (·.cursor) ++ (menuRow line).toList.map (·.cursor) := by
  unfold pushLine
  cases menuRow line with
  | some => simp
  | none =>
    rcases List.eq_nil_or_concat rows with rfl | ⟨before,last,rfl⟩
    · rfl
    · simp only [List.concat_eq_append,List.getLast?_concat,List.dropLast_concat]
      split <;> simp

theorem foldl_pushLine_cursors (lines : List (List Char)) (rows : List OptionRow) :
    (lines.foldl pushLine rows).map (·.cursor) =
      rows.map (·.cursor) ++ (lines.filterMap menuRow).map (·.cursor) := by
  induction lines generalizing rows with
  | nil => simp
  | cons line lines ih =>
    rw [List.foldl_cons,ih,pushLine_cursors,List.append_assoc,List.filterMap_cons]
    cases menuRow line <;> rfl

theorem menuRows_cursors {screen : String} {rows : List OptionRow}
    (h : menuRows screen.toList = some rows) :
    rows.map (·.cursor) = ((displayedRows screen).filter OptionRow.counted).map (·.cursor) := by
  have hfold := foldl_pushLine_cursors (textLines screen.toList) []
  have hrows : (textLines screen.toList).foldl pushLine [] = rows := by
    unfold menuRows at h
    split at h <;> cases h
    rfl
  rw [← hrows,hfold,displayedRows,List.filter_filterMap]
  rfl

def IsWaitRow (screen : String) (i : Nat) : Prop :=
  ∃ shown rows row, (displayedRows screen)[i]? = some shown ∧ shown.counted = true ∧
    menuRows screen.toList = some rows ∧
    rows[rank OptionRow.counted (displayedRows screen) i]? = some row ∧
    isWaitLabel row.label = true

def IsMarked (screen : String) (i : Nat) : Prop :=
  ∃ shown, (displayedRows screen)[i]? = some shown ∧ shown.cursor = true

theorem labelledWaitMenu_some {screen : String} {menu : WaitMenu}
    (h : labelledWaitMenu screen screen = some menu) :
    ∃ (rows : List OptionRow) (target cursor : Nat), menuRows screen.toList = some rows ∧
      rows.findIdx? (fun row => isWaitLabel row.label) = some target ∧
      rows.findIdx? (·.cursor) = some cursor ∧
      rows.countP (fun row => isWaitLabel row.label) = 1 ∧ rows.countP (·.cursor) = 1 ∧
      menu.moves = target - cursor := by
  have htoI8 : ∀ {n i : Int}, ClaudeRecipes.toI8 n = some i → i = n := by
    intro n i hi
    unfold ClaudeRecipes.toI8 at hi
    split at hi <;> cases hi
    rfl
  unfold labelledWaitMenu at h
  split at h
  · cases h
  · simp only [Option.bind_eq_bind,Option.bind_eq_some_iff,Option.pure_def] at h
    obtain ⟨rows,hrows,target,htarget,cursor,hcursor,h⟩ := h
    split at h
    · cases h
    · rename_i hcounts
      push Not at hcounts
      obtain ⟨i,hi,h⟩ := Option.bind_eq_some_iff.1 h
      obtain ⟨j,hj,h⟩ := Option.bind_eq_some_iff.1 h
      cases h
      exact ⟨rows,target,cursor,hrows,htarget,hcursor,hcounts.1,hcounts.2,by
        rw [htoI8 hi,htoI8 hj]⟩

section Rows
variable {screen : String} {rows : List OptionRow} {k i : Nat} {row shown : OptionRow}

theorem menuRows_shown (hrows : menuRows screen.toList = some rows) (hk : rows[k]? = some row) :
    ∃ i shown, (displayedRows screen)[i]? = some shown ∧ shown.counted = true ∧
      shown.cursor = row.cursor ∧ rank OptionRow.counted (displayedRows screen) i = k := by
  have hmap := congrArg (·[k]?) (menuRows_cursors hrows)
  simp only [List.getElem?_map,hk,Option.map_some] at hmap
  obtain ⟨shown,hget,hsame⟩ := Option.map_eq_some_iff.1 hmap.symm
  obtain ⟨i,hi,hcounted,hrank⟩ := getElem?_filter_iff.1 hget
  exact ⟨i,shown,hi,hcounted,hsame,hrank⟩

theorem menuRows_counted (hrows : menuRows screen.toList = some rows)
    (hi : (displayedRows screen)[i]? = some shown) (hcounted : shown.counted = true) :
    ∃ row, rows[rank OptionRow.counted (displayedRows screen) i]? = some row ∧
      row.cursor = shown.cursor := by
  have hget := getElem?_filter_iff.2 ⟨i,hi,hcounted,rfl⟩
  have hmap := congrArg (·[rank OptionRow.counted (displayedRows screen) i]?)
    (menuRows_cursors hrows)
  simp only [List.getElem?_map,hget,Option.map_some] at hmap
  exact Option.map_eq_some_iff.1 hmap

theorem found_of_findIdx? {p : OptionRow → Bool} (h : rows.findIdx? p = some k) :
    ∃ row, rows[k]? = some row ∧ p row = true := by
  obtain ⟨hlt,hp,-⟩ := List.findIdx?_eq_some_iff_getElem.1 h
  exact ⟨rows[k],List.getElem?_eq_getElem hlt,hp⟩

end Rows

/-- From the row that is marked, the keys of the menu select the row that waits, exactly if no
row with an empty or overlong label is marked or stands between the two. -/
theorem menu_keys_select_iff {screen : String} {menu : WaitMenu}
    (h : labelledWaitMenu screen screen = some menu) :
    (∀ c : Nat, IsMarked screen c → ∃ t : Nat, press (menuKeys menu) c = some (t : Int) ∧
        IsWaitRow screen t) ↔
      (∀ shown ∈ displayedRows screen, shown.cursor = true → shown.counted = true) ∧
      ∀ c t k shown, IsMarked screen c → IsWaitRow screen t →
        (c ≤ k ∧ k ≤ t ∨ t ≤ k ∧ k ≤ c) → (displayedRows screen)[k]? = some shown →
        shown.counted = true := by
  obtain ⟨rows,target,cursor,hrows,htarget,hcursor,honce,hmark,hmoves⟩ := labelledWaitMenu_some h
  obtain ⟨marked,hmarked,hcur⟩ := found_of_findIdx? hcursor
  obtain ⟨waiting,hwaiting,hlabel⟩ := found_of_findIdx? htarget
  obtain ⟨c₀,shown,hc₀,hcounted,hsame,rfl⟩ := menuRows_shown hrows hmarked
  obtain ⟨t₀,shown',ht₀,hcounted',-,rfl⟩ := menuRows_shown hrows hwaiting
  have hmark₀ : ∀ {c s}, (displayedRows screen)[c]? = some s → s.cursor = true → s.counted = true →
      c = c₀ := by
    intro c s hc hs hs'
    obtain ⟨row,hrow,heq⟩ := menuRows_counted hrows hc hs'
    exact rank_inj hc hs' hc₀ hcounted (rank_unique hmark hrow (heq.trans hs) hmarked hcur)
  have hwait₀ : ∀ {t}, IsWaitRow screen t → t = t₀ := by
    rintro t ⟨s,rows',row,ht,hs,hrows',hrow,hwait⟩
    obtain rfl := Option.some.inj (hrows.symm.trans hrows')
    exact rank_inj ht hs ht₀ hcounted' (rank_unique honce hrow hwait hwaiting hlabel)
  have hdistance := rank_distance_iff hc₀ hcounted ht₀ hcounted'
  rw [← hmoves] at hdistance
  constructor
  · intro hselect
    have hland : ∀ {c}, IsMarked screen c → (c : Int) + menu.moves = t₀ := by
      intro c hc
      obtain ⟨t,hpress,ht⟩ := hselect c hc
      rw [press_menuKeys,hwait₀ ht] at hpress
      exact Option.some.inj hpress
    have hland₀ := hland ⟨shown,hc₀,hsame.trans hcur⟩
    have honly : ∀ {c}, IsMarked screen c → c = c₀ := fun hc => by
      have := hland hc
      omega
    refine ⟨fun s hmem hs => ?_,fun c t k s hc ht hk hget => ?_⟩
    · obtain ⟨c,hc⟩ := List.mem_iff_getElem?.1 hmem
      rw [honly ⟨s,hc,hs⟩] at hc
      rwa [Option.some.inj (hc.symm.trans hc₀)]
    · rw [honly hc,hwait₀ ht] at hk
      exact hdistance.1 hland₀ k s hk hget
  · rintro ⟨hall,hbetween⟩ c ⟨s,hc,hs⟩
    obtain rfl := hmark₀ hc hs (hall s (List.mem_of_getElem? hc) hs)
    have hwait : IsWaitRow screen t₀ := ⟨shown',rows,waiting,ht₀,hcounted',hrows,hwaiting,hlabel⟩
    refine ⟨t₀,?_,hwait⟩
    rw [press_menuKeys]
    exact congrArg some (hdistance.2 fun k s' hk => hbetween c t₀ k s' ⟨s,hc,hs⟩ hwait hk)

namespace Sample

def menuScreen : String := "1. Stop and wait for limit to reset\n› 2. Upgrade your plan"

def wrappedScreen : String :=
  "› 1. Ask a teammate\n2.\n   Upgrade your plan\n3. Stop and wait for limit to reset"

end Sample

theorem menu_keys_select_up :
    labelledWaitMenu Sample.menuScreen Sample.menuScreen = some ⟨-1⟩ ∧
      ((∀ c : Nat, IsMarked Sample.menuScreen c → ∃ t : Nat,
          press (menuKeys ⟨-1⟩) c = some (t : Int) ∧ IsWaitRow Sample.menuScreen t) ↔
        (∀ shown ∈ displayedRows Sample.menuScreen, shown.cursor = true → shown.counted = true) ∧
        ∀ c t k shown, IsMarked Sample.menuScreen c → IsWaitRow Sample.menuScreen t →
          (c ≤ k ∧ k ≤ t ∨ t ≤ k ∧ k ≤ c) →
          (displayedRows Sample.menuScreen)[k]? = some shown → shown.counted = true) := by
  have hmenu : labelledWaitMenu Sample.menuScreen Sample.menuScreen = some ⟨-1⟩ := by decide +kernel
  exact ⟨hmenu,menu_keys_select_iff hmenu⟩

theorem menu_keys_upgrade :
    labelledWaitMenu Sample.wrappedScreen Sample.wrappedScreen = some ⟨1⟩ ∧
      IsMarked Sample.wrappedScreen 0 ∧ press (menuKeys ⟨1⟩) 0 = some 1 ∧
      ¬IsWaitRow Sample.wrappedScreen 1 ∧ IsWaitRow Sample.wrappedScreen 2 := by
  have hshown : (displayedRows Sample.wrappedScreen)[1]?.any (fun row => !row.counted) = true := by
    decide +kernel
  have hmarked : (displayedRows Sample.wrappedScreen)[0]?.any (·.cursor) = true := by
    decide +kernel
  have hwaiting : (displayedRows Sample.wrappedScreen)[2]?.any OptionRow.counted = true := by
    decide +kernel
  have hlabel : ((menuRows Sample.wrappedScreen.toList).bind
      (·[rank OptionRow.counted (displayedRows Sample.wrappedScreen) 2]?)).any
        (fun row => isWaitLabel row.label) = true := by decide +kernel
  obtain ⟨marked,hget,hcur⟩ := (Option.any_eq_true _ _).1 hmarked
  obtain ⟨waiting,hget',hcounted⟩ := (Option.any_eq_true _ _).1 hwaiting
  obtain ⟨row,hbind,hwait⟩ := (Option.any_eq_true _ _).1 hlabel
  obtain ⟨rows,hrows,hrow⟩ := Option.bind_eq_some_iff.1 hbind
  have hupgrade : ¬IsWaitRow Sample.wrappedScreen 1 := by
    rintro ⟨shown,-,-,hget,hcounted,-⟩
    rw [hget,Option.any_some,hcounted] at hshown
    cases hshown
  exact ⟨by decide +kernel,⟨marked,hget,hcur⟩,press_menuKeys _ _,hupgrade,
    ⟨waiting,rows,row,hget',hcounted,hrows,hrow,hwait⟩⟩

end ClaudeMenu

end WatchMe
