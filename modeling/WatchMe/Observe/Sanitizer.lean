import WatchMe.Text.Utf8

/-! # Terminal text without its controls

`TerminalSanitizer::feed` drops escape sequences and control bytes and bounds what is left. Its
automaton completes one character at a time, whatever the bounds are; the bounds then decide which
characters are kept.
-/
namespace WatchMe
open Text

inductive EscapeState where
  | text
  | esc
  | csi
  | string
  | stringEnd
  deriving DecidableEq

structure TerminalSanitizer where
  state : EscapeState
  utf8Pending : List UInt8
  deriving DecidableEq

def utf8SequenceLen (lead : UInt8) : Nat :=
  if 0xc2 ≤ lead ∧ lead ≤ 0xdf then 2
  else if 0xe0 ≤ lead ∧ lead ≤ 0xef then 3
  else if 0xf0 ≤ lead ∧ lead ≤ 0xf4 then 4
  else 1

def isBidi (c : Char) : Bool :=
  (0x202a ≤ c.toNat && c.toNat ≤ 0x202e) || (0x2066 ≤ c.toNat && c.toNat ≤ 0x2069)

namespace TerminalSanitizer

def default : TerminalSanitizer := ⟨.text,[]⟩

structure Loop where
  sanitizer : TerminalSanitizer
  out : List UInt8
  lines : Nat

section Feed
variable (maxBytes maxLines : Nat)

/-- A byte in the state `text`, with no character pending. -/
def feedText (loop : Loop) (byte : UInt8) : Loop :=
  if byte = 0x1b then { loop with sanitizer := ⟨.esc,[]⟩ }
  else if byte = 0x9b then { loop with sanitizer := ⟨.csi,[]⟩ }
  else if byte ∈ [0x90,0x9d,0x98,0x9e,0x9f] then { loop with sanitizer := ⟨.string,[]⟩ }
  else if byte = 0x0a then
    if loop.lines < maxLines ∧ loop.out.length < maxBytes then
      { loop with out := loop.out ++ [byte], lines := loop.lines + 1 }
    else loop
  else if byte = 0x0d then loop
  else if 0x20 ≤ byte ∧ byte ≤ 0x7e then
    if loop.out.length < maxBytes then { loop with out := loop.out ++ [byte] } else loop
  -- the three ranges of lead bytes
  else if 0xc2 ≤ byte ∧ byte ≤ 0xf4 then { loop with sanitizer := ⟨.text,[byte]⟩ }
  else loop

def escapeNext (state : EscapeState) (byte : UInt8) : EscapeState :=
  match state with
  | .text => .text
  | .esc =>
    if byte = 0x5b then .csi
    else if byte ∈ [0x5d,0x50,0x58,0x5e,0x5f] then .string
    else .text
  | .csi => if 0x40 ≤ byte ∧ byte ≤ 0x7e then .text else .csi
  | .string => if byte = 0x07 then .text else if byte = 0x1b then .stringEnd else .string
  | .stringEnd => if byte = 0x5c then .text else .string

def feedByte (loop : Loop) (byte : UInt8) : Loop :=
  match loop.sanitizer with
  | ⟨.text,[]⟩ => feedText maxBytes maxLines loop byte
  | ⟨.text,lead :: tail⟩ =>
    if 0x80 ≤ byte ∧ byte ≤ 0xbf then
      let pending := lead :: tail ++ [byte]
      if pending.length = utf8SequenceLen lead then
        { loop with
          sanitizer := default
          out := if (fromUtf8 pending).isOk ∧ loop.out.length + pending.length ≤ maxBytes then
              loop.out ++ pending
            else loop.out }
      else { loop with sanitizer := ⟨.text,pending⟩ }
    else feedText maxBytes maxLines { loop with sanitizer := default } byte
  | ⟨state,pending⟩ => { loop with sanitizer := ⟨escapeNext state byte,pending⟩ }

def feedLoop (s : TerminalSanitizer) (input : List UInt8) : Loop :=
  input.foldl (feedByte maxBytes maxLines) ⟨s,[],1⟩

def feed (s : TerminalSanitizer) (input : List UInt8) : List Char × TerminalSanitizer :=
  let loop := feedLoop maxBytes maxLines s input
  let sanitized := (lossy loop.out).filter fun c => !isBidi c
  let bytes := encodeUtf8 sanitized
  (if maxBytes < bytes.length then lossy (bytes.take (backToBoundary bytes maxBytes))
    else sanitized,loop.sanitizer)

end Feed

end TerminalSanitizer

def sanitizeTerminal (input : List UInt8) (maxBytes maxLines : Nat) : List Char :=
  (TerminalSanitizer.default.feed maxBytes maxLines input).1

namespace TerminalSanitizer

/-- A byte that is a character of its own, where none is pending. -/
def single (byte : UInt8) : Option Char :=
  if byte = 0x0a ∨ 0x20 ≤ byte ∧ byte ≤ 0x7e then some (Char.ofNat byte.toNat) else none

def stepText (byte : UInt8) : TerminalSanitizer :=
  if byte = 0x1b then ⟨.esc,[]⟩
  else if byte = 0x9b then ⟨.csi,[]⟩
  else if byte ∈ [0x90,0x9d,0x98,0x9e,0x9f] then ⟨.string,[]⟩
  else if 0xc2 ≤ byte ∧ byte ≤ 0xf4 then ⟨.text,[byte]⟩
  else default

/-- The automaton without bounds: the next state, and the character that the byte completes. -/
def step (s : TerminalSanitizer) (byte : UInt8) : TerminalSanitizer × Option Char :=
  match s with
  | ⟨.text,[]⟩ => (stepText byte,single byte)
  | ⟨.text,lead :: tail⟩ =>
    if 0x80 ≤ byte ∧ byte ≤ 0xbf then
      let pending := lead :: tail ++ [byte]
      if pending.length = utf8SequenceLen lead then
        (default,(fromUtf8 pending).toOption.bind List.head?)
      else (⟨.text,pending⟩,none)
    else (stepText byte,single byte)
  | ⟨state,pending⟩ => (⟨escapeNext state byte,pending⟩,none)

def after (s : TerminalSanitizer) (input : List UInt8) : TerminalSanitizer :=
  input.foldl (fun s byte => (s.step byte).1) s

def characters (s : TerminalSanitizer) : List UInt8 → List Char
  | [] => []
  | byte :: input => (s.step byte).2.toList ++ (s.step byte).1.characters input

/-- Whether a character still fits behind those that were kept. -/
def Admits (maxBytes maxLines : Nat) (kept : List Char) (c : Char) : Prop :=
  (encodeUtf8 kept).length + (String.utf8EncodeChar c).length ≤ maxBytes ∧
    (c = '\n' → kept.count '\n' + 1 < maxLines)

instance (maxBytes maxLines : Nat) (kept : List Char) (c : Char) :
    Decidable (Admits maxBytes maxLines kept c) :=
  inferInstanceAs (Decidable (_ ∧ _))

def keep (maxBytes maxLines : Nat) (kept : List Char) (c : Char) : List Char :=
  if Admits maxBytes maxLines kept c then kept ++ [c] else kept

def bounded (maxBytes maxLines : Nat) (text : List Char) : List Char :=
  text.foldl (keep maxBytes maxLines) []

section Bounds
variable {maxBytes maxLines : Nat} {kept text : List Char} {c : Char}

theorem encodeUtf8_snoc (text : List Char) (c : Char) :
    encodeUtf8 (text ++ [c]) = encodeUtf8 text ++ String.utf8EncodeChar c := by
  rw [encodeUtf8_append,encodeUtf8_cons]
  exact congrArg _ (List.append_nil _)

theorem bounded_snoc (text : List Char) (c : Char) : bounded maxBytes maxLines (text ++ [c]) =
    keep maxBytes maxLines (bounded maxBytes maxLines text) c := by
  rw [bounded,List.foldl_append]
  rfl

theorem bounded_induction {I : List Char → Prop} (hnil : I [])
    (text : List Char) (hkeep : ∀ kept, ∀ c ∈ text, I kept → Admits maxBytes maxLines kept c →
      I (kept ++ [c])) : I (bounded maxBytes maxLines text) := by
  induction text using List.reverseRecOn with
  | nil => exact hnil
  | append_singleton text c ih =>
    have hkept := ih fun kept d hd => hkeep kept d (List.mem_append_left _ hd)
    rw [bounded_snoc,keep]
    split_ifs with hc
    · exact hkeep _ c (by simp) hkept hc
    · exact hkept

theorem bounded_subset (text : List Char) : bounded maxBytes maxLines text ⊆ text :=
  bounded_induction (I := (· ⊆ text)) (List.nil_subset _) text fun _ c hc hkept _ =>
    List.append_subset.2 ⟨hkept,by simpa using hc⟩

theorem bounded_length (text : List Char) :
    (encodeUtf8 (bounded maxBytes maxLines text)).length ≤ maxBytes := by
  refine bounded_induction (I := fun kept => (encodeUtf8 kept).length ≤ maxBytes) (Nat.zero_le _)
    text fun kept c _ _ hc => ?_
  rw [encodeUtf8_snoc,List.length_append]
  exact hc.1

theorem bounded_lines (text : List Char) :
    (bounded maxBytes maxLines text).count '\n' + 1 ≤ max 1 maxLines := by
  refine bounded_induction (I := fun kept => kept.count '\n' + 1 ≤ max 1 maxLines)
    (Nat.le_max_left _ _) text fun kept c _ hkept hc => ?_
  by_cases hn : c = '\n'
  · have := hc.2 hn
    simp only [List.count_append,hn,List.count_singleton_self]
    exact Nat.le_trans this (Nat.le_max_right _ _)
  · simpa [List.count_append,hn] using hkept

/-- Limits that a text does not reach. -/
def Fits (maxBytes maxLines : Nat) (text : List Char) : Prop :=
  (encodeUtf8 text).length ≤ maxBytes ∧ text.count '\n' < maxLines

theorem bounded_of_fits (h : Fits maxBytes maxLines text) :
    bounded maxBytes maxLines text = text := by
  induction text using List.reverseRecOn with
  | nil => rfl
  | append_singleton text c ih =>
    obtain ⟨hbytes,hlines⟩ := h
    rw [encodeUtf8_snoc,List.length_append] at hbytes
    rw [List.count_append] at hlines
    have hadmits : Admits maxBytes maxLines text c := ⟨hbytes,fun hc => by simpa [hc] using hlines⟩
    rw [bounded_snoc,ih ⟨by omega,by omega⟩,keep,if_pos hadmits]

end Bounds

/-- What is pending is the start of a longer character, and only in the state `text`. -/
def Valid (s : TerminalSanitizer) : Prop :=
  s.utf8Pending = [] ∨ s.state = .text ∧ ∃ lead tail, s.utf8Pending = lead :: tail ∧
    0xc2 ≤ lead ∧ lead ≤ 0xf4

theorem length_of_lead {c : Char} {lead : UInt8} {tail : List UInt8}
    (h : String.utf8EncodeChar c = lead :: tail) (hlead : 0xc2 ≤ lead) :
    (String.utf8EncodeChar c).length = utf8SequenceLen lead := by
  have hrange := scalar_range c
  have hvalue : ∀ n < 256, UInt8.ofNat n = lead → lead.toNat = n := by
    rintro n hn rfl
    exact toNat_byte hn
  rw [encodeChar_eq] at h ⊢
  simp only [utf8SequenceLen,UInt8.le_iff_toNat_le,UInt8.reduceToNat] at hlead ⊢
  split_ifs at h ⊢
  all_goals
    have := hvalue _ (by omega) (List.cons.inj h).1
    first | rfl | omega

section Automaton
variable {maxBytes maxLines : Nat} {s : TerminalSanitizer} {byte : UInt8} {kept : List Char}

def looped (s : TerminalSanitizer) (kept : List Char) : Loop :=
  ⟨s,encodeUtf8 kept,kept.count '\n' + 1⟩

theorem looped_keep {c : Char} {bytes : List UInt8} (hc : String.utf8EncodeChar c = bytes)
    (hne : c ≠ '\n') : looped s (keep maxBytes maxLines kept c) =
      ⟨s,if (encodeUtf8 kept).length + bytes.length ≤ maxBytes then encodeUtf8 kept ++ bytes
        else encodeUtf8 kept,kept.count '\n' + 1⟩ := by
  have hbytes : encodeUtf8 (kept ++ [c]) = encodeUtf8 kept ++ bytes := by
    rw [encodeUtf8_append,encodeUtf8_cons,hc]
    exact congrArg _ (List.append_nil _)
  have hcount : (kept ++ [c]).count '\n' = kept.count '\n' := by
    simp [List.count_append,hne]
  have hadmits : Admits maxBytes maxLines kept c ↔
      (encodeUtf8 kept).length + bytes.length ≤ maxBytes := by
    rw [Admits,hc]
    exact and_iff_left fun h => absurd h hne
  simp only [keep,hadmits]
  split_ifs
  · rw [looped,hbytes,hcount]
  · rfl

theorem feedText_eq : feedText maxBytes maxLines (looped default kept) byte =
    looped (stepText byte) ((single byte).toList.foldl (keep maxBytes maxLines) kept) := by
  by_cases hnewline : byte = 0x0a
  · subst hnewline
    have hadmits : (kept.count '\n' + 1 < maxLines ∧ (encodeUtf8 kept).length < maxBytes) ↔
        Admits maxBytes maxLines kept '\n' := by
      have hone : (String.utf8EncodeChar '\n').length = 1 := rfl
      rw [Admits,hone]
      simp [and_comm,Nat.succ_le_iff]
    have hpush : looped default (kept ++ ['\n']) =
        ⟨default,encodeUtf8 kept ++ [0x0a],kept.count '\n' + 1 + 1⟩ := by
      simp only [looped,encodeUtf8_append,List.count_append]
      rfl
    change (if kept.count '\n' + 1 < maxLines ∧ (encodeUtf8 kept).length < maxBytes then
      (⟨default,encodeUtf8 kept ++ [0x0a],kept.count '\n' + 1 + 1⟩ : Loop)
      else looped default kept) = looped default (keep maxBytes maxLines kept '\n')
    rw [← hpush,keep]
    simp only [hadmits]
    split_ifs <;> rfl
  by_cases hprintable : 0x20 ≤ byte ∧ byte ≤ 0x7e
  · have hcontrol : ∀ b ∈ ([0x1b,0x9b,0x90,0x9d,0x98,0x9e,0x9f,0x0d] : List UInt8),
        ¬ (0x20 ≤ b ∧ b ≤ 0x7e) := by decide +kernel
    have hother : byte ∉ ([0x1b,0x9b,0x90,0x9d,0x98,0x9e,0x9f,0x0d] : List UInt8) :=
      fun h => hcontrol byte h hprintable
    simp only [List.mem_cons,not_or,List.not_mem_nil,not_false_eq_true,and_true] at hother
    have hlead : ¬ (0xc2 ≤ byte ∧ byte ≤ 0xf4) := by
      simp only [UInt8.le_iff_toNat_le,UInt8.reduceToNat] at hprintable ⊢
      omega
    have hascii : String.utf8EncodeChar (Char.ofNat byte.toNat) = [byte] :=
      encode_ascii (by
        simp only [UInt8.le_iff_toNat_le,UInt8.lt_iff_toNat_lt,UInt8.reduceToNat] at hprintable ⊢
        omega)
    have hchar : Char.ofNat byte.toNat ≠ '\n' := fun h => hnewline (by
      rw [h] at hascii
      exact (List.cons.inj hascii).1.symm)
    have hsingle : single byte = some (Char.ofNat byte.toNat) := if_pos (.inr hprintable)
    have hstep : stepText byte = default := by
      simp [stepText,hother,hlead]
    rw [hsingle,hstep]
    change _ = looped default (keep maxBytes maxLines kept (Char.ofNat byte.toNat))
    rw [looped_keep hascii hchar]
    simp only [feedText,hother,hnewline,hprintable,List.mem_cons,List.not_mem_nil,or_self,if_false,
      and_self,if_true,looped,List.length_singleton,Nat.succ_le_iff]
    by_cases hfits : (encodeUtf8 kept).length < maxBytes <;> simp only [hfits,if_true,if_false]
  by_cases hreturn : byte = 0x0d
  · subst hreturn
    rfl
  · have hsingle : single byte = none := by simp [single,hnewline,hprintable]
    rw [hsingle]
    unfold feedText stepText
    simp only [hnewline,hprintable,hreturn,if_false]
    split_ifs <;> rfl

theorem pending_char {lead : UInt8} {tail : List UInt8} {text : List Char} (hlead : 0xc2 ≤ lead)
    (hlength : (lead :: tail).length = utf8SequenceLen lead)
    (h : fromUtf8 (lead :: tail) = .ok text) :
    ∃ c, text = [c] ∧ String.utf8EncodeChar c = lead :: tail ∧ c ≠ '\n' := by
  have hbytes := encodeUtf8_of_fromUtf8 h
  cases text with
  | nil => cases hbytes
  | cons c rest =>
    rw [encodeUtf8_cons] at hbytes
    cases hc : String.utf8EncodeChar c with
    | nil => exact absurd hc (encodeChar_ne_nil c)
    | cons first =>
      obtain rfl : first = lead := by
        rw [hc] at hbytes
        exact (List.cons.inj hbytes).1
      have hfirst := length_of_lead hc hlead
      have hrest : encodeUtf8 rest = [] := by
        have := congrArg List.length hbytes
        rw [List.length_append,hfirst,hlength] at this
        exact List.length_eq_zero_iff.1 (by omega)
      obtain rfl : rest = [] := by
        cases rest with
        | nil => rfl
        | cons => simp [encodeUtf8_cons] at hrest
      rw [hrest,List.append_nil,hc] at hbytes
      refine ⟨c,rfl,hc.trans hbytes,fun hn => ?_⟩
      subst hn
      cases hc
      exact absurd hlead (by decide)

theorem feedByte_eq (hs : s.Valid) : feedByte maxBytes maxLines (looped s kept) byte =
    looped (s.step byte).1 ((s.step byte).2.toList.foldl (keep maxBytes maxLines) kept) := by
  obtain ⟨state,pending⟩ := s
  cases state with
  | text =>
    cases pending with
    | nil => exact feedText_eq
    | cons lead tail =>
      obtain ⟨-,lead',tail',heq,hlead,-⟩ := hs.resolve_left (by simp)
      cases heq
      unfold feedByte step
      dsimp only [looped]
      by_cases hmore : 0x80 ≤ byte ∧ byte ≤ 0xbf
      · rw [if_pos hmore,if_pos hmore]
        by_cases hfull : (lead :: tail ++ [byte]).length = utf8SequenceLen lead
        · rw [if_pos hfull,if_pos hfull]
          cases hread : fromUtf8 (lead :: tail ++ [byte]) with
          | error => rfl
          | ok =>
            obtain ⟨c,rfl,hc,hne⟩ := pending_char hlead hfull hread
            change _ = looped default (keep maxBytes maxLines kept c)
            rw [looped_keep hc hne]
            simp [Except.isOk,Except.toBool]
        · rw [if_neg hfull,if_neg hfull]
          rfl
      · rw [if_neg hmore,if_neg hmore]
        exact feedText_eq
  | _ => rfl

theorem stepText_valid : (stepText byte).Valid := by
  unfold stepText
  split_ifs with _ _ _ hlead
  · exact .inl rfl
  · exact .inl rfl
  · exact .inl rfl
  · exact .inr ⟨rfl,byte,[],rfl,hlead⟩
  · exact .inl rfl

theorem step_valid (hs : s.Valid) : (s.step byte).1.Valid := by
  obtain ⟨state,pending⟩ := s
  cases state with
  | text =>
    cases pending with
    | nil => exact stepText_valid
    | cons lead tail =>
      obtain ⟨-,lead',tail',heq,hlead⟩ := hs.resolve_left (by simp)
      cases heq
      unfold step
      dsimp only
      split_ifs
      · exact .inl rfl
      · exact .inr ⟨rfl,lead,tail ++ [byte],rfl,hlead⟩
      · exact stepText_valid
  | _ => exact .inl (hs.resolve_right (by simp))

theorem feedLoop_eq (hs : s.Valid) (input : List UInt8) :
    feedLoop maxBytes maxLines s input =
      looped (s.after input) (bounded maxBytes maxLines (s.characters input)) := by
  have hrun : ∀ (input : List UInt8) (s : TerminalSanitizer) (kept : List Char), s.Valid →
      input.foldl (feedByte maxBytes maxLines) (looped s kept) =
        looped (s.after input) ((s.characters input).foldl (keep maxBytes maxLines) kept) := by
    intro input
    induction input with
    | nil => exact fun _ _ _ => rfl
    | cons byte input ih =>
      intro s kept hs
      rw [List.foldl_cons,feedByte_eq hs,ih _ _ (step_valid hs),characters,List.foldl_append]
      rfl
  exact hrun input s [] hs

theorem length_filter_encode (p : Char → Bool) (text : List Char) :
    (encodeUtf8 (text.filter p)).length ≤ (encodeUtf8 text).length := by
  induction text with
  | nil => exact Nat.le_refl _
  | cons =>
    rw [encodeUtf8_cons,List.length_append]
    rw [List.filter_cons]
    split_ifs
    · rw [encodeUtf8_cons,List.length_append]
      omega
    · omega

theorem feed_eq (hs : s.Valid) (input : List UInt8) : s.feed maxBytes maxLines input =
    ((bounded maxBytes maxLines (s.characters input)).filter (fun c => !isBidi c),
      s.after input) := by
  rw [feed,feedLoop_eq hs]
  simp only [looped,lossy_encodeUtf8]
  rw [if_neg (Nat.not_lt.2 ((length_filter_encode _ _).trans (bounded_length _)))]

theorem default_valid : default.Valid := .inl rfl

theorem after_valid (hs : s.Valid) (input : List UInt8) : (s.after input).Valid := by
  induction input generalizing s with
  | nil => exact hs
  | cons byte input ih => exact ih (step_valid hs)

theorem characters_append (s : TerminalSanitizer) (xs ys : List UInt8) :
    s.characters (xs ++ ys) = s.characters xs ++ (s.after xs).characters ys := by
  induction xs generalizing s with
  | nil => rfl
  | cons byte xs ih =>
    rw [List.cons_append,characters,characters,ih,List.append_assoc]
    rfl

theorem after_append (s : TerminalSanitizer) (xs ys : List UInt8) :
    s.after (xs ++ ys) = (s.after xs).after ys := List.foldl_append

theorem characters_snoc (s : TerminalSanitizer) (input : List UInt8) (byte : UInt8) :
    s.characters (input ++ [byte]) =
      s.characters input ++ ((s.after input).step byte).2.toList := by
  rw [characters_append]
  exact congrArg _ (List.append_nil _)

end Automaton

section Chunks
variable {maxBytes maxLines : Nat} {s : TerminalSanitizer}

/-- The chunks fed in order, and their results one behind the other. -/
def feedAll (maxBytes maxLines : Nat) (s : TerminalSanitizer) :
    List (List UInt8) → List Char × TerminalSanitizer
  | [] => ([],s)
  | chunk :: chunks =>
    let (text,s) := s.feed maxBytes maxLines chunk
    let (more,s) := s.feedAll maxBytes maxLines chunks
    (text ++ more,s)

def Within (maxBytes maxLines : Nat) (s : TerminalSanitizer) : List (List UInt8) → Prop
  | [] => True
  | chunk :: chunks => Fits maxBytes maxLines (s.characters chunk) ∧
      (s.after chunk).Within maxBytes maxLines chunks

theorem feed_of_fits {input : List UInt8} (hs : s.Valid)
    (h : Fits maxBytes maxLines (s.characters input)) : s.feed maxBytes maxLines input =
      ((s.characters input).filter (fun c => !isBidi c),s.after input) := by
  rw [feed_eq hs,bounded_of_fits h]

theorem feedAll_eq {chunks : List (List UInt8)} (hs : s.Valid)
    (h : s.Within maxBytes maxLines chunks) : s.feedAll maxBytes maxLines chunks =
      ((s.characters chunks.flatten).filter (fun c => !isBidi c),s.after chunks.flatten) := by
  induction chunks generalizing s with
  | nil => rfl
  | cons chunk chunks ih =>
    rw [List.flatten_cons,characters_append,after_append,List.filter_append,feedAll,
      feed_of_fits hs h.1]
    dsimp only
    rw [ih (after_valid hs chunk) h.2]

theorem sanitized_chunks (chunks : List (List UInt8)) (maxBytes maxLines maxBytes' maxLines' : Nat)
    (hchunks : default.Within maxBytes maxLines chunks)
    (hwhole : Fits maxBytes' maxLines' (default.characters chunks.flatten)) :
    default.feedAll maxBytes maxLines chunks = default.feed maxBytes' maxLines' chunks.flatten :=
  (feedAll_eq default_valid hchunks).trans (feed_of_fits default_valid hwhole).symm

theorem sanitized_chunks_escape :
    default.feedAll 2 1 [[0x61,0x1b],[0x5b,0x6d,0xc3],[0xa9]] =
      default.feed 3 1 [0x61,0x1b,0x5b,0x6d,0xc3,0xa9] :=
  sanitized_chunks [[0x61,0x1b],[0x5b,0x6d,0xc3],[0xa9]] 2 1 3 1
    ⟨⟨by decide +kernel,by decide +kernel⟩,⟨by decide +kernel,by decide +kernel⟩,
      ⟨by decide +kernel,by decide +kernel⟩,trivial⟩ ⟨by decide +kernel,by decide +kernel⟩

end Chunks

section Cut
variable {maxBytes maxLines : Nat}

end Cut

section Inert
variable {maxBytes maxLines : Nat} {s : TerminalSanitizer} {byte : UInt8} {c : Char}

structure Inert (maxBytes maxLines : Nat) (text : List Char) : Prop where
  plain : ∀ c ∈ text, c = '\n' ∨ 0x20 ≤ c.toNat ∧ ¬ (0x7f ≤ c.toNat ∧ c.toNat ≤ 0x9f) ∧
    isBidi c = false
  bytes : (encodeUtf8 text).length ≤ maxBytes
  lines : text.count '\n' + 1 ≤ max 1 maxLines

/-- A C1 control character, spelt in UTF-8, that is read as text and still fits. -/
def Leaks (maxBytes maxLines : Nat) (input : List UInt8) : Prop :=
  ∃ before byte after, input = before ++ 0xc2 :: byte :: after ∧ (0x80 ≤ byte ∧ byte ≤ 0x9f) ∧
    (feedLoop maxBytes maxLines default before).sanitizer.state = .text ∧
    (feedLoop maxBytes maxLines default before).out.length + 2 ≤ maxBytes

def IsC1 (c : Char) : Prop := 0x80 ≤ c.toNat ∧ c.toNat ≤ 0x9f

theorem encode_c1 (h : IsC1 c) : String.utf8EncodeChar c = [0xc2,UInt8.ofNat c.toNat] := by
  obtain ⟨hlow,hhigh⟩ := h
  have hlead : c.toNat / 64 % 32 + 192 = 0xc2 := by omega
  have hlast : c.toNat % 64 + 128 = c.toNat := by omega
  rw [encodeChar_eq,if_neg (by omega),if_pos (by omega),hlead,hlast]
  rfl

theorem single_ascii (h : single byte = some c) :
    c = '\n' ∨ 0x20 ≤ c.toNat ∧ c.toNat ≤ 0x7e := by
  rw [single,Option.ite_none_right_eq_some] at h
  obtain ⟨rfl | hprintable,h⟩ := h
  · exact .inl (Option.some.inj h).symm
  · simp only [UInt8.le_iff_toNat_le,UInt8.reduceToNat] at hprintable
    obtain rfl := Option.some.inj h
    rw [toNat_ofNat (by omega)]
    exact .inr hprintable

theorem step_char (hs : s.Valid) (h : (s.step byte).2 = some c) : single byte = some c ∨
    s.state = .text ∧ ∃ lead tail, s.utf8Pending = lead :: tail ∧ 0xc2 ≤ lead ∧
      String.utf8EncodeChar c = lead :: tail ++ [byte] := by
  obtain ⟨state,pending⟩ := s
  cases state with
  | text =>
    cases pending with
    | nil => exact .inl h
    | cons lead tail =>
      obtain ⟨-,lead',tail',heq,hlead,-⟩ := hs.resolve_left (by simp)
      cases heq
      unfold step at h
      dsimp only at h
      split_ifs at h with _ hfull
      · cases hread : fromUtf8 (lead :: tail ++ [byte]) with
        | error => rw [hread] at h; cases h
        | ok =>
          obtain ⟨d,rfl,hd,-⟩ := pending_char hlead hfull hread
          rw [hread] at h
          cases h
          exact .inr ⟨rfl,lead,tail,rfl,hlead,hd⟩
      · exact .inl h
  | _ => cases h

theorem characters_plain (hs : s.Valid) (input : List UInt8) (hc : c ∈ s.characters input) :
    c = '\n' ∨ 0x20 ≤ c.toNat ∧ c.toNat ≠ 0x7f := by
  induction input generalizing s with
  | nil => cases hc
  | cons byte input ih =>
    rw [characters,List.mem_append,Option.mem_toList] at hc
    obtain hc | hc := hc
    · obtain hsingle | ⟨-,lead,tail,-,hlead,hencode⟩ := step_char hs hc
      · exact (single_ascii hsingle).imp_right fun h => ⟨h.1,by omega⟩
      · -- a longer character is not ASCII
        by_contra hplain
        have hascii : c.toNat ≤ 0x7f := by
          by_contra h
          exact hplain (.inr ⟨by omega,by omega⟩)
        rw [encodeChar_eq,if_pos hascii] at hencode
        simp at hencode
    · exact ih (step_valid hs) hc

theorem step_c1_iff (hs : s.Valid) : (∃ c, (s.step byte).2 = some c ∧ IsC1 c) ↔
    s = ⟨.text,[0xc2]⟩ ∧ 0x80 ≤ byte ∧ byte ≤ 0x9f := by
  constructor
  · rintro ⟨c,hc,hc1⟩
    obtain hsingle | ⟨hstate,lead,tail,hpending,-,hencode⟩ := step_char hs hc
    · obtain rfl | hascii := single_ascii hsingle
      · exact absurd hc1.1 (by decide)
      · exact absurd hc1.1 (by omega)
    · obtain ⟨state,pending⟩ := s
      cases hstate
      cases hpending
      rw [encode_c1 hc1] at hencode
      cases tail with
      | nil =>
        simp only [List.cons_append,List.nil_append,List.cons.injEq,and_true] at hencode
        obtain ⟨rfl,rfl⟩ := hencode
        refine ⟨rfl,?_⟩
        rw [UInt8.le_iff_toNat_le,UInt8.le_iff_toNat_le,toNat_byte (by have := hc1.2; omega)]
        exact hc1
      | cons => simp at hencode
  · rintro ⟨rfl,hlow,hhigh⟩
    have hbyte : 0x80 ≤ byte.toNat ∧ byte.toNat ≤ 0x9f := ⟨hlow,hhigh⟩
    have hvalue : (Char.ofNat byte.toNat).toNat = byte.toNat := toNat_ofNat (by omega)
    have hc1 : IsC1 (Char.ofNat byte.toNat) := by rwa [IsC1,hvalue]
    have hread : fromUtf8 [0xc2,byte] = .ok [Char.ofNat byte.toNat] := by
      have hencode : encodeUtf8 [Char.ofNat byte.toNat] = [0xc2,byte] := by
        rw [encodeUtf8_cons,encode_c1 hc1,hvalue,UInt8.ofNat_toNat]
        rfl
      rw [← hencode,fromUtf8_encodeUtf8]
    refine ⟨_,?_,hc1⟩
    have hmore : 0x80 ≤ byte ∧ byte ≤ 0xbf := ⟨hlow,UInt8.le_trans hhigh (by decide)⟩
    simp only [step,if_pos hmore]
    have hfull : ([0xc2] ++ [byte]).length = utf8SequenceLen 0xc2 := rfl
    rw [if_pos hfull,List.singleton_append,hread]
    rfl

theorem step_pending_iff (hs : s.Valid) :
    (s.step byte).1 = ⟨.text,[0xc2]⟩ ↔ s.state = .text ∧ byte = 0xc2 := by
  have htext : stepText byte = ⟨.text,[0xc2]⟩ ↔ byte = 0xc2 := by
    constructor
    · intro h
      unfold stepText at h
      split_ifs at h <;> cases h
      rfl
    · rintro rfl
      rfl
  obtain ⟨state,pending⟩ := s
  cases state with
  | text =>
    cases pending with
    | nil => exact htext.trans (by simp)
    | cons =>
      by_cases hmore : 0x80 ≤ byte ∧ byte ≤ 0xbf
      · have hne : byte ≠ 0xc2 := by
          rintro rfl
          exact absurd hmore.2 (by decide)
        simp only [step,if_pos hmore]
        split_ifs <;> simp [default,hne]
      · simp only [step,if_neg hmore]
        exact htext.trans (by simp)
  | _ =>
    have hpending : pending = [] := hs.resolve_right (by simp)
    subst hpending
    simp [step]

theorem leaks_snoc (input : List UInt8) (byte : UInt8) : Leaks maxBytes maxLines (input ++ [byte]) ↔
    Leaks maxBytes maxLines input ∨ ∃ before, input = before ++ [0xc2] ∧
      (0x80 ≤ byte ∧ byte ≤ 0x9f) ∧
      (feedLoop maxBytes maxLines default before).sanitizer.state = .text ∧
      (feedLoop maxBytes maxLines default before).out.length + 2 ≤ maxBytes := by
  constructor
  · rintro ⟨before,b,after,heq,hb,hloop⟩
    obtain rfl | ⟨after,last,rfl⟩ := List.eq_nil_or_concat after
    · have hlast : input ++ [byte] = (before ++ [0xc2]) ++ [b] := by simpa using heq
      obtain ⟨rfl,hbyte⟩ := List.append_inj' hlast rfl
      cases hbyte
      exact .inr ⟨before,rfl,hb,hloop⟩
    · have hlast : input ++ [byte] = (before ++ 0xc2 :: b :: after) ++ [last] := by simpa using heq
      obtain ⟨rfl,-⟩ := List.append_inj' hlast rfl
      exact .inl ⟨before,b,after,rfl,hb,hloop⟩
  · rintro (⟨before,b,after,rfl,hb,hloop⟩ | ⟨before,rfl,hb,hloop⟩)
    · exact ⟨before,b,after ++ [byte],by simp,hb,hloop⟩
    · exact ⟨before,byte,[],by simp,hb,hloop⟩

theorem after_pending_iff (input : List UInt8) : default.after input = ⟨.text,[0xc2]⟩ ↔
    ∃ before, input = before ++ [0xc2] ∧ (default.after before).state = .text := by
  induction input using List.reverseRecOn with
  | nil => simp [after,default]
  | append_singleton before =>
    rw [after_append]
    refine (step_pending_iff (after_valid default_valid before)).trans ?_
    constructor
    · rintro ⟨hstate,rfl⟩
      exact ⟨before,rfl,hstate⟩
    · rintro ⟨other,heq,hstate⟩
      obtain ⟨rfl,hbyte⟩ := List.append_inj' heq rfl
      exact ⟨hstate,List.head_eq_of_cons_eq hbyte⟩

theorem characters_pending {before : List UInt8} (h : (default.after before).state = .text) :
    default.characters (before ++ [0xc2]) = default.characters before := by
  have hnone : ∀ s : TerminalSanitizer, s.state = .text → (s.step 0xc2).2 = none := by
    rintro ⟨state,_ | ⟨lead,tail⟩⟩ rfl <;> rfl
  rw [characters_snoc,hnone _ h]
  exact List.append_nil _

theorem c1_foldl_iff (kept : List Char) (next : Option Char) :
    (∃ c ∈ next.toList.foldl (keep maxBytes maxLines) kept, IsC1 c) ↔ (∃ c ∈ kept, IsC1 c) ∨
      (∃ c, next = some c ∧ IsC1 c) ∧ (encodeUtf8 kept).length + 2 ≤ maxBytes := by
  cases next with
  | none => simp
  | some c =>
    change (∃ d ∈ keep maxBytes maxLines kept c, IsC1 d) ↔ _
    have hadmits (hc1 : IsC1 c) : Admits maxBytes maxLines kept c ↔
        (encodeUtf8 kept).length + 2 ≤ maxBytes := by
      rw [Admits,encode_c1 hc1]
      refine and_iff_left ?_
      rintro rfl
      exact absurd hc1.1 (by decide)
    by_cases hc1 : IsC1 c
    · simp only [keep,hadmits hc1]
      split_ifs with hfits <;> simp [hc1,hfits]
    · rw [keep]
      split_ifs <;> simp [hc1]

theorem kept_c1_iff (input : List UInt8) :
    (∃ c ∈ bounded maxBytes maxLines (default.characters input), IsC1 c) ↔
      Leaks maxBytes maxLines input := by
  induction input using List.reverseRecOn with
  | nil => simp [characters,bounded,Leaks]
  | append_singleton input byte ih =>
    rw [leaks_snoc,← ih,characters_snoc,bounded,List.foldl_append,c1_foldl_iff,
      step_c1_iff (after_valid default_valid input),after_pending_iff]
    refine or_congr_right ⟨?_,?_⟩
    · rintro ⟨⟨⟨before,rfl,hstate⟩,hbyte⟩,hfits⟩
      rw [characters_pending hstate] at hfits
      exact ⟨before,rfl,hbyte,by rwa [feedLoop_eq default_valid],
        by rwa [feedLoop_eq default_valid]⟩
    · rintro ⟨before,rfl,hbyte,hstate,hfits⟩
      rw [feedLoop_eq default_valid] at hstate hfits
      refine ⟨⟨⟨before,rfl,hstate⟩,hbyte⟩,?_⟩
      rwa [characters_pending hstate]

/-- Sanitized text is inert exactly when no C1 control character came spelt in UTF-8. -/
theorem sanitized_inert_iff (input : List UInt8) (maxBytes maxLines : Nat) :
    Inert maxBytes maxLines (sanitizeTerminal input maxBytes maxLines) ↔
      ¬ Leaks maxBytes maxLines input := by
  rw [← kept_c1_iff,sanitizeTerminal,feed_eq default_valid]
  constructor
  · rintro h ⟨c,hc,hc1⟩
    have hbidi : isBidi c = false := by
      obtain ⟨-,hhigh⟩ := hc1
      simp [isBidi]
      omega
    obtain rfl | ⟨-,hplain,-⟩ := h.plain c (List.mem_filter.2 ⟨hc,by simp [hbidi]⟩)
    · exact absurd hc1.1 (by decide)
    · exact hplain ⟨by have := hc1.1; omega,hc1.2⟩
  · intro h
    constructor
    · intro c hc
      obtain ⟨hc,hbidi⟩ := List.mem_filter.1 hc
      refine (characters_plain default_valid input (bounded_subset _ hc)).imp_right fun hplain =>
        ⟨hplain.1,fun hcontrol => h ⟨c,hc,?_⟩,by simpa using hbidi⟩
      exact ⟨by have := hplain.2; omega,hcontrol.2⟩
    · exact (length_filter_encode _ _).trans (bounded_length _)
    · exact (Nat.succ_le_succ (List.Sublist.count_le _ List.filter_sublist)).trans
        (bounded_lines _)

/-- The C1 control character U+009B, which starts a control sequence, gets through. -/
theorem sanitized_c1 : sanitizeTerminal [0xc2,0x9b] 100 10 = [Char.ofNat 0x9b] ∧
    ¬ Inert 100 10 (sanitizeTerminal [0xc2,0x9b] 100 10) := by
  have hout : sanitizeTerminal [0xc2,0x9b] 100 10 = [Char.ofNat 0x9b] := by decide +kernel
  refine ⟨hout,fun h => ?_⟩
  rw [hout] at h
  exact absurd (h.plain _ List.mem_cons_self) (by decide)

end Inert

end TerminalSanitizer

end WatchMe
