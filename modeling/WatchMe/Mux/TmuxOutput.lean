import Mathlib.Data.List.Chain
import WatchMe.Mux.TmuxComposer
import WatchMe.Text.Utf8

/-! # What is read from the output of tmux

A capture keeps the longest beginning of the output that fits. The fields of a pane are read from
a line that may or may not be escaped; a line that is not is taken apart wrongly where a field
looks escaped.
-/
namespace WatchMe
open Effects Program Text

namespace Tmux

section Capture
variable {text t : List Char} {maxBytes n : Nat}

theorem longest_min (h : Longest text t (min (encodeUtf8 text).length n)) : Longest text t n where
  begins := h.begins
  fits := h.fits.trans (Nat.min_le_right _ _)
  longest p hp hfits := h.longest p hp (Nat.le_min.2 ⟨length_encodeUtf8_le hp,hfits⟩)

theorem validPart_encode (text : List Char) (maxBytes : Nat) :
    ∃ t, t <+: text ∧ (t = text ∨ maxBytes < (encodeUtf8 t).length) ∧
      validPart ((encodeUtf8 text).take (maxBytes + utf8BoundaryLookahead + 1)) maxBytes =
        .ok (encodeUtf8 t) := by
  rcases Nat.le_total (encodeUtf8 text).length (maxBytes + utf8BoundaryLookahead + 1) with hle | hge
  · refine ⟨text,List.prefix_rfl,.inl rfl,?_⟩
    rw [List.take_of_length_le hle,validPart,fromUtf8_encodeUtf8]
  have hlimit : maxBytes + utf8BoundaryLookahead + 1 = maxBytes + 4 := rfl
  obtain ⟨t,rest,rfl,hn | ⟨c,rest,k,rfl,hpos,hk,hn⟩⟩ := encodeUtf8_cut text hge
  · refine ⟨t,List.prefix_append t rest,.inr (by omega),?_⟩
    rw [encodeUtf8_append,hn,List.take_left,validPart,fromUtf8_encodeUtf8]
  · -- at most three bytes of a character are cut off
    have hfour : (String.utf8EncodeChar c).length ≤ 4 := by
      rw [encodeChar_eq]
      split_ifs <;> simp
    refine ⟨t,List.prefix_append t _,.inr (by omega),?_⟩
    have hwhole : scan none ((String.utf8EncodeChar c).take k ++ (String.utf8EncodeChar c).drop k) =
        [.scalar c (String.utf8EncodeChar c).length] := by
      have h := scan_encode c []
      rw [List.append_nil] at h
      rw [List.take_append_drop]
      exact h
    have hcut := scan_cut (by simpa using hk) (.inl (List.ne_nil_of_length_pos (by
      rw [List.length_take]
      omega))) hwhole
    have hbytes : (encodeUtf8 (t ++ c :: rest)).take (maxBytes + utf8BoundaryLookahead + 1) =
        encodeUtf8 t ++ (String.utf8EncodeChar c).take k := by
      rw [encodeUtf8_append,encodeUtf8_cons,hn,List.take_length_add_append,
        List.take_append_of_le_length hk.le]
    have hread : fromUtf8 (encodeUtf8 t ++ (String.utf8EncodeChar c).take k) =
        .error ⟨(encodeUtf8 t).length,none⟩ := by
      rw [fromUtf8,settle_encode,hcut]
      simp [settle,Except.map]
    rw [hbytes,validPart,hread]
    dsimp only
    rw [if_pos ⟨rfl,by omega,by simp; omega⟩,List.take_left]

theorem truncateCapture_encode (text : List Char) (maxBytes : Nat) : ∃ t, Longest text t maxBytes ∧
    truncateCapture ((encodeUtf8 text).take (maxBytes + utf8BoundaryLookahead + 1)) maxBytes =
      .ok (t,(encodeUtf8 t).length,decide (maxBytes < (encodeUtf8 text).length)) := by
  obtain ⟨read,hread,hlong,hvalid⟩ := validPart_encode text maxBytes
  obtain ⟨t,ht,hback⟩ := backToBoundary_encode (Nat.min_le_left (encodeUtf8 read).length maxBytes)
  obtain ⟨rest,hrest⟩ := id ht.begins
  refine ⟨t,⟨ht.begins.trans hread,(longest_min ht).fits,fun p hp hfits => ?_⟩,?_⟩
  · refine (longest_min ht).longest p ?_ hfits
    rcases List.prefix_or_prefix_of_prefix hp hread with h | h
    · exact h
    · rcases hlong with rfl | hlong
      · exact hp
      · have := length_encodeUtf8_le h
        omega
  · have htake : (encodeUtf8 read).take (encodeUtf8 t).length = encodeUtf8 t := by
      rw [← hrest,encodeUtf8_append,List.take_left]
    have hflag : (maxBytes < ((encodeUtf8 text).take
        (maxBytes + utf8BoundaryLookahead + 1)).length) =
          (maxBytes < (encodeUtf8 text).length) := by
      rw [List.length_take,eq_iff_iff]
      omega
    refine bind_ok_iff.2 ⟨_,hvalid,bind_ok_iff.2 ⟨read,by rw [fromUtf8_encodeUtf8]; rfl,?_⟩⟩
    simp only [hback,htake,lossy_encodeUtf8,hflag]
    rfl

theorem capture_longest_prefix [DebugText] {server : TmuxServer} {identity : MuxIdentity}
    {lines maxBytes : Nat} {before after : List TmuxEvent} {chunks : List (List UInt8)}
    {text : List Char} (hlines : 0 < lines) (hbytes : 0 < maxBytes)
    (hvalid : Traces (validateIdentity server identity).run before (.ok ()))
    (hstays : Traces (validateIdentity server identity).run after (.ok ()))
    (houtput : fromUtf8 chunks.flatten = .ok text) :
    ∃ t, Longest text t maxBytes ∧
      Traces (captureTail server identity lines maxBytes).run
        (before ++ ⟨.command (args server ++ captureArguments identity.paneId lines),.ok chunks⟩ ::
          after)
        (.ok ⟨.ofList t,(encodeUtf8 t).length,decide (maxBytes < chunks.flatten.length)⟩) := by
  rw [← encodeUtf8_of_fromUtf8 houtput]
  obtain ⟨t,ht,htruncated⟩ := truncateCapture_encode text maxBytes
  refine ⟨t,ht,hvalid.run_bind ?_⟩
  rw [if_neg (by omega)]
  have hrun : Traces (run server (captureArguments identity.paneId lines)
      (maxBytes + utf8BoundaryLookahead)).run
      [⟨.command (args server ++ captureArguments identity.paneId lines),.ok chunks⟩]
      (.ok ((encodeUtf8 text).take (maxBytes + utf8BoundaryLookahead + 1))) := by
    rw [encodeUtf8_of_fromUtf8 houtput,← readBounded_eq]
    exact (Traces.run_lift (Traces.request _)).run_bind (Traces.done _)
  refine hrun.run_bind (k := after) ?_
  have hend := hstays.run_bind (k := []) (f := fun _ => do
    let t ← settled (truncateCapture
      ((encodeUtf8 text).take (maxBytes + utf8BoundaryLookahead + 1)) maxBytes)
    return (⟨.ofList t.1,t.2.1,t.2.2⟩ : Capture)) (by
      rw [htruncated]
      exact Traces.done _)
  rwa [List.append_nil] at hend

end Capture

section
attribute [local instance] Sample.digest Sample.debugText

/-- A character of two bytes does not fit any more. -/
theorem capture_longest_prefix_cut :
    let _ := Sample.debugText
    ∃ h t, Longest "aλz".toList t 2 ∧
      Traces (captureTail (.socketPath Sample.agentPane.server) Sample.agentPane 40 2).run h
        (.ok ⟨.ofList t,(encodeUtf8 t).length,true⟩) := by
  have hquery : (Sample.shownHost []).run (query (.socketPath Sample.agentPane.server)
      Sample.agentPane.paneId) = .ok Sample.agentInfo := by
    decide +kernel
  obtain ⟨h,hvalid,-⟩ := @exists_traces_eval tmuxSig _ (Sample.shownHost []).answer
    (validateIdentity (.socketPath Sample.agentPane.server) Sample.agentPane).run
  have hrun : (Sample.shownHost []).run (validateIdentity _ Sample.agentPane) = .ok () :=
    (validateIdentity_run hquery).2 (by decide +kernel)
  have hvalid := (congrArg (Traces _ h) hrun).mp hvalid
  have houtput : fromUtf8 [[0x61,0xce],[0xbb,0x7a]].flatten = .ok "aλz".toList := by decide +kernel
  obtain ⟨t,ht,hcapture⟩ := capture_longest_prefix (Nat.zero_lt_succ 39) (Nat.zero_lt_succ 1)
    hvalid hvalid houtput
  exact ⟨_,t,ht,hcapture⟩

end

/-- Whether a backslash before the byte is read as an escape. -/
def isEscaped (b : UInt8) : Bool := b == 0x5c || isOctal b

/-- No backslash stands before a backslash or an octal digit. -/
def PlainBytes (bytes : List UInt8) : Prop :=
  bytes.IsChain fun a b => a = 0x5c → isEscaped b = false

theorem decodeEscapes_step {b : UInt8} {bytes : List UInt8}
    (h : ∀ a ∈ bytes.head?, b = 0x5c → isEscaped a = false) :
    decodeEscapes (b :: bytes) = (decodeEscapes bytes).map (b :: ·) := by
  by_cases hb : b = 0x5c
  · subst hb
    rcases bytes with _ | ⟨a,_ | ⟨b,_ | ⟨c,bytes⟩⟩⟩
    · rfl
    all_goals
      have ha := h a rfl rfl
      simp only [isEscaped,Bool.or_eq_false_iff,beq_eq_false_iff_ne] at ha
      simp [decodeEscapes,ha.1,ha.2,Except.map]
  · simp [decodeEscapes,hb]

theorem octalEscape_ok {digits out : List UInt8} {rest : Except MuxError (List UInt8)}
    (h : octalEscape digits rest = .ok out) : ∃ b out', out = b :: out' ∧ rest = .ok out' := by
  unfold octalEscape at h
  dsimp only at h
  split_ifs at h
  obtain ⟨out',hrest,rfl⟩ := map_ok_iff.1 h
  exact ⟨_,out',rfl,hrest⟩

theorem decodeEscapes_escape {a : UInt8} {rest out : List UInt8} (ha : isEscaped a = true)
    (h : decodeEscapes (0x5c :: a :: rest) = .ok out) :
    ∃ b rest' out', out = b :: out' ∧ decodeEscapes rest' = .ok out' ∧
      rest'.length ≤ rest.length := by
  by_cases hslash : a = 0x5c
  · subst hslash
    rw [decodeEscapes] at h
    obtain ⟨out',hrest,rfl⟩ := map_ok_iff.1 h
    exact ⟨_,rest,out',rfl,hrest,Nat.le_refl _⟩
  have hoctal : isOctal a = true := by simpa [isEscaped,hslash] using ha
  -- one, two or three digits are read
  obtain ⟨digits,rest',h,hlength⟩ : ∃ digits rest',
      octalEscape digits (decodeEscapes rest') = .ok out ∧ rest'.length ≤ rest.length := by
    rcases rest with _ | ⟨b,_ | ⟨c,bytes⟩⟩
    · rw [decodeEscapes,if_pos hoctal] at h
      · exact ⟨_,[],h,Nat.le_refl 0⟩
      · exact hslash
    · rw [decodeEscapes] at h
      · simp only [hoctal,Bool.true_and,if_true] at h
        split_ifs at h
        · exact ⟨_,[],h,by simp⟩
        · exact ⟨_,[b],h,Nat.le_refl _⟩
      · exact hslash
    · rw [decodeEscapes] at h
      · simp only [hoctal,Bool.true_and,if_true] at h
        split_ifs at h
        · exact ⟨_,bytes,h,by simp only [List.length_cons]; omega⟩
        · exact ⟨_,c :: bytes,h,by simp⟩
        · exact ⟨_,b :: c :: bytes,h,Nat.le_refl _⟩
      · exact hslash
  obtain ⟨b,out',rfl,hrest⟩ := octalEscape_ok h
  exact ⟨b,rest',out',rfl,hrest,hlength⟩

theorem escape_or_step (b : UInt8) (bytes : List UInt8) :
    (∃ a rest, b = 0x5c ∧ bytes = a :: rest ∧ isEscaped a = true) ∨
      ∀ a ∈ bytes.head?, b = 0x5c → isEscaped a = false := by
  rcases bytes with _ | ⟨a,rest⟩
  · exact .inr fun a ha => by cases ha
  · by_cases hb : b = 0x5c
    · cases ha : isEscaped a
      · exact .inr fun c hc _ => by cases hc; exact ha
      · exact .inl ⟨a,rest,hb,rfl,ha⟩
    · exact .inr fun _ _ h => absurd h hb

theorem decodeEscapes_length (bytes : List UInt8) : ∀ out, decodeEscapes bytes = .ok out →
    out.length ≤ bytes.length := by
  induction hn : bytes.length using Nat.strong_induction_on generalizing bytes with
  | _ n ih =>
    intro out h
    cases bytes with
    | nil =>
      cases h
      exact Nat.zero_le n
    | cons b bytes =>
      rw [List.length_cons] at hn
      rcases escape_or_step b bytes with ⟨a,rest,rfl,rfl,ha⟩ | hstep
      · obtain ⟨b,rest',out',rfl,hrest,hlength⟩ := decodeEscapes_escape ha h
        simp only [List.length_cons] at hn ⊢
        have := ih rest'.length (by omega) rest' rfl out' hrest
        omega
      · rw [decodeEscapes_step hstep] at h
        obtain ⟨out',hrest,rfl⟩ := map_ok_iff.1 h
        have := ih bytes.length (by omega) bytes rfl out' hrest
        simp only [List.length_cons]
        omega

theorem decodeEscapes_self_iff (bytes : List UInt8) :
    decodeEscapes bytes = .ok bytes ↔ PlainBytes bytes := by
  induction bytes with
  | nil => exact iff_of_true rfl List.isChain_nil
  | cons b bytes ih =>
    rw [PlainBytes,List.isChain_cons]
    rcases escape_or_step b bytes with ⟨a,rest,rfl,rfl,ha⟩ | hstep
    · refine iff_of_false (fun h => ?_) fun h => ?_
      · -- an escape is read as less than it is written with
        obtain ⟨b,rest',out',heq,hrest,hlength⟩ := decodeEscapes_escape ha h
        have hshort := decodeEscapes_length rest' out' hrest
        rw [← (List.cons.inj heq).2,List.length_cons] at hshort
        omega
      · rw [h.1 a rfl rfl] at ha
        cases ha
    · rw [decodeEscapes_step hstep,map_ok_iff]
      constructor
      · rintro ⟨out,hout,heq⟩
        rw [(List.cons.inj heq).2] at hout
        exact ⟨hstep,ih.1 hout⟩
      · rintro ⟨-,h⟩
        exact ⟨bytes,ih.2 h,rfl⟩

theorem decodeEscapes_append {bytes : List UInt8} (h : 0x5c ∉ bytes) (rest : List UInt8) :
    decodeEscapes (bytes ++ rest) = (decodeEscapes rest).map (bytes ++ ·) := by
  induction bytes with
  | nil =>
    rw [List.nil_append]
    cases decodeEscapes rest <;> rfl
  | cons b bytes ih =>
    rw [List.mem_cons,not_or] at h
    rw [List.cons_append,decodeEscapes_step (fun _ _ hb => absurd hb.symm h.1),ih h.2]
    cases decodeEscapes rest <;> rfl

/-- The first two steps of `splitMetadata`, which reads nothing else of the text. -/
def metadataFields (value : List Char) : Except MuxError (List (List Char)) :=
  (decodeTmuxDisplayEscapes value).map (·.splitOn fieldSeparator)

def printed (fields : List (List Char)) : List Char := [fieldSeparator].intercalate fields

/-- How an older tmux prints a character: a backslash doubled, a control byte in octal. -/
def escapeChar (c : Char) : List Char :=
  if c = '\\' then ['\\','\\']
  else if c.toNat < 0x20 ∨ c.toNat = 0x7f then
    '\\' :: [c.toNat / 64,c.toNat / 8 % 8,c.toNat % 8].map fun digit => Char.ofNat (0x30 + digit)
  else [c]

def printedEscaped (fields : List (List Char)) : List Char := (printed fields).flatMap escapeChar

/-- Before these a backslash is read as an escape. -/
def escapedChars : List Char := "\\01234567".toList

/-- No backslash of the text stands before a backslash or an octal digit. -/
def Plain (text : List Char) : Prop := text.IsChain fun a b => a = '\\' → b ∉ escapedChars

instance (text : List Char) : Decidable (Plain text) :=
  inferInstanceAs (Decidable (text.IsChain fun a b => a = '\\' → b ∉ escapedChars))

theorem plain_cons_iff {c : Char} {text : List Char} :
    Plain (c :: text) ↔ (∀ d ∈ text.head?, c = '\\' → d ∉ escapedChars) ∧ Plain text :=
  List.isChain_cons

theorem escaped_byte_iff : ∀ n < 0x80, isEscaped (UInt8.ofNat n) = true ↔
    Char.ofNat n ∈ escapedChars := by
  decide

theorem backslash_mem_encode {c : Char} (h : 0x5c ∈ String.utf8EncodeChar c) : c = '\\' := by
  have hc := ascii_of_mem_encode c h (by decide)
  rw [← Char.ofNat_toNat c,hc]
  rfl

theorem isEscaped_lt {b : UInt8} (h : isEscaped b = true) : b.toNat < 0x80 := by
  simp only [isEscaped,isOctal,Bool.or_eq_true,beq_iff_eq,Bool.and_eq_true,decide_eq_true_eq,
    UInt8.le_iff_toNat_le,UInt8.reduceToNat] at h
  rcases h with rfl | h
  · decide
  · omega

theorem escaped_head_iff {c : Char} {b : UInt8} (h : (String.utf8EncodeChar c).head? = some b) :
    isEscaped b = true ↔ c ∈ escapedChars := by
  by_cases hc : c.toNat ≤ 0x7F
  · rw [encodeChar_eq,if_pos hc] at h
    cases h
    rw [escaped_byte_iff _ (by omega),Char.ofNat_toNat]
  · have hascii : (escapedChars.all fun d => d.toNat ≤ 0x7F) = true := by decide
    refine iff_of_false (fun hb => ?_) fun hmem =>
      hc (of_decide_eq_true (List.all_eq_true.1 hascii c hmem))
    have := ascii_of_mem_encode c (List.mem_of_mem_head? h) (isEscaped_lt hb)
    have := isEscaped_lt hb
    omega

theorem plainBytes_encode_iff (text : List Char) : PlainBytes (encodeUtf8 text) ↔ Plain text := by
  induction text with
  | nil => exact iff_of_true List.isChain_nil List.isChain_nil
  | cons c text ih =>
    have hhead : (∀ b ∈ (encodeUtf8 text).head?, isEscaped b = false) ↔
        ∀ d ∈ text.head?, d ∉ escapedChars := by
      cases text with
      | nil => simp [encodeUtf8]
      | cons d =>
        obtain ⟨b,tail,hd,-⟩ := encodeChar_continuation d
        have := escaped_head_iff (c := d) (b := b) (by rw [hd]; rfl)
        rw [encodeUtf8_cons,hd]
        simp [← this]
    rw [encodeUtf8_cons,PlainBytes,List.isChain_append,← PlainBytes,← PlainBytes,ih,plain_cons_iff]
    by_cases hc : c = '\\'
    · subst hc
      have hslash : String.utf8EncodeChar '\\' = [0x5c] := rfl
      have hone : PlainBytes [0x5c] := List.isChain_singleton _
      rw [hslash,and_iff_right hone,and_comm]
      simpa using fun _ => hhead
    · -- none of its bytes is a backslash
      have hno : 0x5c ∉ String.utf8EncodeChar c := fun h => hc (backslash_mem_encode h)
      have hchain : PlainBytes (String.utf8EncodeChar c) :=
        (List.pairwise_of_forall_mem_list (r := fun a b => a = 0x5c → isEscaped b = false)
          fun a ha b _ h => absurd (h ▸ ha) hno).isChain
      refine ⟨fun h => ⟨fun _ _ h => absurd h hc,h.2.1⟩,fun h => ⟨hchain,h.2,?_⟩⟩
      exact fun x hx _ _ h => absurd (h ▸ List.mem_of_getLast? hx) hno

theorem plain_printed_iff (fields : List (List Char)) :
    Plain (printed fields) ↔ ∀ field ∈ fields, Plain field := by
  rcases fields with _ | ⟨field,fields⟩
  · exact iff_of_true List.isChain_nil (by simp)
  induction fields generalizing field with
  | nil => simp [printed,List.intercalate]
  | cons next fields ih =>
    have hsep : ∀ text, Plain (fieldSeparator :: text) ↔ Plain text := fun text =>
      plain_cons_iff.trans (and_iff_right fun _ _ h => absurd h (by decide))
    rw [printed,List.intercalate_cons_cons,← printed,List.append_assoc,List.singleton_append,
      Plain,List.isChain_append,← Plain,← Plain,hsep,ih,List.forall_mem_cons (a := field)]
    refine and_congr_right fun _ => and_iff_left fun _ _ c hc _ => ?_
    cases hc
    decide

theorem decodeEscapes_escapeChar (c : Char) (rest : List UInt8) :
    decodeEscapes (encodeUtf8 (escapeChar c) ++ rest) =
      (decodeEscapes rest).map (String.utf8EncodeChar c ++ ·) := by
  unfold escapeChar
  split_ifs with hslash hcontrol
  · subst hslash
    exact decodeEscapes.eq_2 rest
  · have hdigit : ∀ d < 8, encodeUtf8 [Char.ofNat (0x30 + d)] = [UInt8.ofNat (0x30 + d)] ∧
        isOctal (UInt8.ofNat (0x30 + d)) = true ∧ (UInt8.ofNat (0x30 + d)).toNat = 0x30 + d ∧
        UInt8.ofNat (0x30 + d) ≠ 0x5c := by decide
    obtain ⟨h₁,o₁,v₁,hne⟩ := hdigit (c.toNat / 64) (by omega)
    obtain ⟨h₂,o₂,v₂,-⟩ := hdigit (c.toNat / 8 % 8) (by omega)
    obtain ⟨h₃,o₃,v₃,-⟩ := hdigit (c.toNat % 8) (by omega)
    have hbytes : encodeUtf8 ('\\' :: [c.toNat / 64,c.toNat / 8 % 8,c.toNat % 8].map
        fun digit => Char.ofNat (0x30 + digit)) = [0x5c,UInt8.ofNat (0x30 + c.toNat / 64),
          UInt8.ofNat (0x30 + c.toNat / 8 % 8),UInt8.ofNat (0x30 + c.toNat % 8)] := by
      simp only [encodeUtf8,List.flatMap_singleton] at h₁ h₂ h₃
      simp only [encodeUtf8,List.map_cons,List.map_nil,List.flatMap_cons,List.flatMap_nil,h₁,h₂,h₃]
      rfl
    have hself : String.utf8EncodeChar c = [UInt8.ofNat c.toNat] := by
      rw [encodeChar_eq,if_pos (by omega)]
    have hcode : ((0 * 8 + (0x30 + c.toNat / 64 - 0x30)) * 8 +
        (0x30 + c.toNat / 8 % 8 - 0x30)) * 8 + (0x30 + c.toNat % 8 - 0x30) = c.toNat := by omega
    rw [hbytes,List.cons_append,List.cons_append,List.cons_append,List.cons_append,
      List.nil_append,decodeEscapes]
    · simp only [o₁,o₂,o₃,octalEscape,List.foldl_cons,List.foldl_nil,v₁,v₂,v₃,hcode,Bool.and_self,
        if_true]
      rw [if_neg (by omega),hself]
      rfl
    · exact hne
  · have hplain : 0x5c ∉ String.utf8EncodeChar c := fun h => hslash (backslash_mem_encode h)
    rw [encodeUtf8,List.flatMap_singleton,decodeEscapes_append hplain]

theorem decode_escaped (text : List Char) :
    decodeTmuxDisplayEscapes (text.flatMap escapeChar) = .ok text := by
  have h : decodeEscapes (encodeUtf8 (text.flatMap escapeChar)) = .ok (encodeUtf8 text) := by
    induction text with
    | nil => rfl
    | cons c text ih =>
      rw [List.flatMap_cons,encodeUtf8_append,decodeEscapes_escapeChar,ih]
      rfl
  exact bind_ok_iff.2 ⟨_,h,by rw [fromUtf8_encodeUtf8]; rfl⟩

theorem decode_self_iff (text : List Char) :
    decodeTmuxDisplayEscapes text = .ok text ↔ Plain text := by
  rw [← plainBytes_encode_iff,← decodeEscapes_self_iff,decodeTmuxDisplayEscapes,bind_ok_iff]
  constructor
  · rintro ⟨bytes,hbytes,hread⟩
    have hread : fromUtf8 bytes = .ok text := by
      cases h : fromUtf8 bytes with
      | error =>
        rw [h] at hread
        cases hread
      | ok =>
        rw [h] at hread
        exact congrArg _ (Except.ok.inj hread)
    rw [encodeUtf8_of_fromUtf8 hread]
    rwa [← encodeUtf8_of_fromUtf8 hread] at hbytes ⊢
  · exact fun h => ⟨_,h,by rw [fromUtf8_encodeUtf8]; rfl⟩

theorem metadata_decoded_iff {fields : List (List Char)} (hcount : fields.length = 16)
    (hclean : ∀ field ∈ fields, fieldSeparator ∉ field ∧ '\n' ∉ field) :
    metadataFields (printed fields) = .ok fields ∧
        metadataFields (printedEscaped fields) = .ok fields ↔
      ∀ field ∈ fields, Plain field := by
  have hsplit : (printed fields).splitOn fieldSeparator = fields :=
    List.splitOn_intercalate _ (fun field hfield => (hclean field hfield).1)
      (List.ne_nil_of_length_pos (by omega))
  have hescaped : metadataFields (printedEscaped fields) = .ok fields := by
    rw [metadataFields,printedEscaped,decode_escaped]
    exact congrArg _ hsplit
  rw [and_iff_left hescaped,← plain_printed_iff,← decode_self_iff,metadataFields,map_ok_iff]
  constructor
  · rintro ⟨text,htext,rfl⟩
    rwa [printed,List.intercalate_splitOn] at htext ⊢
  · exact fun h => ⟨_,h,hsplit⟩

namespace Sample

def paneFields (windowName : String) : List (List Char) :=
  ["/tmp/tmux","$1","main","@1",windowName,"0","%1","0","/dev/pts/1","42","sh","/","0","","",""].map
    String.toList

end Sample

theorem metadata_decoded_backslash :
    metadataFields (printed (Sample.paneFields "C:\\src")) = .ok (Sample.paneFields "C:\\src") :=
  ((metadata_decoded_iff (by decide) (by decide)).2 (by decide)).1

/-- The name of a window divides itself in two, or is shortened. -/
theorem metadata_misread :
    splitMetadata (printed (Sample.paneFields "\\037")) =
        .error (.malformed "expected 16 fields, got 17") ∧
      (splitMetadata (printed (Sample.paneFields "a\\\\b"))).map (·.1) =
        .ok (Sample.paneFields "a\\b") := by
  decide +kernel

end Tmux

end WatchMe
