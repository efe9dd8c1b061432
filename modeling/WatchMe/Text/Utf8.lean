import WatchMe.Text.Lines
import WatchMe.Text.Reading

/-! # Writing text as bytes

The UTF-8 of a text is read back as this text, and only it is; its bytes below 0x80 are its
ASCII characters; and a cut falls between two characters or within one.
-/
namespace WatchMe.Text
variable {b : UInt8} {p : Pending}

def encodeUtf8 (text : List Char) : List UInt8 := text.flatMap String.utf8EncodeChar

section Bytes
variable {n : Nat}

theorem toNat_byte (h : n < 256) : (UInt8.ofNat n).toNat = n := by
  rw [UInt8.toNat_ofNat']
  exact Nat.mod_eq_of_lt h

theorem first_byte (h : n < 256) : first (UInt8.ofNat n) =
    if n < 0x80 then .inl (.scalar (Char.ofNat n) 1)
    else if 0xC2 ≤ n ∧ n ≤ 0xDF then .inr ⟨n % 0x20,1,1,0x80,0xBF⟩
    else if n = 0xE0 then .inr ⟨0,1,2,0xA0,0xBF⟩
    else if n = 0xED then .inr ⟨0xD,1,2,0x80,0x9F⟩
    else if 0xE1 ≤ n ∧ n ≤ 0xEF then .inr ⟨n % 0x10,1,2,0x80,0xBF⟩
    else if n = 0xF0 then .inr ⟨0,1,3,0x90,0xBF⟩
    else if 0xF1 ≤ n ∧ n ≤ 0xF3 then .inr ⟨n % 8,1,3,0x80,0xBF⟩
    else if n = 0xF4 then .inr ⟨4,1,3,0x80,0x8F⟩
    else .inl (.broken (some 1)) := by
  simp only [first,UInt8.lt_iff_toNat_lt,UInt8.le_iff_toNat_le,← UInt8.toNat_inj,toNat_byte h]
  rfl

theorem scan_more (h : n < 256) (hlow : p.low.toNat ≤ n) (hhigh : n ≤ p.high.toNat)
    (hleft : p.left ≠ 1) (rest : List UInt8) : scan (some p) (UInt8.ofNat n :: rest) =
      scan (some ⟨p.bits * 0x40 + n % 0x40,p.read + 1,p.left - 1,0x80,0xBF⟩) rest := by
  have hrange : p.low ≤ UInt8.ofNat n ∧ UInt8.ofNat n ≤ p.high := by
    rw [UInt8.le_iff_toNat_le,UInt8.le_iff_toNat_le,toNat_byte h]
    exact ⟨hlow,hhigh⟩
  rw [scan,if_pos hrange,Pending.next,if_neg hleft,toNat_byte h]

theorem scan_last (h : n < 256) (hlow : p.low.toNat ≤ n) (hhigh : n ≤ p.high.toNat)
    (hleft : p.left = 1) (rest : List UInt8) : scan (some p) (UInt8.ofNat n :: rest) =
      .scalar (Char.ofNat (p.bits * 0x40 + n % 0x40)) (p.read + 1) :: scan none rest := by
  have hrange : p.low ≤ UInt8.ofNat n ∧ UInt8.ofNat n ≤ p.high := by
    rw [UInt8.le_iff_toNat_le,UInt8.le_iff_toNat_le,toNat_byte h]
    exact ⟨hlow,hhigh⟩
  rw [scan,if_pos hrange,Pending.next,if_pos hleft,toNat_byte h]

end Bytes

section Scalars
variable (c : Char) (rest : List UInt8)

theorem scalar_range : c.toNat < 0xD800 ∨ 0xDFFF < c.toNat ∧ c.toNat < 0x110000 := c.valid

theorem scan_two (h : 0x80 ≤ c.toNat) (h' : c.toNat ≤ 0x7FF) :
    scan none (UInt8.ofNat (c.toNat / 64 % 32 + 192) :: UInt8.ofNat (c.toNat % 64 + 128) :: rest) =
      .scalar c 2 :: scan none rest := by
  have hfirst : first (UInt8.ofNat (c.toNat / 64 % 32 + 192)) =
      .inr ⟨c.toNat / 64,1,1,0x80,0xBF⟩ := by
    rw [first_byte (by omega),if_neg (by omega),if_pos (by omega)]
    congr 2
    omega
  rw [scan,hfirst]
  dsimp only
  rw [scan_last (by omega) (by simp) (by simp; omega) rfl]
  have hbits : c.toNat / 64 * 0x40 + (c.toNat % 64 + 128) % 0x40 = c.toNat := by omega
  rw [hbits,Char.ofNat_toNat]

theorem first_three (h : 0x800 ≤ c.toNat) (h' : c.toNat ≤ 0xFFFF) :
    ∃ low high, first (UInt8.ofNat (c.toNat / 4096 % 16 + 224)) =
        .inr ⟨c.toNat / 4096,1,2,low,high⟩ ∧ low.toNat ≤ c.toNat / 64 % 64 + 128 ∧
      c.toNat / 64 % 64 + 128 ≤ high.toNat := by
  have hrange := scalar_range c
  have hbyte : c.toNat / 4096 % 16 + 224 < 256 := by omega
  rw [first_byte hbyte,if_neg (by omega),if_neg (by omega)]
  by_cases hlowest : c.toNat / 4096 = 0
  · refine ⟨0xA0,0xBF,?_,by simp; omega,by simp; omega⟩
    rw [if_pos (by omega),hlowest]
  rw [if_neg (by omega)]
  by_cases hsurrogates : c.toNat / 4096 = 13
  · refine ⟨0x80,0x9F,?_,by simp,by simp; omega⟩
    rw [if_pos (by omega),hsurrogates]
  refine ⟨0x80,0xBF,?_,by simp,by simp; omega⟩
  rw [if_neg (by omega),if_pos (by omega)]
  congr 2
  omega

theorem scan_three (h : 0x800 ≤ c.toNat) (h' : c.toNat ≤ 0xFFFF) :
    scan none (UInt8.ofNat (c.toNat / 4096 % 16 + 224) :: UInt8.ofNat (c.toNat / 64 % 64 + 128) ::
      UInt8.ofNat (c.toNat % 64 + 128) :: rest) = .scalar c 3 :: scan none rest := by
  obtain ⟨low,high,hfirst,hlow,hhigh⟩ := first_three c h h'
  rw [scan,hfirst]
  dsimp only
  rw [scan_more (by omega) hlow hhigh (by simp),scan_last (by omega) (by simp) (by simp; omega) rfl]
  have hbits : (c.toNat / 4096 * 0x40 + (c.toNat / 64 % 64 + 128) % 0x40) * 0x40 +
      (c.toNat % 64 + 128) % 0x40 = c.toNat := by omega
  rw [hbits,Char.ofNat_toNat]

theorem first_four (h : 0x10000 ≤ c.toNat) :
    ∃ low high, first (UInt8.ofNat (c.toNat / 262144 % 8 + 240)) =
        .inr ⟨c.toNat / 262144,1,3,low,high⟩ ∧ low.toNat ≤ c.toNat / 4096 % 64 + 128 ∧
      c.toNat / 4096 % 64 + 128 ≤ high.toNat := by
  have hrange := scalar_range c
  have hbyte : c.toNat / 262144 % 8 + 240 < 256 := by omega
  rw [first_byte hbyte,if_neg (by omega),if_neg (by omega),if_neg (by omega),if_neg (by omega),
    if_neg (by omega)]
  by_cases hlowest : c.toNat / 262144 = 0
  · refine ⟨0x90,0xBF,?_,by simp; omega,by simp; omega⟩
    rw [if_pos (by omega),hlowest]
  rw [if_neg (by omega)]
  by_cases hhighest : c.toNat / 262144 = 4
  · refine ⟨0x80,0x8F,?_,by simp,by simp; omega⟩
    rw [if_neg (by omega),if_pos (by omega),hhighest]
  refine ⟨0x80,0xBF,?_,by simp,by simp; omega⟩
  rw [if_pos (by omega)]
  congr 2
  omega

theorem scan_four (h : 0x10000 ≤ c.toNat) :
    scan none (UInt8.ofNat (c.toNat / 262144 % 8 + 240) ::
      UInt8.ofNat (c.toNat / 4096 % 64 + 128) :: UInt8.ofNat (c.toNat / 64 % 64 + 128) ::
      UInt8.ofNat (c.toNat % 64 + 128) :: rest) =
      .scalar c 4 :: scan none rest := by
  have hrange := scalar_range c
  obtain ⟨low,high,hfirst,hlow,hhigh⟩ := first_four c h
  rw [scan,hfirst]
  dsimp only
  rw [scan_more (by omega) hlow hhigh (by simp),
    scan_more (by omega) (by simp) (by simp; omega) (by simp),
    scan_last (by omega) (by simp) (by simp; omega) rfl]
  have hbits : ((c.toNat / 262144 * 0x40 + (c.toNat / 4096 % 64 + 128) % 0x40) * 0x40 +
      (c.toNat / 64 % 64 + 128) % 0x40) * 0x40 + (c.toNat % 64 + 128) % 0x40 = c.toNat := by omega
  rw [hbits,Char.ofNat_toNat]

theorem encodeChar_eq : String.utf8EncodeChar c =
    if c.toNat ≤ 0x7F then [UInt8.ofNat c.toNat]
    else if c.toNat ≤ 0x7FF then
      [UInt8.ofNat (c.toNat / 64 % 32 + 192),UInt8.ofNat (c.toNat % 64 + 128)]
    else if c.toNat ≤ 0xFFFF then
      [UInt8.ofNat (c.toNat / 4096 % 16 + 224),UInt8.ofNat (c.toNat / 64 % 64 + 128),
        UInt8.ofNat (c.toNat % 64 + 128)]
    else
      [UInt8.ofNat (c.toNat / 262144 % 8 + 240),UInt8.ofNat (c.toNat / 4096 % 64 + 128),
        UInt8.ofNat (c.toNat / 64 % 64 + 128),UInt8.ofNat (c.toNat % 64 + 128)] := rfl

theorem scan_encode : scan none (String.utf8EncodeChar c ++ rest) =
    .scalar c (String.utf8EncodeChar c).length :: scan none rest := by
  rw [encodeChar_eq]
  split_ifs with hone htwo hthree
  · rw [List.singleton_append,scan,first_byte (by omega),if_pos (by omega),Char.ofNat_toNat]
    rfl
  · exact scan_two c rest (by omega) htwo
  · exact scan_three c rest (by omega) hthree
  · exact scan_four c rest (by omega)

theorem ascii_of_mem_encode (hb : b ∈ String.utf8EncodeChar c) (h : b.toNat < 0x80) :
    c.toNat = b.toNat := by
  rw [encodeChar_eq] at hb
  split_ifs at hb with hone
  · rw [List.mem_singleton.1 hb,toNat_byte (by omega)]
  -- The bytes of the other scalar values are 0x80 or above.
  all_goals
    simp only [List.mem_cons,List.not_mem_nil,or_false] at hb
    rcases hb with rfl | rfl | rfl | rfl <;>
      · rw [toNat_byte (by omega)] at h
        omega

end Scalars

theorem encodeUtf8_cons (c : Char) (text : List Char) :
    encodeUtf8 (c :: text) = String.utf8EncodeChar c ++ encodeUtf8 text := List.flatMap_cons

theorem settle_encode (offset : Nat) (text : List Char) (rest : List UInt8) :
    settle offset (scan none (encodeUtf8 text ++ rest)) =
      (settle (offset + (encodeUtf8 text).length) (scan none rest)).map (text ++ ·) := by
  induction text generalizing offset with
  | nil =>
    change settle offset (scan none rest) = Except.map id (settle offset (scan none rest))
    cases settle offset (scan none rest) <;> rfl
  | cons c text ih =>
    rw [encodeUtf8_cons,List.append_assoc,scan_encode,settle,ih,List.length_append,Nat.add_assoc]
    cases settle _ (scan none rest) <;> rfl

theorem fromUtf8_encodeUtf8 (text : List Char) : fromUtf8 (encodeUtf8 text) = .ok text := by
  have h := settle_encode 0 text []
  rw [List.append_nil] at h
  rw [fromUtf8,h]
  simp [scan,settle,Except.map]

theorem lossy_encodeUtf8_append (text : List Char) (rest : List UInt8) :
    lossy (encodeUtf8 text ++ rest) = text ++ lossy rest := by
  induction text with
  | nil => rfl
  | cons c text ih =>
    rw [encodeUtf8_cons,List.append_assoc,lossy,scan_encode,List.map_cons,← lossy,ih]
    rfl

theorem lossy_encodeUtf8 (text : List Char) : lossy (encodeUtf8 text) = text := by
  have h := lossy_encodeUtf8_append text []
  rw [List.append_nil] at h
  rw [h]
  exact List.append_nil text

theorem encodeUtf8_append (text text' : List Char) :
    encodeUtf8 (text ++ text') = encodeUtf8 text ++ encodeUtf8 text' :=
  List.flatMap_append

theorem ascii_of_mem_encodeUtf8 {text : List Char} (hb : b ∈ encodeUtf8 text)
    (h : b.toNat < 0x80) : Char.ofNat b.toNat ∈ text := by
  obtain ⟨c,hc,hb⟩ := List.mem_flatMap.1 hb
  rw [← ascii_of_mem_encode c hb h,Char.ofNat_toNat]
  exact hc

section Inverse
variable {text : List Char} {bytes : List UInt8}

theorem byte_eq {n : Nat} (h : n = b.toNat) : UInt8.ofNat n = b := by
  rw [h,UInt8.ofNat_toNat]

theorem toNat_ofNat {n : Nat} (h : n < 0xD800 ∨ 0xDFFF < n ∧ n < 0x110000) :
    (Char.ofNat n).toNat = n := by
  rw [Char.ofNat,dif_pos (show n.isValidChar from h)]
  rfl

/-- The bytes that are still missing complete the bytes seen to those of one scalar value. -/
def Begun (p : Pending) (seen : List UInt8) : Prop :=
  p.left ≠ 0 ∧ ∀ b tail, tail.length + 1 = p.left → p.low ≤ b → b ≤ p.high →
    (∀ t ∈ tail, 0x80 ≤ t ∧ t ≤ 0xBF) →
    String.utf8EncodeChar (Char.ofNat ((b :: tail).foldl
      (fun bits t => bits * 0x40 + t.toNat % 0x40) p.bits)) = seen ++ b :: tail

theorem begun_two {a : UInt8} (h : 0xC2 ≤ a.toNat ∧ a.toNat ≤ 0xDF) :
    Begun ⟨a.toNat % 0x20,1,1,0x80,0xBF⟩ [a] := by
  refine ⟨by simp,fun b tail hlength hlow hhigh _ => ?_⟩
  obtain rfl : tail = [] := by simpa using hlength
  simp only [UInt8.le_iff_toNat_le,UInt8.reduceToNat] at hlow hhigh
  simp only [List.foldl_cons,List.foldl_nil]
  rw [encodeChar_eq,toNat_ofNat (by omega),if_neg (by omega),if_pos (by omega),
    byte_eq (b := a) (by omega),byte_eq (b := b) (by omega)]
  rfl

theorem begun_three {a low high : UInt8} {bits : Nat} (ha : a.toNat = 0xE0 + bits)
    (hbits : bits < 16) (hl : 0x80 ≤ low.toNat ∧ (bits = 0 → 0xA0 ≤ low.toNat))
    (hh : high.toNat ≤ 0xBF ∧ (bits = 0xD → high.toNat ≤ 0x9F)) :
    Begun ⟨bits,1,2,low,high⟩ [a] := by
  refine ⟨by simp,fun b tail hlength hlow hhigh htail => ?_⟩
  obtain ⟨c,rfl⟩ : ∃ c, tail = [c] := List.length_eq_one_iff.1 (by simpa using hlength)
  have hc := htail c (by simp)
  simp only [UInt8.le_iff_toNat_le,UInt8.reduceToNat] at hlow hhigh hc
  simp only [List.foldl_cons,List.foldl_nil]
  rw [encodeChar_eq,toNat_ofNat (by omega),if_neg (by omega),if_neg (by omega),if_pos (by omega),
    byte_eq (b := a) (by omega),byte_eq (b := b) (by omega),byte_eq (b := c) (by omega)]
  rfl

theorem begun_four {a low high : UInt8} {bits : Nat} (ha : a.toNat = 0xF0 + bits) (hbits : bits ≤ 4)
    (hl : 0x80 ≤ low.toNat ∧ (bits = 0 → 0x90 ≤ low.toNat))
    (hh : high.toNat ≤ 0xBF ∧ (bits = 4 → high.toNat ≤ 0x8F)) :
    Begun ⟨bits,1,3,low,high⟩ [a] := by
  refine ⟨by simp,fun b tail hlength hlow hhigh htail => ?_⟩
  obtain ⟨c,d,rfl⟩ : ∃ c d, tail = [c,d] := List.length_eq_two.1 (by simpa using hlength)
  have hc := htail c (by simp)
  have hd := htail d (by simp)
  simp only [UInt8.le_iff_toNat_le,UInt8.reduceToNat] at hlow hhigh hc hd
  simp only [List.foldl_cons,List.foldl_nil]
  rw [encodeChar_eq,toNat_ofNat (by omega),if_neg (by omega),if_neg (by omega),if_neg (by omega),
    byte_eq (b := a) (by omega),byte_eq (b := b) (by omega),byte_eq (b := c) (by omega),
    byte_eq (b := d) (by omega)]
  rfl

theorem begun_first {a : UInt8} (h : first a = .inr p) : Begun p [a] := by
  unfold first at h
  simp only [UInt8.le_iff_toNat_le,← UInt8.toNat_inj,UInt8.reduceToNat] at h
  split_ifs at h with hascii htwo h0 hd hthree hf0 hfour hf4
  all_goals cases h
  · exact begun_two htwo
  · exact begun_three (by omega) (by omega) (by simp) (by simp)
  · exact begun_three (by omega) (by omega) (by simp) (by simp)
  · exact begun_three (by omega) (by omega) (by simp; omega) (by simp; omega)
  · exact begun_four (by omega) (by omega) (by simp) (by simp)
  · exact begun_four (by omega) (by omega) (by simp; omega) (by simp; omega)
  · exact begun_four (by omega) (by omega) (by simp) (by simp)

theorem Begun.next {p q : Pending} {seen : List UInt8} (hp : Begun p seen)
    (hb : p.low ≤ b ∧ b ≤ p.high) (h : p.next b = .inr q) : Begun q (seen ++ [b]) := by
  unfold Pending.next at h
  dsimp only at h
  split_ifs at h with hleft
  cases h
  obtain ⟨hzero,hp⟩ := hp
  refine ⟨by dsimp only; omega,fun b' tail hlength hlow hhigh htail => ?_⟩
  have hfull := hp b (b' :: tail) (by simp at hlength ⊢; omega) hb.1 hb.2 (by
    simpa only [List.forall_mem_cons] using ⟨⟨hlow,hhigh⟩,htail⟩)
  simpa using hfull

theorem Begun.last {seen : List UInt8} {item : Item} (hp : Begun p seen)
    (hb : p.low ≤ b ∧ b ≤ p.high) (h : p.next b = .inl item) :
    ∃ c width, item = .scalar c width ∧ String.utf8EncodeChar c = seen ++ [b] := by
  unfold Pending.next at h
  dsimp only at h
  split_ifs at h with hleft
  cases h
  exact ⟨_,_,rfl,hp.2 b [] (by simp [hleft]) hb.1 hb.2 (by simp)⟩

theorem encode_ascii (h : b < 0x80) :
    String.utf8EncodeChar (Char.ofNat b.toNat) = [b] := by
  simp only [UInt8.lt_iff_toNat_lt,UInt8.reduceToNat] at h
  rw [encodeChar_eq,toNat_ofNat (by omega),if_pos (by omega),UInt8.ofNat_toNat]

theorem settle_inv {offset : Nat} (h : settle offset (scan none bytes) = .ok text) :
    encodeUtf8 text = bytes := by
  have key : ∀ (bytes : List UInt8) (pending : Option Pending) (seen : List UInt8) (offset : Nat)
      (text : List Char), (match pending with | none => seen = [] | some p => Begun p seen) →
      settle offset (scan pending bytes) = .ok text → encodeUtf8 text = seen ++ bytes := by
    intro bytes
    induction bytes with
    | nil =>
      rintro (_ | p) seen offset text hseen h
      · cases h
        exact (congrArg (· ++ []) hseen).symm
      · cases h
    | cons b bytes ih =>
      -- what a scalar value leaves is read from the start
      have hscalar : ∀ {c width offset text} {seen : List UInt8}, String.utf8EncodeChar c = seen →
          settle offset (.scalar c width :: scan none bytes) = .ok text →
          encodeUtf8 text = seen ++ bytes := by
        intro c width offset text seen hc h
        obtain ⟨rest,hrest,rfl⟩ : ∃ rest, settle (offset + width) (scan none bytes) = .ok rest ∧
            text = c :: rest := by
          rw [settle] at h
          cases hs : settle (offset + width) (scan none bytes) with
          | error =>
            rw [hs] at h
            cases h
          | ok rest =>
            rw [hs] at h
            exact ⟨rest,rfl,(Except.ok.inj h).symm⟩
        have htail := ih none [] _ rest rfl hrest
        rw [encodeUtf8_cons,hc,htail,List.nil_append]
      rintro (_ | p) seen offset text hseen h
      · obtain rfl : seen = [] := hseen
        rw [scan] at h
        cases hfirst : first b with
        | inr p =>
          rw [hfirst] at h
          exact ih (some p) [b] offset text (begun_first hfirst) h
        | inl item =>
          rw [hfirst] at h
          cases item with
          | broken => cases h
          | scalar c =>
            have hc : String.utf8EncodeChar c = [b] := by
              unfold first at hfirst
              split_ifs at hfirst with hascii
              all_goals cases hfirst
              exact encode_ascii hascii
            exact hscalar hc h
      · rw [scan] at h
        split_ifs at h with hb
        · cases hnext : p.next b with
          | inr q =>
            rw [hnext] at h
            have := ih (some q) (seen ++ [b]) offset text (hseen.next hb hnext) h
            simpa using this
          | inl =>
            rw [hnext] at h
            obtain ⟨c,width,rfl,hc⟩ := hseen.last hb hnext
            have := hscalar hc h
            simpa using this
        · cases h
  simpa using key bytes none [] offset text rfl h

theorem scan_ne_nil {bytes : List UInt8} (pending : Option Pending) (h : bytes ≠ []) :
    scan pending bytes ≠ [] := by
  induction bytes generalizing pending with
  | nil => exact absurd rfl h
  | cons b bytes ih =>
    have hsome : ∀ p : Pending, scan (some p) bytes ≠ [] := by
      intro p
      cases bytes with
      | nil => simp [scan]
      | cons => exact ih (some p) (by simp)
    cases pending with
    | none =>
      rw [scan]
      split
      · simp
      · exact hsome _
    | some =>
      rw [scan]
      split_ifs
      · split
        · simp
        · exact hsome _
      · simp

theorem scan_cut {xs ys : List UInt8} {pending : Option Pending} {item : Item} (hys : ys ≠ [])
    (hxs : xs ≠ [] ∨ pending ≠ none) (h : scan pending (xs ++ ys) = [item]) :
    scan pending xs = [.broken none] := by
  induction xs generalizing pending with
  | nil =>
    cases pending with
    | none => simp at hxs
    | some => rfl
  | cons b xs ih =>
    have hmore : ∀ q, scan q (xs ++ ys) ≠ [] := fun q => scan_ne_nil q (by simp [hys])
    cases pending with
    | none =>
      rw [List.cons_append,scan] at h
      rw [scan]
      split at h
      · exact absurd (List.cons.inj h).2 (hmore _)
      · exact ih (.inr (by simp)) h
    | some =>
      rw [List.cons_append,scan] at h
      rw [scan]
      split_ifs at h ⊢
      · split at h
        · exact absurd (List.cons.inj h).2 (hmore _)
        · exact ih (.inr (by simp)) h
      · have hrest := (List.cons.inj h).2
        split at hrest
        · cases hrest
        · exact absurd hrest (hmore _)

theorem encodeUtf8_of_fromUtf8 (h : fromUtf8 bytes = .ok text) : encodeUtf8 text = bytes :=
  settle_inv h

end Inverse

section Prefixes
variable {text : List Char} {n : Nat}

theorem encodeChar_ne_nil (c : Char) : String.utf8EncodeChar c ≠ [] := by
  rw [encodeChar_eq]
  split_ifs <;> exact List.cons_ne_nil _ _

theorem encodeUtf8_cut (text : List Char) {n : Nat} (hn : n ≤ (encodeUtf8 text).length) :
    ∃ t rest, text = t ++ rest ∧ (n = (encodeUtf8 t).length ∨ ∃ c rest' k, rest = c :: rest' ∧
      0 < k ∧ k < (String.utf8EncodeChar c).length ∧ n = (encodeUtf8 t).length + k) := by
  induction text generalizing n with
  | nil => exact ⟨[],[],rfl,.inl (Nat.le_zero.1 hn)⟩
  | cons c text ih =>
    rw [encodeUtf8_cons,List.length_append] at hn
    rcases Nat.lt_or_ge n (String.utf8EncodeChar c).length with hlt | hge
    · refine ⟨[],c :: text,rfl,?_⟩
      rcases Nat.eq_zero_or_pos n with rfl | hpos
      · exact .inl rfl
      · exact .inr ⟨c,text,n,rfl,hpos,hlt,(Nat.zero_add n).symm⟩
    · obtain ⟨t,rest,rfl,h⟩ := ih (n := n - (String.utf8EncodeChar c).length) (by omega)
      refine ⟨c :: t,rest,rfl,?_⟩
      rw [encodeUtf8_cons,List.length_append]
      rcases h with h | ⟨c',rest',k,hrest,hpos,hk,h⟩
      · exact .inl (by omega)
      · exact .inr ⟨c',rest',k,hrest,hpos,hk,by omega⟩

theorem getElem?_encodeUtf8 (t rest : List Char) (c : Char) {k : Nat}
    (hk : k < (String.utf8EncodeChar c).length) :
    (encodeUtf8 (t ++ c :: rest))[(encodeUtf8 t).length + k]? = (String.utf8EncodeChar c)[k]? := by
  rw [encodeUtf8_append,List.getElem?_append_right (by omega),encodeUtf8_cons,
    Nat.add_sub_cancel_left,List.getElem?_append_left hk]

theorem encodeUtf8_split {xs ys : List UInt8} (hb : b.toNat < 0x80)
    (h : encodeUtf8 text = xs ++ b :: ys) : ∃ t rest, text = t ++ Char.ofNat b.toNat :: rest ∧
      encodeUtf8 t = xs ∧ encodeUtf8 rest = ys := by
  have hget : (encodeUtf8 text)[xs.length]? = some b := by simp [h]
  obtain ⟨t,rest,rfl,hcut⟩ := encodeUtf8_cut text (n := xs.length) (by simp [h])
  obtain ⟨c,rest,k,rfl,hk,hn⟩ : ∃ c rest' k, rest = c :: rest' ∧
      k < (String.utf8EncodeChar c).length ∧ xs.length = (encodeUtf8 t).length + k := by
    rcases hcut with hn | ⟨c,rest',k,hrest,-,hk,hn⟩
    · cases rest with
      | nil => simp [hn] at hget
      | cons c rest => exact ⟨c,rest,0,rfl,List.length_pos_iff.2 (encodeChar_ne_nil c),hn⟩
    · exact ⟨c,rest',k,hrest,hk,hn⟩
  -- the byte is the whole scalar value
  rw [hn,getElem?_encodeUtf8 t rest c hk] at hget
  have hc := ascii_of_mem_encode c (List.mem_of_getElem? hget) hb
  have hone : String.utf8EncodeChar c = [b] := by
    rw [encodeChar_eq,if_pos (by omega),hc,UInt8.ofNat_toNat]
  obtain rfl : k = 0 := by simpa [hone] using hk
  rw [encodeUtf8_append,encodeUtf8_cons,hone] at h
  obtain ⟨ht,hrest⟩ := List.append_inj h (by omega)
  exact ⟨t,rest,by rw [← hc,Char.ofNat_toNat],ht,(List.cons.inj hrest).2⟩

def isContinuation (b : UInt8) : Bool := decide (0x80 ≤ b) && decide (b < 0xC0)

theorem isCharBoundary_of_getElem? {bytes : List UInt8} (h : bytes[n]? = some b) :
    isCharBoundary bytes n = (n == 0 || !isContinuation b) := by
  rw [isCharBoundary,h]
  rfl

theorem isContinuation_byte (h : n < 256) :
    isContinuation (UInt8.ofNat n) = true ↔ 0x80 ≤ n ∧ n < 0xC0 := by
  simp [isContinuation,UInt8.le_iff_toNat_le,UInt8.lt_iff_toNat_lt,Nat.mod_eq_of_lt h]

theorem encodeChar_continuation (c : Char) : ∃ b tail, String.utf8EncodeChar c = b :: tail ∧
    isContinuation b = false ∧ ∀ t ∈ tail, isContinuation t = true := by
  have hrange := scalar_range c
  rw [encodeChar_eq]
  split_ifs
  all_goals
    refine ⟨_,_,rfl,?_,?_⟩
    · rw [← Bool.not_eq_true,isContinuation_byte (by omega)]
      omega
    · simp only [List.forall_mem_cons,List.not_mem_nil,false_imp_iff,implies_true,and_true]
      repeat' apply And.intro
      all_goals exact (isContinuation_byte (by omega)).2 (by omega)

theorem length_encodeUtf8_le {t : List Char} (h : t <+: text) :
    (encodeUtf8 t).length ≤ (encodeUtf8 text).length := by
  obtain ⟨rest,rfl⟩ := h
  simp [encodeUtf8_append]

theorem length_lt_encodeUtf8 (t : List Char) (c : Char) (s : List Char) :
    (encodeUtf8 t).length < (encodeUtf8 (t ++ c :: s)).length := by
  have := List.length_pos_iff.2 (encodeChar_ne_nil c)
  rw [encodeUtf8_append,encodeUtf8_cons,List.length_append,List.length_append]
  omega

theorem isCharBoundary_encode_iff (hn : n ≤ (encodeUtf8 text).length) :
    isCharBoundary (encodeUtf8 text) n = true ↔ ∃ t, t <+: text ∧ (encodeUtf8 t).length = n := by
  obtain ⟨t,rest,rfl,rfl | ⟨c,rest,k,rfl,hpos,hk,rfl⟩⟩ := encodeUtf8_cut text hn
  · refine iff_of_true ?_ ⟨t,List.prefix_append t rest,rfl⟩
    cases rest with
    | nil => simp [isCharBoundary]
    | cons c rest =>
      obtain ⟨b,tail,hc,hb,-⟩ := encodeChar_continuation c
      have hget := getElem?_encodeUtf8 t rest c (k := 0) (by simp [hc])
      rw [Nat.add_zero,hc] at hget
      simp [isCharBoundary_of_getElem? hget,hb]
  · refine iff_of_false ?_ ?_
    · obtain ⟨b,tail,hc,-,htail⟩ := encodeChar_continuation c
      obtain ⟨k,rfl⟩ := Nat.exists_eq_succ_of_ne_zero hpos.ne'
      rw [hc,List.length_cons,Nat.succ_lt_succ_iff] at hk
      have hget := getElem?_encodeUtf8 t rest c (k := k + 1) (by simp [hc,hk])
      rw [hc,List.getElem?_cons_succ,List.getElem?_eq_getElem hk] at hget
      simp [isCharBoundary_of_getElem? hget,htail _ (List.getElem_mem hk)]
    · rintro ⟨t',ht',hlength⟩
      rcases List.prefix_or_prefix_of_prefix ht' (List.prefix_append t (c :: rest)) with h | h
      · have := length_encodeUtf8_le h
        omega
      · -- a longer beginning holds the whole character
        obtain ⟨s,rfl⟩ := h
        rw [List.prefix_append_right_inj] at ht'
        cases s with
        | nil => simp at hlength; omega
        | cons =>
          obtain rfl := (List.cons_prefix_cons.1 ht').1
          rw [encodeUtf8_append,encodeUtf8_cons,List.length_append,List.length_append] at hlength
          omega

/-- The longest beginning of a text that has at most so many bytes. -/
structure Longest (text t : List Char) (n : Nat) : Prop where
  begins : t <+: text
  fits : (encodeUtf8 t).length ≤ n
  longest : ∀ p, p <+: text → (encodeUtf8 p).length ≤ n → p <+: t

theorem backToBoundary_encode (hn : n ≤ (encodeUtf8 text).length) :
    ∃ t, Longest text t n ∧ backToBoundary (encodeUtf8 text) n = (encodeUtf8 t).length := by
  induction n with
  | zero =>
    refine ⟨[],⟨List.nil_prefix,Nat.le_refl 0,fun p _ hp => ?_⟩,rfl⟩
    cases p with
    | nil => exact List.nil_prefix
    | cons c p =>
      have := length_lt_encodeUtf8 [] c p
      exact absurd hp (Nat.not_le_of_lt this)
  | succ n ih =>
    rw [backToBoundary]
    by_cases hboundary : isCharBoundary (encodeUtf8 text) (n + 1) = true
    · obtain ⟨t,ht,hlength⟩ := (isCharBoundary_encode_iff hn).1 hboundary
      rw [if_pos hboundary]
      refine ⟨t,⟨ht,hlength.le,fun p hp hfits => ?_⟩,hlength.symm⟩
      rcases List.prefix_or_prefix_of_prefix hp ht with h | ⟨s,rfl⟩
      · exact h
      · cases s with
        | nil => simp
        | cons c s =>
          have := length_lt_encodeUtf8 t c s
          omega
    · obtain ⟨t,ht,hback⟩ := ih (by omega)
      rw [if_neg hboundary]
      refine ⟨t,⟨ht.begins,Nat.le_succ_of_le ht.fits,fun p hp hfits => ?_⟩,hback⟩
      refine ht.longest p hp (Nat.le_of_lt_succ (Nat.lt_of_le_of_ne hfits fun h => ?_))
      exact hboundary ((isCharBoundary_encode_iff hn).2 ⟨p,hp,h⟩)

end Prefixes
theorem singleLine_encodeUtf8 {text : List Char} (h : SingleLine '\n' '\r' text) :
    SingleLine 10 13 (encodeUtf8 text) := by
  refine ⟨fun hmem => h.1 (ascii_of_mem_encodeUtf8 hmem (by decide)),fun hlast => ?_⟩
  rcases List.eq_nil_or_concat text with rfl | ⟨text,c,rfl⟩
  · cases hlast
  · have hbytes : encodeUtf8 [c] = String.utf8EncodeChar c := by simp [encodeUtf8]
    rw [List.concat_eq_append,encodeUtf8_append,hbytes,
      List.getLast?_append_of_ne_nil _ (encodeChar_ne_nil c)] at hlast
    have hc := ascii_of_mem_encode c (List.mem_of_getLast? hlast) (by decide)
    have hret : c = '\r' := by
      rw [← Char.ofNat_toNat c,hc]
      rfl
    exact h.2 (by rw [hret,List.concat_eq_append,List.getLast?_concat])

theorem textLines_terminated {lines : List (List Char)}
    (h : ∀ line ∈ lines, SingleLine '\n' '\r' line) :
    textLines (terminated '\n' lines) = lines := by
  have hsplit : (terminated '\n' lines).splitOn '\n' = lines ++ [[]] := by
    induction lines with
    | nil => rfl
    | cons line lines ih =>
      obtain ⟨⟨hline,-⟩,hlines⟩ := List.forall_mem_cons.1 h
      have hfirst : line.splitOn '\n' = [line] := List.splitOnP_eq_singleton fun c hc => by
        simpa using ne_of_mem_of_not_mem hc hline
      have hcons : terminated '\n' (line :: lines) = line ++ '\n' :: terminated '\n' lines := by
        simp [terminated]
      rw [hcons,List.splitOn,List.splitOnP_append_cons _ _ (by simp)]
      change line.splitOn '\n' ++ (terminated '\n' lines).splitOn '\n' = _
      rw [hfirst,ih hlines]
      rfl
  have hkept : (lines.map fun line => if line.getLast? = some '\r' then line.dropLast else line) =
      lines := by
    refine (List.map_congr_left fun line hline => ?_).trans (List.map_id lines)
    exact if_neg (h line hline).2
  simp [textLines,hsplit,hkept]

end WatchMe.Text
