import Mathlib.Algebra.Order.Ring.Int
import Mathlib.Data.List.DropRight

/-! # Reading bytes as text

UTF-8 as `std::str::from_utf8` reads it, one byte at a time, with the place and the length of
the first error; a decoder that replaces errors; and the integers of `str::parse`.
-/
namespace WatchMe.Text

theorem toList_loop (bytes : ByteArray) (i : Nat) (done : List UInt8) :
    ByteArray.toList.loop bytes i done = done.reverse ++ bytes.data.toList.drop i := by
  fun_induction ByteArray.toList.loop bytes i done with
  | case1 i done hlt ih =>
    have hlength : i < bytes.data.toList.length := by simpa using hlt
    rw [ih,List.drop_eq_getElem_cons hlength,List.reverse_cons,List.append_assoc]
    simp [ByteArray.get!,hlt]
  | case2 i done hle => rw [List.drop_eq_nil_of_le (by simpa using hle),List.append_nil]

theorem byteArray_toList (bytes : ByteArray) : bytes.toList = bytes.data.toList := by
  rw [ByteArray.toList,toList_loop,List.reverse_nil,List.nil_append,List.drop_zero]

/-- The start of a scalar value: its bits so far, the bytes read, the bytes that are missing and
the bounds of the next one. -/
structure Pending where
  bits : Nat
  read : Nat
  left : Nat
  low : UInt8
  high : UInt8

/-- A scalar value with the number of its bytes, or bytes that are none. The length of an error
is unknown where the bytes end. -/
inductive Item where
  | scalar (c : Char) (width : Nat)
  | broken (length : Option Nat)
  deriving DecidableEq

/-- The first byte of a scalar value says how many follow. -/
def first (b : UInt8) : Item ⊕ Pending :=
  if b < 0x80 then .inl (.scalar (Char.ofNat b.toNat) 1)
  else if 0xC2 ≤ b ∧ b ≤ 0xDF then .inr ⟨b.toNat % 0x20,1,1,0x80,0xBF⟩
  else if b = 0xE0 then .inr ⟨0,1,2,0xA0,0xBF⟩
  else if b = 0xED then .inr ⟨0xD,1,2,0x80,0x9F⟩
  else if 0xE1 ≤ b ∧ b ≤ 0xEF then .inr ⟨b.toNat % 0x10,1,2,0x80,0xBF⟩
  else if b = 0xF0 then .inr ⟨0,1,3,0x90,0xBF⟩
  else if 0xF1 ≤ b ∧ b ≤ 0xF3 then .inr ⟨b.toNat % 8,1,3,0x80,0xBF⟩
  else if b = 0xF4 then .inr ⟨4,1,3,0x80,0x8F⟩
  else .inl (.broken (some 1))

/-- A further byte of a scalar value. -/
def Pending.next (p : Pending) (b : UInt8) : Item ⊕ Pending :=
  let bits := p.bits * 0x40 + b.toNat % 0x40
  if p.left = 1 then .inl (.scalar (Char.ofNat bits) (p.read + 1))
  else .inr ⟨bits,p.read + 1,p.left - 1,0x80,0xBF⟩

/-- A byte that does not go on ends the broken scalar value and is read anew. -/
def scan : Option Pending → List UInt8 → List Item
  | none, [] => []
  | some _, [] => [.broken none]
  | none, b :: bytes =>
    match first b with
    | .inl item => item :: scan none bytes
    | .inr p => scan (some p) bytes
  | some p, b :: bytes =>
    if p.low ≤ b ∧ b ≤ p.high then
      match p.next b with
      | .inl item => item :: scan none bytes
      | .inr p => scan (some p) bytes
    else
      .broken (some p.read) :: match first b with
        | .inl item => item :: scan none bytes
        | .inr p => scan (some p) bytes

structure Utf8Error where
  validUpTo : Nat
  errorLen : Option Nat
  deriving DecidableEq

def settle (offset : Nat) : List Item → Except Utf8Error (List Char)
  | [] => .ok []
  | .scalar c width :: items => (settle (offset + width) items).map (c :: ·)
  | .broken length :: _ => .error ⟨offset,length⟩

def fromUtf8 (bytes : List UInt8) : Except Utf8Error (List Char) := settle 0 (scan none bytes)

def lossy (bytes : List UInt8) : List Char :=
  (scan none bytes).map fun
    | .scalar c _ => c
    | .broken _ => Char.ofNat 0xFFFD

/-- `str::is_char_boundary`: no continuation byte stands there. -/
def isCharBoundary (bytes : List UInt8) (index : Nat) : Bool :=
  index == 0 || match bytes[index]? with
    | none => index == bytes.length
    | some b => !(decide (0x80 ≤ b) && decide (b < 0xC0))

/-- `while !is_char_boundary(index) { index -= 1 }`. -/
def backToBoundary (bytes : List UInt8) : Nat → Nat
  | 0 => 0
  | index + 1 =>
    if isCharBoundary bytes (index + 1) then index + 1 else backToBoundary bytes index

theorem backToBoundary_length (bytes : List UInt8) :
    backToBoundary bytes bytes.length = bytes.length := by
  cases hlen : bytes.length with
  | zero => rfl
  | succ n =>
    have hboundary : isCharBoundary bytes (n + 1) = true := by
      simp [isCharBoundary,hlen]
    rw [backToBoundary,if_pos hboundary]

/-- A reader that goes on after its limit but keeps only one byte more than it. -/
def readBounded (limit : Nat) (chunks : List (List UInt8)) : List UInt8 :=
  chunks.foldl (fun result chunk =>
    if result.length ≤ limit then result ++ chunk.take (limit + 1 - result.length) else result) []

theorem readBounded_eq (limit : Nat) (chunks : List (List UInt8)) :
    readBounded limit chunks = chunks.flatten.take (limit + 1) := by
  have hstep : ∀ (chunks : List (List UInt8)) (before : List UInt8),
      chunks.foldl (fun result chunk => if result.length ≤ limit then
          result ++ chunk.take (limit + 1 - result.length) else result)
        (before.take (limit + 1)) = (before ++ chunks.flatten).take (limit + 1) := by
    intro chunks
    induction chunks with
    | nil => simp
    | cons chunk chunks ih =>
      intro before
      have hnext : (if (before.take (limit + 1)).length ≤ limit then
          before.take (limit + 1) ++ chunk.take (limit + 1 - (before.take (limit + 1)).length)
          else before.take (limit + 1)) = (before ++ chunk).take (limit + 1) := by
        by_cases hfull : before.length ≤ limit
        · have htake : before.take (limit + 1) = before := List.take_of_length_le (by omega)
          rw [htake,if_pos hfull,List.take_append,htake]
        · have hlen : (before.take (limit + 1)).length = limit + 1 := by
            rw [List.length_take]
            omega
          rw [if_neg (by omega),List.take_append_of_le_length (by omega)]
      rw [List.foldl_cons,hnext,ih,List.flatten_cons,List.append_assoc]
  simpa [readBounded] using hstep chunks []

/-- `str::lines`: a line ends with a newline, or with a carriage return and a newline. -/
def textLines (text : List Char) : List (List Char) :=
  let parts := text.splitOn '\n'
  let ended := parts.dropLast.map fun line =>
    if line.getLast? = some '\r' then line.dropLast else line
  match parts.getLast? with
  | none | some [] => ended
  | some last => ended ++ [last]

def isAsciiWhitespace (c : Char) : Bool :=
  c == ' ' || c == '\t' || c == '\n' || c == '\r' || c == Char.ofNat 0xC

def words (text : List Char) : List (List Char) :=
  (text.splitOnP isAsciiWhitespace).filter (· ≠ [])

def digitsValue (digits : List Char) : Nat :=
  digits.foldl (fun n c => 10 * n + (c.toNat - '0'.toNat)) 0

/-- `str::parse` of an unsigned integer: digits, after an optional sign `+`. -/
def parseUnsigned (max : Nat) (text : List Char) : Option Nat :=
  let digits := if text.head? = some '+' then text.tail else text
  if digits ≠ [] ∧ digits.all Char.isDigit ∧ digitsValue digits ≤ max then
    some (digitsValue digits)
  else none

def parseSigned (max : Nat) (text : List Char) : Option Int :=
  match text with
  | '-' :: digits =>
    if digits ≠ [] ∧ digits.all Char.isDigit ∧ digitsValue digits ≤ max + 1 then
      some (-(digitsValue digits : Int))
    else none
  | _ => (parseUnsigned max text).map Int.ofNat

/-- `text[find(word)..]`: the text from the first occurrence of the word on. -/
def fromFirst (word : List Char) : List Char → Option (List Char)
  | [] => if word = [] then some [] else none
  | c :: text => if word.isPrefixOf (c :: text) then some (c :: text) else fromFirst word text

def occurs (word : String) (text : List Char) : Bool := (fromFirst word.toList text).isSome

def splitOnce (separator : Char) : List Char → Option (List Char × List Char)
  | [] => none
  | c :: text =>
    if c = separator then some ([],text)
    else (splitOnce separator text).map fun (before,after) => (c :: before,after)

def trimMatches (p : Char → Bool) (text : List Char) : List Char :=
  ((text.dropWhile p).reverse.dropWhile p).reverse

theorem trimMatches_map {p : Char → Bool} {f : Char → Char} (hp : ∀ c, p (f c) = p c)
    (text : List Char) : trimMatches p (text.map f) = (trimMatches p text).map f := by
  have hcomp : p ∘ f = p := funext hp
  simp only [trimMatches,List.dropWhile_map,hcomp,← List.map_reverse]

theorem trimMatches_trimMatches (p : Char → Bool) (text : List Char) :
    trimMatches p (trimMatches p text) = trimMatches p text := by
  -- What is left after the end was trimmed starts as the text did.
  have hhead : ∀ l : List Char, (∀ h : 0 < l.length, ¬ p l[0]) →
      ∀ h : 0 < (l.rdropWhile p).length, ¬ p (l.rdropWhile p)[0] := by
    intro l hl h
    rw [(List.rdropWhile_prefix p (l := l)).getElem h]
    exact hl _
  have hleft : ((text.dropWhile p).rdropWhile p).dropWhile p =
      (text.dropWhile p).rdropWhile p :=
    List.dropWhile_eq_self_iff.2 (hhead _ (List.dropWhile_eq_self_iff.1
      (List.dropWhile_idempotent ..)))
  change (((text.dropWhile p).rdropWhile p).dropWhile p).rdropWhile p = _
  rw [hleft]
  exact List.rdropWhile_idempotent ..

/-- What stands after the last occurrence of a word: `rfind`. -/
def afterLast (word : List Char) : List Char → Option (List Char)
  | [] => none
  | c :: text =>
    match afterLast word text with
    | some rest => some rest
    | none => if word.isPrefixOf (c :: text) then some ((c :: text).drop word.length) else none

end WatchMe.Text
