import Mathlib.Algebra.BigOperators.Group.List.Basic
import Mathlib.Algebra.Order.Ring.Int

/-! # Compact JSON text

Values as they are written without blanks, and how many bytes a sequence of them takes.
-/
namespace WatchMe.Text

def hexDigit (n : Nat) : Char := Char.ofNat (if n < 10 then 48 + n else 87 + n)

def jsonEscape (c : Char) : String :=
  if c = '"' then "\\\""
  else if c = '\\' then "\\\\"
  else if c = '\x08' then "\\b"
  else if c = '\x0c' then "\\f"
  else if c = '\n' then "\\n"
  else if c = '\r' then "\\r"
  else if c = '\t' then "\\t"
  else if c.toNat < 32 then
    "\\u00" ++ String.ofList [hexDigit (c.toNat / 16),hexDigit (c.toNat % 16)]
  else String.singleton c

def jsonEscaped : List Char → String
  | [] => ""
  | c :: cs => jsonEscape c ++ jsonEscaped cs

def jsonString (text : String) : String := "\"" ++ jsonEscaped text.toList ++ "\""

def separated : List String → String
  | [] => ""
  | [item] => item
  | item :: items => item ++ "," ++ separated items

def jsonArray (items : List String) : String := "[" ++ separated items ++ "]"

def jsonField (field : String × String) : String := jsonString field.1 ++ ":" ++ field.2

def jsonObject (fields : List (String × String)) : String :=
  "\x7b" ++ separated (fields.map jsonField) ++ "\x7d"

theorem jsonEscaped_append (cs ds : List Char) :
    jsonEscaped (cs ++ ds) = jsonEscaped cs ++ jsonEscaped ds := by
  induction cs with
  | nil => simp [jsonEscaped]
  | cons c cs ih => simp [jsonEscaped,ih,String.append_assoc]

def quotedSize (text : String) : Nat := (jsonString text).utf8ByteSize

theorem quotedSize_append (a b : String) :
    quotedSize (a ++ b) + 2 = quotedSize a + quotedSize b := by
  have hquote : ("\"").utf8ByteSize = 1 := by decide
  simp only [quotedSize,jsonString,String.toList_append,jsonEscaped_append,
    String.utf8ByteSize_append,hquote]
  omega

def listed (items : List String) : Nat := (items.map fun item => item.utf8ByteSize + 1).sum

theorem separated_size (items : List String) :
    (separated items).utf8ByteSize = listed items - 1 := by
  induction items with
  | nil => rfl
  | cons item items ih =>
    cases items with
    | nil => simp [separated,listed]
    | cons =>
      have hcomma : (",").utf8ByteSize = 1 := by decide
      simp only [separated,String.utf8ByteSize_append,ih,hcomma]
      simp only [listed,List.map_cons,List.sum_cons]
      omega

theorem listed_perm {items items' : List String} (h : items.Perm items') :
    listed items = listed items' :=
  (h.map _).sum_eq

theorem hexDigit_ne_newline : ∀ n < 16, hexDigit n ≠ '\n' := by decide

theorem newline_not_mem_jsonEscape (c : Char) : '\n' ∉ (jsonEscape c).toList := by
  unfold jsonEscape
  split_ifs with _ _ _ _ hnewline _ _ hcontrol
  -- The letters that stand for a control character.
  all_goals try decide
  · have hhigh := hexDigit_ne_newline (c.toNat / 16) (by omega)
    have hlow := hexDigit_ne_newline (c.toNat % 16) (Nat.mod_lt _ (by decide))
    simp [String.toList_append,hhigh.symm,hlow.symm]
  · simpa using Ne.symm hnewline

theorem newline_not_mem_jsonString (text : String) : '\n' ∉ (jsonString text).toList := by
  have hescaped : ∀ cs : List Char, '\n' ∉ (jsonEscaped cs).toList := by
    intro cs
    induction cs with
    | nil => decide
    | cons c cs ih => simpa [jsonEscaped] using ⟨newline_not_mem_jsonEscape c,ih⟩
  simpa [jsonString] using hescaped text.toList

theorem newline_not_mem_separated {items : List String} (h : ∀ item ∈ items, '\n' ∉ item.toList) :
    '\n' ∉ (separated items).toList := by
  induction items with
  | nil => decide
  | cons item items ih =>
    obtain ⟨hitem,hitems⟩ := List.forall_mem_cons.1 h
    cases items with
    | nil => exact hitem
    | cons => simpa [separated] using ⟨hitem,ih hitems⟩

theorem newline_not_mem_jsonObject {fields : List (String × String)}
    (h : ∀ field ∈ fields, '\n' ∉ field.2.toList) : '\n' ∉ (jsonObject fields).toList := by
  have hfields : '\n' ∉ (separated (fields.map jsonField)).toList := by
    refine newline_not_mem_separated fun item hitem => ?_
    obtain ⟨field,hfield,rfl⟩ := List.mem_map.1 hitem
    simpa [jsonField] using ⟨newline_not_mem_jsonString field.1,h field hfield⟩
  simpa [jsonObject] using hfields

theorem getLast?_jsonObject (fields : List (String × String)) :
    (jsonObject fields).toList.getLast? = some '\x7d' := by
  simp only [jsonObject,String.toList_append]
  exact List.getLast?_concat

end WatchMe.Text
