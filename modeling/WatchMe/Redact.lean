import Mathlib.Data.Finset.Insert
import Mathlib.Data.Finset.Lattice.Basic
import WatchMe.Model.Event

/-! # Redaction of JSON values

The patterns of `redact_text` are a parameter.
-/
namespace WatchMe

structure RedactionReport where
  replacementCount : Nat
  categories : Finset String

namespace RedactionReport

def mark (report : RedactionReport) (category : String) (count : Nat) : RedactionReport :=
  if count = 0 then report
  else ⟨report.replacementCount + count,insert category report.categories⟩

def merge (report other : RedactionReport) : RedactionReport :=
  ⟨report.replacementCount + other.replacementCount,report.categories ∪ other.categories⟩

end RedactionReport

class RedactText where
  redactText : String → List String → String × RedactionReport

def sensitiveQueryKey (key : String) : Bool :=
  let lower := key.toList.map Char.toLower
  ["access_token","api_key","apikey","auth","authorization","credential","key","password","secret",
    "signature","sig","token","x-amz-credential","x-amz-signature","x-goog-signature"].any
      (·.toList == lower) ||
    "token".toList.isSuffixOf lower || "signature".toList.isSuffixOf lower

def sensitiveFieldName (key : String) (extraSecretNames : List String) : Bool :=
  let lower := key.toList.map Char.toLower
  sensitiveQueryKey (.ofList lower) ||
    ["password","secret","token","api_key","apikey","cookie"].any (fun part => lower.tails.any part.toList.isPrefixOf) ||
    extraSecretNames.any (· == key)

section

variable [RedactText] (extraSecretNames : List String)

mutual

def walk : Json → RedactionReport → Json × RedactionReport
  | .object map, report =>
    let (out,report) := walkFields map report
    (.object out,report)
  | .array items, report =>
    let (out,report) := walkItems items report
    (.array out,report)
  | .string text, report =>
    let (redacted,found) := RedactText.redactText text extraSecretNames
    (.string redacted,report.merge found)
  | other, report => (other,report)

def walkItems : List Json → RedactionReport → List Json × RedactionReport
  | [], report => ([],report)
  | item :: items, report =>
    let (first,report) := walk item report
    let (rest,report) := walkItems items report
    (first :: rest,report)

def walkFields : List (String × Json) → RedactionReport → List (String × Json) × RedactionReport
  | [], report => ([],report)
  | (key,child) :: fields, report =>
    let first :=
      if sensitiveFieldName key extraSecretNames then
        (.string "<REDACTED:FIELD>",report.mark "sensitive_field" 1)
      else walk child report
    let rest := walkFields fields first.2
    ((key,first.1) :: rest.1,rest.2)

end

def redactJson (value : Json) : Json × RedactionReport := walk extraSecretNames value ⟨0,∅⟩

end

section

variable (names : List String) (text : String → String)

mutual

/-- A value without what is stored under sensitive names, and with its texts replaced. -/
def outline : Json → Json
  | .object fields => .object (outlineFields fields)
  | .array items => .array (outlineItems items)
  | .string s => .string (text s)
  | other => other

def outlineItems : List Json → List Json
  | [] => []
  | item :: items => outline item :: outlineItems items

def outlineFields : List (String × Json) → List (String × Json)
  | [] => []
  | (key,child) :: fields =>
    (key,if sensitiveFieldName key names then .null else outline child) :: outlineFields fields

end

end

section

variable [RedactText] (names : List String)

mutual

/-- An outline with the texts as they are is walked alike, and one without them is left alike. -/
theorem walk_outline (value : Json) (report : RedactionReport) :
    walk names (outline names id value) report = walk names value report ∧
    outline names (fun _ => "") (walk names value report).1 =
      outline names (fun _ => "") value := by
  cases value with
  | object fields => simp [outline,walk,walkFields_outline fields]
  | array items => simp [outline,walk,walkItems_outline items]
  | _ => exact ⟨rfl,rfl⟩

theorem walkItems_outline (items : List Json) (report : RedactionReport) :
    walkItems names (outlineItems names id items) report = walkItems names items report ∧
    outlineItems names (fun _ => "") (walkItems names items report).1 =
      outlineItems names (fun _ => "") items := by
  match items with
  | [] => exact ⟨rfl,rfl⟩
  | item :: items => simp [outlineItems,walkItems,walk_outline item,walkItems_outline items]

theorem walkFields_outline (fields : List (String × Json)) (report : RedactionReport) :
    walkFields names (outlineFields names id fields) report = walkFields names fields report ∧
    outlineFields names (fun _ => "") (walkFields names fields report).1 =
      outlineFields names (fun _ => "") fields := by
  match fields with
  | [] => exact ⟨rfl,rfl⟩
  | (key,child) :: fields =>
    by_cases hkey : sensitiveFieldName key names = true
    · simp only [outlineFields,walkFields,hkey,if_true,walkFields_outline fields,and_self]
    · simp only [outlineFields,walkFields,hkey,if_false,Bool.false_eq_true,walk_outline child,
        walkFields_outline fields,and_self]

end

theorem redactJson_hides (value other : Json) :
    (outline names id value = outline names id other →
      redactJson names value = redactJson names other) ∧
    outline names (fun _ => "") (redactJson names value).1 =
      outline names (fun _ => "") value := by
  refine ⟨fun h => ?_,(walk_outline names value _).2⟩
  rw [redactJson,← (walk_outline names value _).1,h,(walk_outline names other _).1,redactJson]

end

end WatchMe
