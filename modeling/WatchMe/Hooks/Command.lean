import WatchMe.Model.Event
import WatchMe.Text.Utf8

/-! # The command of the hook

A shell runs it, with the path of the markers in it as the user has set it.
-/
namespace WatchMe

open Text

def validateMarkerPath (marker : List UInt8) : Except String Unit :=
  if marker.head? ≠ some 47 ∨ marker = [] ∨ marker.any (fun byte => byte ∈ [0,10,13]) then
    .error "hook marker path must be an absolute single-line path"
  else .ok ()

def posixSingleQuote (value : List Char) : List Char :=
  '\'' :: value.flatMap (fun c => if c = '\'' then ['\'','\\','\'','\''] else [c]) ++ ['\'']

def stopFailureCommand (marker : List UInt8) : Except String (List Char) := do
  validateMarkerPath marker
  return "watchme watchme-hook-stop-failure --marker ".toList ++ posixSingleQuote (lossy marker)

def shellWords : Bool → Option (List Char) → List Char → Option (List (List Char))
  | true, _, [] => none
  | true, word, c :: rest =>
    if c = '\'' then shellWords false word rest
    else shellWords true (word.map (· ++ [c])) rest
  | false, word, [] => some word.toList
  | false, word, '\\' :: c :: rest =>
    if c = '\n' then none else shellWords false (some (word.getD [] ++ [c])) rest
  | false, word, c :: rest =>
    if c = '\'' then shellWords true (some (word.getD [])) rest
    else if c = ' ' then (shellWords false none rest).map (word.toList ++ ·)
    else if c.isAlphanum ∨ c = '-' then shellWords false (some (word.getD [] ++ [c])) rest
    else none

theorem shellWords_quoted (value word rest : List Char) :
    shellWords true (some word) ((posixSingleQuote value).tail ++ rest) =
      shellWords false (some (word ++ value)) rest := by
  induction value generalizing word with
  | nil => simp [posixSingleQuote,shellWords]
  | cons c value ih =>
    have ih := ih (word ++ [c])
    by_cases hc : c = '\''
    all_goals simp_all [posixSingleQuote,shellWords]

theorem stopFailureCommand_words {marker : List UInt8} {path command : List Char}
    (hutf8 : fromUtf8 marker = .ok path) (hcommand : stopFailureCommand marker = .ok command) :
    ∃ word, shellWords false none command = some ["watchme".toList,
      "watchme-hook-stop-failure".toList,"--marker".toList,word] ∧ encodeUtf8 word = marker := by
  obtain ⟨-,-,heq⟩ := bind_ok_iff.1 hcommand
  have hpath := encodeUtf8_of_fromUtf8 hutf8
  obtain rfl := Except.ok.inj heq
  refine ⟨path,?_,hpath⟩
  rw [← hpath,lossy_encodeUtf8]
  have h := shellWords_quoted path [] []
  rw [List.append_nil,List.nil_append] at h
  have : shellWords false none (posixSingleQuote path) = some [path] := by
    rw [posixSingleQuote] at *
    simpa [shellWords] using h
  simp [shellWords,this]

theorem stopFailureCommand_words_quote : ∃ word, shellWords false none
      "watchme watchme-hook-stop-failure --marker '/a'\\''$(b)'".toList =
    some ["watchme".toList,"watchme-hook-stop-failure".toList,"--marker".toList,word] ∧
    encodeUtf8 word = encodeUtf8 "/a'$(b)".toList :=
  stopFailureCommand_words (fromUtf8_encodeUtf8 _) (by decide)

end WatchMe
