import WatchMe.Daemon.Executor
import WatchMe.Agents.Codex
import WatchMe.Text.Reading

/-! # What the end of a screen says about the composer

The daemon types only into a composer that looks empty. For most panes this is read off the
last line of a short capture; a native Codex pane has a prompt and a footer.
-/
namespace WatchMe
open Text

inductive ComposerState where
  | safe
  | unsafe_
  | unknown
  | stale
  deriving DecidableEq, Repr

def isBlank (line : List Char) : Bool := line.all isWhiteSpace

def endsBlank (text : List Char) : Bool :=
  match (textLines text).getLast? with
  | none => true
  | some line => isBlank line

def trimStart (line : List Char) : List Char := line.dropWhile isWhiteSpace

def trimChars (line : List Char) : List Char :=
  ((trimStart line).reverse.dropWhile isWhiteSpace).reverse

/-- `str::matches(..).count()`: the matches do not overlap. -/
def countMatches (word : List Char) : Nat → List Char → Nat
  | 0, _ => 0
  | _ + 1, [] => 0
  | fuel + 1, c :: cs =>
    if word.isPrefixOf (c :: cs) then countMatches word fuel ((c :: cs).drop word.length) + 1
    else countMatches word fuel cs

namespace CodexComposer

def emptyPlaceholders : List String :=
  ["Explain this codebase","Summarize recent commits","Implement \x7bfeature\x7d",
    "Find and fix a bug in @filename","Write tests for @filename",
    "Improve documentation in @filename","Run /review on my current changes",
    "Use /skills to list available skills",
    "Check recently modified functions for compatibility","How many files have been modified?",
    "Will this algorithm scale well?"]

def looksLikeFooter (footer : List Char) : Bool :=
  decide (2 ≤ countMatches " · ".toList (footer.length + 1) footer)
    && (containsText "Context ".toList footer || containsText "Goal blocked".toList footer
      || containsText "Pursuing goal".toList footer)

def isPrompt (line : List Char) : Bool := (trimStart line).head? == some '›'

/-- What stands between a prompt and the end: only blank lines, then a footer. -/
def footerState (prompt : List Char) (after : List (List Char)) : ComposerState :=
  match after.reverse.dropWhile isBlank with
  | [] => .unknown
  | footer :: before =>
    if !before.all isBlank || !looksLikeFooter (trimChars footer) then .unsafe_
    else if prompt.isEmpty || emptyPlaceholders.any (fun known => known.toList == prompt) then
      .safe
    else .unsafe_

def stateFromRecent (text : List Char) : ComposerState :=
  let lines := (textLines text).reverse
  match lines.dropWhile (fun line => !isPrompt line) with
  | [] => .unknown
  | line :: _ =>
    footerState (trimChars (trimStart line).tail)
      (lines.takeWhile fun line => !isPrompt line).reverse

end CodexComposer

namespace RuntimeComposerSafety

def nativeCodex (watcher : WatcherState) : Bool :=
  watcher.codexSession.isSome && (match watcher.target.observationContext with
    | some (.herdr _ _ _ _ _ _ .native16) => true
    | _ => false)

def captureLines (watcher : WatcherState) : Nat := if nativeCodex watcher then 12 else 3

def captureBytes (watcher : WatcherState) : Nat := if nativeCodex watcher then 4096 else 1024

def stateOf (watcher : WatcherState) (text : List Char) : ComposerState :=
  if nativeCodex watcher then CodexComposer.stateFromRecent text
  else if endsBlank text then .safe
  else .unsafe_

end RuntimeComposerSafety

end WatchMe
