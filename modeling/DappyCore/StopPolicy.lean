import DappyCore.Lib.Text
import DappyCore.Paths
import DappyCore.Transport
import Mathlib.Algebra.Ring.Nat

/-!
When the client itself stops or goes on: source paths that match, hit conditions, and patterns of
paths to skip.
-/

namespace DappyCore.StopPolicy

open Lib.Text Transport Paths

/-! ### Source paths -/

/-- Slashes for backslashes, and none at the end. -/
def normalize (path : List Char) : List Char :=
  (path.map fun c => if c = '\\' then '/' else c).rdropWhile (· = '/')

/-- Match stored breakpoint paths against stack-frame paths (slashes, suffixes, basenames). -/
def sourcePathsMatch (stored current : List Char) : Bool :=
  if stored = current then true
  else
    let storedNorm := normalize stored
    let currentNorm := normalize current
    if storedNorm = currentNorm then true
    else if storedNorm.isSuffixOf currentNorm || currentNorm.isSuffixOf storedNorm ||
        ('/' :: storedNorm).isSuffixOf currentNorm ||
        ('/' :: currentNorm).isSuffixOf storedNorm then
      true
    else (fileName storedNorm).isSome && fileName storedNorm = fileName currentNorm

/-! ### Hit conditions -/

/-- `str::parse::<u32>`. -/
def parseU32 (text : List Char) : Option UInt32 :=
  ((parseUsize text).filter (· < 2 ^ 32)).map UInt32.ofNat

/-- Whether a hit condition is satisfied for the given stop count. -/
def hitCountMatches (hitCondition : List Char) (count : UInt32) : Bool :=
  let trimmed := trim hitCondition
  if trimmed = [] then true
  else
    match ['>', '='].isPrefixOf? trimmed with
    | some rest => (parseU32 (trim rest)).getD 0 ≤ count
    | none =>
    match ['<', '='].isPrefixOf? trimmed with
    | some rest => count ≤ (parseU32 (trim rest)).getD 0
    | none =>
    match ['>'].isPrefixOf? trimmed with
    | some rest => (parseU32 (trim rest)).getD 0 < count
    | none =>
    match ['<'].isPrefixOf? trimmed with
    | some rest => count < (parseU32 (trim rest)).getD 0
    | none =>
    match ['%'].isPrefixOf? trimmed with
    | some rest =>
      let modulus := max ((parseU32 (trim rest)).getD 1) 1
      count % modulus = 0
    | none => (parseU32 trimmed).getD 1 ≤ count

/-! ### Patterns -/

/-- The loop over the parts of a pattern, of which there are `count`, from one on. A slice that
is not of a text panics. -/
def matchParts (count : ℕ) : ℕ → List (List Char) → List Char → Option Bool
  | _, [], _ => some true
  | index, part :: parts, cursor =>
    if part = [] then matchParts count (index + 1) parts cursor
    else if index = 0 then
      if part.isPrefixOf cursor then
        (sliceFrom cursor (size part)).bind (matchParts count (index + 1) parts)
      else some false
    else if index = count - 1 then some (part.isSuffixOf cursor)
    else
      match find part cursor with
      | some pos => (sliceFrom cursor (pos + size part)).bind (matchParts count (index + 1) parts)
      | none => some false

/-- Match a source path against a skip pattern (`*` wildcards supported). -/
def pathMatchesSkip (path pattern : List Char) : Option Bool :=
  if pattern = [] then some false
  else if '*' ∈ pattern then
    let parts := pattern.splitOn '*'
    matchParts parts.length 0 parts path
  else some (find pattern path).isSome

/-- Path substrings hidden from default stack traces (`bt` without `full`). -/
def defaultHiddenStackPatterns : List (List Char) :=
  ["site-packages", "runpy.py", "/runpy", "_run_code", "/rustc/", "/target/deps/",
    "debugpy/"].map String.toList

def isHiddenStackFrame (path : List Char) (full : Bool) : Option Bool :=
  if full then some false else defaultHiddenStackPatterns.anyM (pathMatchesSkip path)

/-- When smart-step is enabled, auto-continue through runtime/stdlib frames. -/
def smartStepShouldSkip (path : List Char) (enabled : Bool) : Option Bool :=
  if enabled then isHiddenStackFrame path false else some false

end DappyCore.StopPolicy
