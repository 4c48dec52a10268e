import Omux.Setup.Registry
import Omux.Library.Json

/-!
# The managed section of a Git config

Installing appends one marked section.  Removing takes it out again, from an edited file
only if the section itself is intact and what follows it can stand alone.
-/

namespace Omux.Setup

open Library

def beginMarker : Bytes := ascii "# BEGIN OMUX GIT INTEGRATION v1\n"
def endMarker : Bytes := ascii "# END OMUX GIT INTEGRATION v1\n"

def indexOf (needle : Bytes) : Bytes -> Option Nat
  | [] => if needle.isEmpty then some 0 else none
  | byte :: rest =>
    if needle.isPrefixOf (byte :: rest) then some 0
    else (indexOf needle rest).map (· + 1)

def indexOfPos (text : Bytes) (start : Nat) (needle : Bytes) : Option Nat :=
  (indexOf needle (text.drop start)).map (· + start)

def installConfig (original helperName : Bytes) : Result Bytes := do
  failIf ((indexOf beginMarker original).isSome || (indexOf endMarker original).isSome)
    .alreadyInstalled
  failIf helperName.isEmpty .invalidHelper
  failIf (!helperName.all (fun byte => isAlphanumeric byte || byte == 0x2D || byte == 0x5F))
    .invalidHelper
  pure (original ++ (if original.isEmpty || original.getLast? == some 0x0A then [] else [0x0A]) ++
    beginMarker ++ ascii "[credential]\n\thelper = " ++ helperName ++
    ascii "\n[credential \"https://github.com\"]\n\tuseHttpPath = true\n" ++ endMarker)

def isBlank (byte : UInt8) : Bool :=
  byte == 0x20 || byte == 0x09 || byte == 0x0D

def trim (line : Bytes) : Bytes :=
  ((line.dropWhile isBlank).reverse.dropWhile isBlank).reverse

/-- The first line that is no comment opens a section of its own. -/
def independentLines : List Bytes -> Bool
  | [] => true
  | line :: rest =>
    match trim line with
    | [] => independentLines rest
    | first :: _ =>
      if first == 0x23 || first == 0x3B then independentLines rest
      else first == 0x5B

def independentSuffix (suffix : Bytes) : Bool :=
  independentLines (suffix.splitOn 0x0A)

def removeConfig (current installed original : Bytes) : Result Bytes :=
  if current == installed then pure original
  else do
    let start <- orFail (indexOf beginMarker current) .notInstalled
    let finish <- orFail (indexOfPos current start endMarker) .integrationModified
    let last := finish + endMarker.length
    failIf ((indexOfPos current (start + beginMarker.length) beginMarker).isSome ||
      (indexOfPos current last endMarker).isSome) .integrationModified
    let installedStart <- orFail (indexOf beginMarker installed) .integrationModified
    failIf ((current.take last).drop start != installed.drop installedStart)
      .integrationModified
    failIf (!independentSuffix (current.drop last)) .integrationModified
    pure (current.take start ++ current.drop last)

theorem length_removeConfig {current installed original restored : Bytes}
    (h : removeConfig current installed original = .ok restored) :
    restored.length <= max current.length original.length := by
  unfold removeConfig at h
  split at h
  · rw [pure_eq_ok] at h
    rw [<- h]
    exact Nat.le_max_right _ _
  · simp only [ok_iff] at h
    rcases h with ⟨start, _, finish, hfinish, _, _, _, _, _, _, _, _, rfl⟩
    have horder : start <= finish := by
      rw [indexOfPos, Option.map_eq_some_iff] at hfinish
      omega
    rw [List.length_append, List.length_take, List.length_drop]
    omega

example : (do
    let installed <- installConfig (ascii "[a]\n") (ascii "omux")
    removeConfig (installed ++ ascii "[b]\n") installed (ascii "[a]\n")) =
    .ok (ascii "[a]\n[b]\n") := by decide +kernel

end Omux.Setup
