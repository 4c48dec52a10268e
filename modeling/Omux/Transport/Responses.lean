import Omux.Library.Fallible
import Omux.Library.Json

/-!
# Provider responses

What a provider may answer to the identity and capacity requests.  The typed JSON parser
of the standard library is a parameter; the decoded value is checked field by field.
-/

namespace Omux.Transport

open Library

inductive TransportError where
  | identityUnavailable | capacityUnavailable | invalidIdentity | invalidCapacity | malformedBody
deriving DecidableEq

abbrev Result := Except TransportError

structure GitHubIdentity where
  id : UInt64
  login : Bytes
  type : Bytes

structure GitHubCapacity where
  limit : UInt64
  remaining : UInt64
  reset : Int64
  used : UInt64

structure CodexIdentity where
  accountId : Bytes
  userId : Bytes
  planType : Bytes

namespace CodexUsage

structure Window where
  usedPercent : Int32
  limitWindowSeconds : Int32
  resetAfterSeconds : Int32
  resetAt : Int64

structure RateLimit where
  allowed : Bool
  limitReached : Bool
  primaryWindow : Option Window := none
  secondaryWindow : Option Window := none

structure Additional where
  limitName : Bytes
  meteredFeature : Bytes
  rateLimit : Option RateLimit := none
  normalModelSlug : Option Bytes := none

structure Credits where
  hasCredits : Bool
  unlimited : Bool
  balance : Option Bytes := none

end CodexUsage

/-- `spendControl` and `rateLimitReachedType` are the only fields of their objects. -/
structure CodexUsage where
  accountId : Bytes
  userId : Bytes
  planType : Bytes
  rateLimit : Option CodexUsage.RateLimit := none
  additionalRateLimits : Option (List CodexUsage.Additional) := none
  credits : Option CodexUsage.Credits := none
  spendControl : Option Bool := none
  rateLimitReachedType : Option Bytes := none

/-- The typed parser: the value that a body denotes, if it has the type. -/
structure Decoder where
  githubIdentity : Bytes -> Option GitHubIdentity
  githubCapacity : Bytes -> Option GitHubCapacity
  codexIdentity : Bytes -> Option CodexIdentity
  codexUsage : Bytes -> Option CodexUsage

/-!
## Checks of decoded values
-/

def isProviderByte (byte : UInt8) : Bool :=
  isAlphanumeric byte || (ascii "-_:.|").contains byte

def validProviderId (value : Bytes) : Bool :=
  !value.isEmpty && decide (value.length <= 256) && value.all isProviderByte

def validDisplay (value : Bytes) (cap : Nat) : Bool :=
  !value.isEmpty && decide (value.length <= cap) &&
    value.all (fun byte => !(decide (byte < 0x20) || byte == 0x7F))

def isPlanByte (byte : UInt8) : Bool :=
  isLower byte || isDigit byte || byte == 0x5F || byte == 0x2D

def validateCodexIdentity (identity : CodexIdentity) : Result Unit := do
  failIf (!validProviderId identity.accountId || !validProviderId identity.userId ||
    identity.planType.isEmpty || decide (64 < identity.planType.length)) .invalidIdentity
  failIf (!identity.planType.all isPlanByte) .invalidIdentity

def isTypeByte (byte : UInt8) : Bool :=
  isAlphanumeric byte || byte == 0x5F

def validateGitHubIdentity (identity : GitHubIdentity) : Result Unit := do
  failIf (identity.id == 0 || identity.login.isEmpty || decide (256 < identity.login.length) ||
    identity.type.isEmpty || decide (128 < identity.type.length)) .invalidIdentity
  failIf (!identity.login.all (fun byte => decide (0x21 <= byte) && decide (byte < 0x7F)))
    .invalidIdentity
  failIf (!identity.type.all isTypeByte) .invalidIdentity

def validateGitHubCapacity (core : GitHubCapacity) : Result Unit :=
  failIf (decide (core.limit < core.remaining) || decide (core.limit < core.used) ||
    decide (core.reset.toInt <= 0)) .invalidCapacity

namespace CodexUsage

def identity (usage : CodexUsage) : CodexIdentity :=
  { accountId := usage.accountId, userId := usage.userId, planType := usage.planType }

/-- Percentages outside of their range are unknown data, not an empty balance. -/
def validWindow (window : Window) : Bool :=
  !(decide (window.usedPercent.toInt < 0) || decide (100 < window.usedPercent.toInt) ||
    decide (window.limitWindowSeconds.toInt <= 0) ||
    decide (window.resetAfterSeconds.toInt < 0) || decide (window.resetAt.toInt <= 0))

def validateRateLimit (limit : RateLimit) : Result Unit := do
  failIf (!limit.primaryWindow.all validWindow) .invalidCapacity
  failIf (!limit.secondaryWindow.all validWindow) .invalidCapacity

def validateOptionalLimit (limit : Option RateLimit) : Result Unit :=
  match limit with
  | some value => validateRateLimit value
  | none => .ok ()

/-- Features are compared with the entries before their own. -/
def validateAdditional : List Additional -> List Additional -> Result Unit
  | _, [] => .ok ()
  | previous, entry :: rest => do
    failIf (!validProviderId entry.meteredFeature || !validDisplay entry.limitName 256)
      .invalidCapacity
    failIf (!entry.normalModelSlug.all validProviderId) .invalidCapacity
    failIf (previous.any (fun other => other.meteredFeature == entry.meteredFeature))
      .invalidCapacity
    validateOptionalLimit entry.rateLimit
    validateAdditional (previous ++ [entry]) rest

def validateEntries (additional : Option (List Additional)) : Result Unit :=
  match additional with
  | some entries => do
    failIf (decide (32 < entries.length)) .invalidCapacity
    validateAdditional [] entries
  | none => .ok ()

def validate (usage : CodexUsage) : Result Unit := do
  validateCodexIdentity usage.identity
  validateOptionalLimit usage.rateLimit
  validateEntries usage.additionalRateLimits
  failIf (!usage.credits.all (fun credits =>
    credits.balance.all (fun balance => validDisplay balance 128))) .invalidCapacity
  failIf (!usage.rateLimitReachedType.all validProviderId) .invalidCapacity

end CodexUsage

def CodexIdentity.matchesHint (identity : CodexIdentity) (expected : Option Bytes) : Bool :=
  expected.all (fun hint => identity.accountId == hint)

/-!
## Responses
-/

structure Response where
  status : Nat
  body : Bytes
  streaming : Bool := false

namespace Response

variable (decoder : Decoder) (response : Response)

/-- A complete answer with status 200, decoded and checked. -/
def accepted {α : Type} (decode : Bytes -> Option α) (check : α -> Result Unit)
    (unavailable : TransportError) : Result α := do
  failIf (response.streaming || response.status != 200) unavailable
  let value <- orFail (decode response.body) .malformedBody
  check value
  .ok value

def githubIdentity : Result GitHubIdentity :=
  response.accepted decoder.githubIdentity validateGitHubIdentity .identityUnavailable

def githubCapacity : Result GitHubCapacity :=
  response.accepted decoder.githubCapacity validateGitHubCapacity .capacityUnavailable

def codexIdentity : Result CodexIdentity :=
  response.accepted decoder.codexIdentity validateCodexIdentity .identityUnavailable

def codexUsage : Result CodexUsage :=
  response.accepted decoder.codexUsage CodexUsage.validate .capacityUnavailable

theorem accepted_eq_ok {α : Type} {decode : Bytes -> Option α} {check : α -> Result Unit}
    {unavailable : TransportError} {value : α}
    (h : response.accepted decode check unavailable = .ok value) : check value = .ok () := by
  simp only [accepted, ok_iff] at h
  rcases h with ⟨_, _, _, _, _, hcheck, rfl⟩
  exact hcheck

end Response

end Omux.Transport
