import Omux.Domain.Growth

/-!
# Growth plans of provider completions

An import and a capacity poll end with an answer of the provider.  Their plans are
measured on the widest records that an accepted answer can lead to.
-/

namespace Omux.Domain

open Library

def codexName : Bytes := ascii "codex"
def githubName : Bytes := ascii "github"

def codexIssuer : Bytes := ascii "https://chatgpt.com"
def githubIssuer : Bytes := ascii "https://github.com"

/-- An ordinary limit and 32 others, each with an access decision and two windows, and
one record of the spend control. -/
def codexObservationCount : Nat := (1 + 32) * (1 + 2) + 1

def widestCodexObservation (accountId : Bytes) : Observation where
  accountId := accountId
  resource :=
    { kind := ascii "subscription-usage", target := List.replicate 256 0x61, unit := .custom,
      unitName := ascii "percent-of-window", scope := List.replicate 300 0x61 }
  bucketId := []
  remaining := F64.ofNat 100
  limit := some (F64.ofNat 100)
  windowStart := minI64
  windowEnd := minI64
  observedAt := minI64
  expiresAt := minI64
  status := .unavailable
  provenance := .providerApi

def widestCoreObservation (accountId : Bytes) : Observation where
  accountId := accountId
  resource :=
    { kind := ascii "api-calls", target := ascii "core", unit := .calls,
      scope := ascii "github:rest:core" }
  bucketId := ascii "github:" ++ accountId ++ ascii ":core"
  remaining := F64.largest
  limit := some F64.largest
  windowStart := minI64
  windowEnd := minI64
  observedAt := minI64
  expiresAt := minI64
  provenance := .providerApi

def observationGrowth (format : FloatFormat) (provider accountId : Bytes) :
    Growing OutcomeGrowth := do
  (requireId accountId).mapError .domain
  if provider == codexName then do
    let bytes <- recordGrowth ((observationShape format).json (widestCodexObservation accountId))
    .ok { bytes := revisionGrowthBytes + codexObservationCount * bytes
          observations := codexObservationCount }
  else if provider == githubName then do
    let bytes <- recordGrowth ((observationShape format).json (widestCoreObservation accountId))
    .ok { bytes := bytes + (revisionGrowthBytes + 2 * (17 + 1 + 1 + 1 + 3))
          observations := 1 }
  else .error .missingOutcomeBound

/-!
## Imports
-/

def providerIssuer (provider : Bytes) : Bytes :=
  if provider == codexName then codexIssuer else githubIssuer

def accountLabel (provider label : Bytes) : Bytes :=
  if !label.isEmpty then label
  else if provider == codexName then ascii "Codex account" else ascii "GitHub account"

def widestHandle : Bytes := List.replicate 64 0x61

/-- An id of an account that exists; its bytes are the longest to escape. -/
def canonicalId : Bytes := List.replicate maxTextBytes 1

def widestIdentity (provider : Bytes) : Identity where
  provider := provider
  issuer := providerIssuer provider
  subject := List.replicate (if provider == codexName then 256 else 20) 0x61
  tenant := if provider == codexName then List.replicate 256 0x61 else []
  verified := true

def widestAccount (provider sourceId label : Bytes) : Account where
  id := widestHandle
  identity := widestIdentity provider
  label := accountLabel provider label
  accountType := List.replicate (if provider == codexName then 64 else 128) 0x61
  sourceIds := [sourceId]

variable (provider sourceId : Bytes)

def widestGrant : Grant where
  id := canonicalId
  accountId := canonicalId
  sourceId := sourceId
  credentialKind := .oauthAccess
  purposes := [.request, .accountRead]
  audience := providerIssuer provider
  generation := maxU64
  status := .quarantined
  providerExpiresAt := some minI64
  custodyExpiresAt := some minI64

def narrowGrant : Grant :=
  { widestGrant provider sourceId with
    generation := 1
    status := .ready
    providerExpiresAt := some 0
    custodyExpiresAt := some 0 }

def widestQuarantine : QuarantinedImport where
  sourceId := sourceId
  candidateId := widestHandle
  identity := widestIdentity provider
  reason := .conflictingIdentity

/-- Only an import of a Codex account observes its limits. -/
def importObservations (format : FloatFormat) (provider : Bytes) : Growing OutcomeGrowth :=
  if provider == codexName then observationGrowth format provider canonicalId else .ok {}

/-- New rows also increase what maintenance has reserved. -/
def importGrowth (format : FloatFormat) (provider sourceId label : Bytes) :
    Growing OutcomeGrowth := do
  (requireId sourceId).mapError .domain
  (validate label).mapError .domain
  failIf (provider != codexName && provider != githubName) .missingOutcomeBound
  let accountBytes <- recordGrowth (accountShape.json (widestAccount provider sourceId label))
  let grantBytes <- recordGrowth (grantShape.json (widestGrant provider sourceId))
  let quarantineBytes <- recordGrowth (quarantinedImportShape.json
    (widestQuarantine provider sourceId))
  let linkBytes <- recordGrowth (jsonSlice sourceId)
  let observations <- importObservations format provider
  let maintenance <- maintenanceGrowth
    { accounts := [widestAccount provider sourceId label]
      grants := [narrowGrant provider sourceId] }
  .ok { bytes := accountBytes + linkBytes + grantBytes + quarantineBytes +
          observations.bytes + maintenance.bytes +
          (revisionGrowthBytes + ((ascii "completed").length - (ascii "pending").length))
        accounts := 1
        grants := 1
        observations := observations.observations
        quarantinedImports := 1
        sourceLinks := 1 }

end Omux.Domain
