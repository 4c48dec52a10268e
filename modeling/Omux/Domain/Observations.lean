import Omux.Domain.Lookup

/-!
# Capacity observations

`observe` keeps one record for each bucket and window where it can.  An authoritative
success retires the older rejections of its resource.
-/

namespace Omux.Domain

open Library

variable (existing input : Observation)

def sameBucketResource : Bool :=
  existing.accountId == input.accountId && existing.bucketId == input.bucketId &&
    sameResource existing.resource input.resource

def sameWindow : Bool :=
  existing.windowStart == input.windowStart && existing.windowEnd == input.windowEnd

def expiredPredecessor : Bool :=
  decide (existing.observedAt < input.observedAt) &&
    (decide (existing.expiresAt <= input.observedAt) ||
      decide (existing.windowEnd <= input.observedAt))

def supersedes : Bool :=
  sameBucketResource existing input &&
    (sameWindow existing input || expiredPredecessor existing input)

/-- A failed reader cannot erase a still-fresh provider rejection. -/
def ignoredUnknown : Bool :=
  input.status == .unknown && decide (input.observedAt < existing.expiresAt) &&
    existing.status != .unknown

def isAuthoritative (provenance : ObservationProvenance) : Bool :=
  provenance == .providerApi || provenance == .nativeApplication

def provesRecovery (ready : Observation) : Bool :=
  ready.status == .ready && !ready.remaining.le F64.zero &&
    decide (ready.windowStart <= ready.observedAt) &&
    decide (ready.observedAt < ready.windowEnd) && isAuthoritative ready.provenance

def isRejection (previous : Observation) : Bool :=
  previous.status == .unavailable || (previous.status == .ready && previous.remaining.eq F64.zero)

def retires (ready previous : Observation) : Bool :=
  provesRecovery ready && previous.accountId == ready.accountId &&
    sameResource previous.resource ready.resource &&
    decide (previous.observedAt < ready.observedAt) && isRejection previous

def retireOlderRejections (observations : List Observation)
    (ready : Observation) : List Observation :=
  observations.filter (fun previous => !retires ready previous)

namespace State

def observe (s : State) (input : Observation) : Result State := do
  validateObservation input
  failIf (s.accountEntry input.accountId).isNone .notFound
  match firstEntry (fun existing => supersedes existing input) s.observations with
  | some (i, existing) =>
    failIf (decide (input.observedAt < existing.observedAt)) .generationConflict
    if ignoredUnknown existing input then
      .ok s
    else do
      let stored <- replaceOwned s.observations i input
      .ok { s with observations := retireOlderRejections stored input }.changed
  | none =>
    let stored <- appendOwned s.observations input
    .ok { s with observations := retireOlderRejections stored input }.changed

/-- One provider response, staged on a copy of the observation list. -/
def observeBatch (s : State) (input : List Observation) : Result State := do
  if input.isEmpty then
    .ok s
  else do
    failIf (decide (maxRecords < input.length)) .tooManyRecords
    let copied <- s.observations.foldlM appendOwned []
    let staged <- input.foldlM observe
      { accounts := s.accounts, observations := copied }
    if staged.revision == 0 then
      .ok s
    else
      .ok { s with observations := staged.observations }.changed

end State

/-!
## Pruning

The loop walks by index and compares with the list as it stands, so a record
that was removed earlier no longer supersedes a later one.
-/

def isOver (observation : Observation) (now : Int) : Bool :=
  decide (observation.expiresAt <= now) || decide (observation.windowEnd <= now)

def newerInBucket (previous newer : Observation) : Bool :=
  previous.accountId == newer.accountId && sameResource previous.resource newer.resource &&
    previous.bucketId == newer.bucketId && decide (previous.observedAt < newer.observedAt)

def prunable (now : Int) (current : List Observation) (previous : Observation) : Bool :=
  isOver previous now && ((previous.provenance == .nativeApplication &&
        previous.status == .unavailable) || current.any (newerInBucket previous))

def pruneLoop (now : Int) : List Observation -> List Observation -> List Observation
  | kept, [] => kept
  | kept, previous :: rest =>
    if prunable now (kept ++ previous :: rest) previous then
      pruneLoop now kept rest
    else
      pruneLoop now (kept ++ [previous]) rest

def State.pruneObservations (s : State) (now : Int) : State × Nat :=
  let remaining := pruneLoop now [] s.observations
  let removed := s.observations.length - remaining.length
  if removed = 0 then
    (s, 0)
  else
    ({ s with observations := remaining }.changed, removed)

end Omux.Domain
