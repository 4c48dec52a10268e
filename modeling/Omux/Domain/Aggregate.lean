import Mathlib.Algebra.BigOperators.Pi
import Omux.Library.Groups
import Omux.Domain.WellFormed

/-!
# Capacity totals

`aggregate` adds up the fresh buckets of one resource and window.  A bucket that several
accounts share is counted at its first fresh record; the smallest values of its records
count.
-/

namespace Omux.Domain

open Library List

structure Arithmetic (α : Type) where
  value : F64 -> α
  zero : α
  add : α -> α -> α
  min : α -> α -> α
  isFinite : α -> Bool

@[ext]
structure Aggregation (α : Type) where
  complete : Bool := false
  remaining : α
  limit : Option α
  buckets : Nat := 0
  unknownBuckets : Nat := 0

structure CapacityQuery where
  provider : Bytes
  issuer : Bytes
  resource : Resource
  windowStart : Int
  windowEnd : Int
  now : Int

def freshForAggregation (o : Observation) (now : Int) : Bool :=
  o.status == .ready && !o.bucketId.isEmpty && decide (o.observedAt <= now) &&
    decide (now < o.expiresAt) && decide (o.windowStart <= now) && decide (now < o.windowEnd)

def CapacityQuery.owns (q : CapacityQuery) (owner : Account) : Bool :=
  owner.identity.provider == q.provider && owner.identity.issuer == q.issuer

def CapacityQuery.covers (q : CapacityQuery) (o : Observation) : Bool :=
  sameResource q.resource o.resource && o.windowStart == q.windowStart &&
    o.windowEnd == q.windowEnd

namespace Aggregation

variable {α : Type}

def unknown (result : Aggregation α) : Aggregation α :=
  { result with unknownBuckets := result.unknownBuckets + 1 }

def addLimit (ar : Arithmetic α) (result : Aggregation α) (limit : Option α) : Aggregation α :=
  match result.limit, limit with
  | some current, some v =>
    if ar.isFinite (ar.add current v) then
      { result with limit := some (ar.add current v) }
    else { result with limit := none }.unknown
  | some _, none => { result with limit := none }
  | none, _ => result

def addBucket (ar : Arithmetic α) (result : Aggregation α) (remaining : α)
    (limit : Option α) : Aggregation α :=
  let total := ar.add result.remaining remaining
  if ar.isFinite total then
    addLimit ar { result with remaining := total, buckets := result.buckets + 1 } limit
  else result.unknown

end Aggregation

/-- A record without a limit leaves its bucket without one. -/
def lowerLimit {α : Type} (ar : Arithmetic α) : Option α -> Option α -> Option α
  | some current, some v => some (ar.min current v)
  | _, _ => none

namespace State

variable {α : Type}

def asked (s : State) (q : CapacityQuery) (o : Observation) : Bool :=
  (s.account o.accountId).any q.owns && q.covers o

/-- The scans of a fresh record meet the fresh records of its bucket. -/
def shares (s : State) (q : CapacityQuery) (o other : Observation) : Bool :=
  s.sameBucket other o && freshForAggregation other q.now

def countObservation (ar : Arithmetic α) (s : State) (q : CapacityQuery)
    (before : List Observation) (o : Observation) (rest : List Observation)
    (result : Aggregation α) : Aggregation α :=
  if !s.asked q o then result
  else if !freshForAggregation o q.now then result.unknown
  else if before.any (s.shares q o) then result
  else
    result.addBucket ar
      (rest.foldl (fun remaining other =>
        if s.shares q o other then ar.min remaining (ar.value other.remaining)
        else remaining) (ar.value o.remaining))
      (rest.foldl (fun limit other =>
        if s.shares q o other then lowerLimit ar limit (other.limit.map ar.value)
        else limit) (o.limit.map ar.value))

def countObservations (ar : Arithmetic α) (s : State) (q : CapacityQuery) :
    List Observation -> Aggregation α -> List Observation -> Aggregation α
  | _, result, [] => result
  | before, result, o :: rest =>
    countObservations ar s q (before ++ [o]) (s.countObservation ar q before o rest result)
      rest

def unobserved (observations : List Observation) (q : CapacityQuery) (owner : Account) : Bool :=
  q.owns owner && !observations.any (fun o => o.accountId == owner.id && q.covers o)

def countAccount (s : State) (q : CapacityQuery) (result : Aggregation α) (owner : Account) :
    Aggregation α :=
  if unobserved s.observations q owner then result.unknown else result

def aggregate (ar : Arithmetic α) (s : State) (q : CapacityQuery) : Aggregation α :=
  let counted := s.countObservations ar q [] { remaining := ar.zero, limit := some ar.zero }
    s.observations
  let counted := s.accounts.foldl (s.countAccount q) counted
  { counted with
    complete := decide (0 < counted.buckets) && counted.unknownBuckets == 0 }

end State

/-!
## The totals without an order

The fresh records are grouped by bucket and tenant.
-/

section

variable {α : Type} [LinearOrder α] [AddCommMonoid α]

/-- Numbers without rounding and without an overflow. -/
def unrounded (value : F64 -> α) : Arithmetic α :=
  { value, zero := 0, add := (· + ·), min, isFinite := fun _ => true }

namespace State

def bucketKey (s : State) (o : Observation) : Bytes × Option Bytes :=
  (o.bucketId, (s.account o.accountId).map (fun owner => owner.identity.tenant))

def referenceTotals (value : F64 -> α) (s : State) (q : CapacityQuery)
    (observations : Multiset Observation) : Aggregation α :=
  let asked := observations.filter (fun o => s.asked q o)
  let fresh := asked.filter (fun o => freshForAggregation o q.now)
  let groups := (fresh.map s.bucketKey).toFinset
  let group := fun k => fresh.filter (fun o => s.bucketKey o = k)
  let unobserved := fun owner => q.owns owner = true ∧
    forall o, o ∈ observations -> ¬ (o.accountId = owner.id ∧ q.covers o = true)
  { remaining := ∑ k ∈ groups, least ((group k).map (fun o => value o.remaining))
    limit :=
      if none ∈ fresh.map (fun o => o.limit) then none
      else some (∑ k ∈ groups, least ((group k).filterMap (fun o => o.limit.map value)))
    buckets := groups.card
    unknownBuckets := (asked.filter (fun o => ¬ freshForAggregation o q.now)).card +
      s.accounts.countP (fun owner => decide (unobserved owner))
    complete := decide (groups.Nonempty ∧
      (forall o, o ∈ asked -> freshForAggregation o q.now = true) ∧
      forall owner, owner ∈ s.accounts -> ¬ unobserved owner) }

/-!
## The scan counts the groups
-/

variable {s : State} {q : CapacityQuery} {o other : Observation}

def countedFor (s : State) (q : CapacityQuery) (o : Observation) : Bool :=
  s.asked q o && freshForAggregation o q.now

theorem shares_eq (ho : s.countedFor q o = true) (other : Observation) :
    s.shares q o other = (s.countedFor q other && decide (s.bucketKey other = s.bucketKey o)) := by
  rw [Bool.eq_iff_iff]
  cases howner : s.account o.accountId with
  | none => simp [countedFor, asked, howner] at ho
  | some =>
    cases hother : s.account other.accountId with
    | none => simp [shares, sameBucket, countedFor, asked, hother]
    | some =>
      simp only [countedFor, asked, howner, CapacityQuery.owns, CapacityQuery.covers,
        Option.any_some, bool_iff, sameResource_eq_true] at ho
      rcases ho with ⟨⟨⟨hprov, hissuer⟩, ⟨hres, hstart⟩, hend⟩, _⟩
      simp [shares, sameBucket, countedFor, asked, hother, howner, bucketKey,
        CapacityQuery.owns, CapacityQuery.covers, sameResource_eq_true, hprov, hissuer,
        <- hres, hstart, hend, freshForAggregation]
      constructor
      · rintro ⟨⟨⟨⟨⟨⟨_, hbucket⟩, hres⟩, hstart⟩, hend⟩, howner, htenant⟩, hfresh⟩
        exact ⟨⟨⟨howner, ⟨hres.symm, hstart⟩, hend⟩, hfresh⟩, hbucket, htenant⟩
      · rintro ⟨⟨⟨howner, ⟨hres, hstart⟩, hend⟩, hfresh⟩, hbucket, htenant⟩
        have hnamed := hfresh.1.1.1.1.2
        exact ⟨⟨⟨⟨⟨⟨hnamed, hbucket⟩, hres.symm⟩, hstart⟩, hend⟩, howner, htenant⟩, hfresh⟩

def groupTotals (value : F64 -> α) (group : List Observation) : α × WithTop α × Nat :=
  (least (group.map (fun o => value o.remaining)),
    if none ∈ group.map (fun o => o.limit) then none
    else some (least (group.filterMap (fun o => o.limit.map value))), 1)

theorem foldl_lowerLimit_none (value : F64 -> α) (rest : List Observation) :
    rest.foldl (fun limit other => lowerLimit (unrounded value) limit (other.limit.map value))
      none = none := by
  induction rest with
  | nil => rfl
  | cons _ _ ih => exact ih

theorem foldl_lowerLimit_some (value : F64 -> α) (current : α) (rest : List Observation) :
    rest.foldl (fun limit other => lowerLimit (unrounded value) limit (other.limit.map value))
        (some current) = if none ∈ rest.map (fun o => o.limit) then none
      else some ((rest.filterMap (fun o => o.limit.map value)).foldl min current) := by
  induction rest generalizing current with
  | nil => rfl
  | cons o rest ih =>
    cases hlimit : o.limit with
    | none =>
      rw [foldl_cons, map_cons, hlimit]
      exact foldl_lowerLimit_none value rest
    | some v =>
      rw [foldl_cons, hlimit]
      refine (ih (min current (value v))).trans ?_
      simp [hlimit]

theorem foldl_lowerLimit (value : F64 -> α) (first : Observation) (rest : List Observation) :
    rest.foldl (fun limit other => lowerLimit (unrounded value) limit (other.limit.map value))
        (first.limit.map value) = (groupTotals value (first :: rest)).2.1 := by
  cases hlimit : first.limit with
  | none => simp [foldl_lowerLimit_none, groupTotals, hlimit]
  | some =>
    rw [Option.map_some, foldl_lowerLimit_some, foldl_min_eq_least]
    simp [groupTotals, hlimit]
    rfl

/-- The sum over the buckets that are counted. -/
def totals (result : Aggregation α) : α × WithTop α × Nat :=
  (result.remaining, result.limit, result.buckets)

theorem totals_addBucket (value : F64 -> α) (result : Aggregation α) (first : Observation)
    (rest : List Observation) : totals (result.addBucket (unrounded value)
        ((rest.map (fun o => value o.remaining)).foldl min (value first.remaining))
        (groupTotals value (first :: rest)).2.1) =
      totals result + groupTotals value (first :: rest) := by
  have hleast : (rest.map (fun o => value o.remaining)).foldl min (value first.remaining) =
      (groupTotals value (first :: rest)).1 :=
    foldl_min_eq_least _ _
  rw [hleast]
  have hone : (groupTotals value (first :: rest)).2.2 = 1 := rfl
  rcases hgroup : groupTotals value (first :: rest) with ⟨_, limit, _⟩
  rw [hgroup] at hone
  subst hone
  cases hresult : result.limit with
  | none =>
    simp [totals, Aggregation.addBucket, Aggregation.addLimit, unrounded, hresult]
    rfl
  | some =>
    cases limit with
    | top | coe =>
      simp [totals, Aggregation.addBucket, Aggregation.addLimit, unrounded, hresult]
      rfl

theorem countObservation_totals (value : F64 -> α) (before : List Observation)
    (o : Observation) (rest : List Observation) (result : Aggregation α) :
    totals (s.countObservation (unrounded value) q before o rest result) =
      if s.countedFor q o then
        if (before.filter (s.countedFor q)).any (fun y => s.bucketKey y = s.bucketKey o) then
          totals result
        else totals result + groupTotals value
          (o :: (rest.filter (s.countedFor q)).filter
            (fun y => s.bucketKey y = s.bucketKey o))
      else totals result := by
  unfold countObservation
  by_cases ho : s.countedFor q o = true
  · have hshares := shares_eq ho
    have hasked : s.asked q o = true ∧ freshForAggregation o q.now = true :=
      Bool.and_eq_true_iff.mp ho
    rw [hasked.1, hasked.2]
    have hany : before.any (s.shares q o) =
        (before.filter (s.countedFor q)).any (fun y => s.bucketKey y = s.bucketKey o) := by
      rw [any_filter]
      exact congrArg before.any (funext hshares)
    simp only [Bool.not_true, Bool.false_eq_true, if_false, hany]
    split
    · rfl
    · have hrest : (rest.filter (s.countedFor q)).filter
          (fun y => s.bucketKey y = s.bucketKey o) = rest.filter (s.shares q o) := by
        rw [filter_filter]
        refine filter_congr (fun other _ => ?_)
        rw [hshares other, Bool.and_comm]
      rw [hrest, <- foldl_filter, <- foldl_filter, <- totals_addBucket,
        <- foldl_lowerLimit, foldl_map]
      rfl
  · split
    · rfl
    · split
      · rfl
      · rename_i hasked hfresh
        rw [countedFor, Bool.and_eq_true] at ho
        simp only [bool_iff, Bool.not_eq_false] at hasked hfresh
        exact (ho ⟨hasked, hfresh⟩).elim

theorem countObservation_unknown (value : F64 -> α) (before : List Observation)
    (o : Observation) (rest : List Observation) (result : Aggregation α) :
    (s.countObservation (unrounded value) q before o rest result).unknownBuckets =
      result.unknownBuckets + if s.asked q o && !freshForAggregation o q.now then 1 else 0 := by
  unfold countObservation
  cases s.asked q o with
  | false => rfl
  | true =>
    cases freshForAggregation o q.now with
    | false => rfl
    | true =>
      simp only [Bool.not_true, Bool.false_eq_true, if_false]
      split
      · rfl
      · simp only [Aggregation.addBucket, unrounded, if_true, Aggregation.addLimit]
        split <;> rfl

theorem countObservations_eq (value : F64 -> α) (before rest : List Observation)
    (result : Aggregation α) :
    totals (s.countObservations (unrounded value) q before result rest) =
        scanGroups s.bucketKey (groupTotals value) (before.filter (s.countedFor q))
          (totals result) (rest.filter (s.countedFor q)) ∧
      (s.countObservations (unrounded value) q before result rest).unknownBuckets =
        result.unknownBuckets +
          rest.countP (fun o => s.asked q o && !freshForAggregation o q.now) := by
  induction rest generalizing before result with
  | nil => exact ⟨rfl, rfl⟩
  | cons o rest ih =>
    rcases ih (before ++ [o]) (s.countObservation (unrounded value) q before o rest result) with
      ⟨htotals, hunknown⟩
    constructor
    · rw [countObservations, htotals, countObservation_totals, filter_append]
      by_cases ho : s.countedFor q o = true
      · simp [ho, scanGroups]
      · simp [ho]
    · rw [countObservations, hunknown, countObservation_unknown, countP_cons]
      omega

omit [LinearOrder α] [AddCommMonoid α] in
theorem foldl_countAccount (accounts : List Account) (result : Aggregation α) :
    accounts.foldl (s.countAccount q) result = { result with
      unknownBuckets := result.unknownBuckets +
        accounts.countP (unobserved s.observations q) } := by
  induction accounts generalizing result with
  | nil => rfl
  | cons owner _ ih =>
    rw [foldl_cons, ih, countP_cons, countAccount]
    by_cases howner : unobserved s.observations q owner = true
    · simp only [howner, if_true, Aggregation.unknown]
      rw [Nat.add_assoc, Nat.add_comm 1]
    · simp [howner]

/-- The limits of the buckets add up where every counted record has one. -/
theorem sum_limits {κ : Type} [DecidableEq κ] (key : Observation -> κ) (value : F64 -> α)
    (fresh : List Observation) :
    ∑ k ∈ (fresh.map key).toFinset, (groupTotals value (fresh.filter (fun o => key o = k))).2.1 =
      if none ∈ fresh.map (fun o => o.limit) then (⊤ : WithTop α)
      else ((∑ k ∈ (fresh.map key).toFinset, least
        ((fresh.filter (fun o => key o = k)).filterMap (fun o => o.limit.map value)) :
          α) : WithTop α) := by
  split_ifs with hnone
  · rcases mem_map.mp hnone with ⟨o, ho, hlimit⟩
    apply WithTop.sum_eq_top.mpr
    refine ⟨key o, by simpa using ⟨o, ho, rfl⟩, if_pos ?_⟩
    exact mem_map.mpr ⟨o, mem_filter.mpr ⟨ho, by simp⟩, hlimit⟩
  · refine (Finset.sum_congr rfl (fun k _ => ?_)).trans (WithTop.coe_sum _ _).symm
    refine if_neg (fun hgroup => hnone ?_)
    rcases mem_map.mp hgroup with ⟨o, ho, hlimit⟩
    exact mem_map.mpr ⟨o, (mem_filter.mp ho).1, hlimit⟩

theorem totals_countObservations (value : F64 -> α) (s : State) (q : CapacityQuery)
    (fresh : List Observation) (hfresh : fresh = s.observations.filter (s.countedFor q)) :
    totals (s.countObservations (unrounded value) q [] { remaining := 0, limit := some 0 }
        s.observations) = (∑ k ∈ (fresh.map s.bucketKey).toFinset, least
          ((fresh.filter (fun o => s.bucketKey o = k)).map (fun o => value o.remaining)),
        if none ∈ fresh.map (fun o => o.limit) then (⊤ : WithTop α)
        else ((∑ k ∈ (fresh.map s.bucketKey).toFinset, least
          ((fresh.filter (fun o => s.bucketKey o = k)).filterMap
            (fun o => o.limit.map value)) : α) : WithTop α),
        (fresh.map s.bucketKey).toFinset.card) := by
  have hkeys : newKeys s.bucketKey [] fresh = (fresh.map s.bucketKey).toFinset := by simp [newKeys]
  have hzero : totals ({ remaining := 0, limit := some 0 } : Aggregation α) = 0 := rfl
  rw [(countObservations_eq value [] s.observations _).1, <- hfresh, filter_nil,
    scanGroups_eq, hkeys, hzero, zero_add, <- sum_limits s.bucketKey value fresh]
  refine Prod.ext ?_ (Prod.ext ?_ ?_)
  · rw [Prod.fst_sum]
    rfl
  · rw [Prod.snd_sum, Prod.fst_sum]
  · rw [Prod.snd_sum, Prod.snd_sum]
    exact (Finset.card_eq_sum_ones _).symm

theorem aggregate_eq_reference (value : F64 -> α) (s : State) (q : CapacityQuery) :
    s.aggregate (unrounded value) q = s.referenceTotals value q s.observations := by
  have hfresh : (s.observations.filter (fun o => decide (s.asked q o = true))).filter
      (fun o => decide (freshForAggregation o q.now = true)) =
        s.observations.filter (s.countedFor q) := by
    rw [filter_filter]
    refine filter_congr (fun o _ => ?_)
    rw [Bool.decide_eq_true, Bool.decide_eq_true, countedFor, Bool.and_comm]
  have htotals := totals_countObservations value s q _ hfresh
  rcases countObservations_eq value [] s.observations
    { remaining := 0, limit := some 0 } (s := s) (q := q) with ⟨_, hunknown⟩
  have haggregate : s.aggregate (unrounded value) q = _ :=
    congrArg (fun counted : Aggregation α => { counted with
      complete := decide (0 < counted.buckets) && counted.unknownBuckets == 0 })
      (foldl_countAccount (s := s) (q := q) s.accounts
        (s.countObservations (unrounded value) q [] { remaining := 0, limit := some 0 }
          s.observations))
  have hstale : ((s.observations.filter (fun o => decide (s.asked q o = true))).filter
      (fun o => decide (¬ freshForAggregation o q.now = true))).length =
        s.observations.countP (fun o => s.asked q o && !freshForAggregation o q.now) := by
    rw [filter_filter, <- countP_eq_length_filter]
    refine countP_congr (fun o _ => ?_)
    simp [and_comm]
  have hunobserved : s.accounts.countP (unobserved s.observations q) =
      s.accounts.countP (fun owner => decide (q.owns owner = true ∧
        forall o, o ∈ (s.observations : Multiset Observation) ->
          ¬ (o.accountId = owner.id ∧ q.covers o = true))) := by
    refine countP_congr (fun owner _ => ?_)
    simp [unobserved]
  rw [haggregate]
  simp only [hunknown, hunobserved]
  apply Aggregation.ext
  · have hbuckets := congrArg (fun t => t.2.2) htotals
    simp only [totals] at hbuckets
    rw [Bool.eq_iff_iff]
    simp only [hbuckets, bool_iff, Finset.card_pos, Nat.add_eq_zero_iff, countP_eq_zero]
    refine Iff.trans (and_congr Iff.rfl (and_congr ?_ Iff.rfl)) decide_eq_true_iff.symm
    simp
  · exact congrArg Prod.fst htotals
  · refine (congrArg (fun t => t.2.1) htotals).trans ?_
    exact if_congr Iff.rfl rfl rfl
  · exact congrArg (fun t => t.2.2) htotals
  · rw [<- hstale]
    simp only [Nat.zero_add]
    rfl

/-- The totals are those of the groups, in whatever order the records stand. -/
theorem aggregate_counts_buckets_once (value : F64 -> α) (s : State) (q : CapacityQuery) :
    s.aggregate (unrounded value) q = s.referenceTotals value q s.observations ∧
      forall observations : List Observation, observations.Perm s.observations ->
        { s with observations }.aggregate (unrounded value) q =
          s.aggregate (unrounded value) q := by
  refine ⟨aggregate_eq_reference value s q, fun observations hperm => ?_⟩
  rw [aggregate_eq_reference, aggregate_eq_reference]
  exact congrArg (s.referenceTotals value q) (Multiset.coe_eq_coe.mpr hperm)

end State

end

end Omux.Domain
