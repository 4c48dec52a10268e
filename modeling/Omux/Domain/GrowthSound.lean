import Mathlib.Tactic.Linarith
import Omux.Domain.Growth
import Omux.Domain.Rejection

/-!
# Growth plans are sound

A plan is compared with what its operation does to the lists.  The revision gains at most
two digits, which leaves room in the twenty bytes that every plan has for it.
-/

namespace Omux.Domain

open Library List State Shape Snapshot FloatFormat
open Admission (Counts)
open Native (NativeRef)

variable {α : Type} {records : List α} {plan : OutcomeGrowth} {lease : Lease} {growth : Nat}
  {binding : Binding}

theorem recordGrowth_eq_ok {encoded : Bytes} (h : recordGrowth encoded = .ok growth) :
    growth = encoded.length + 1 := by
  simp only [recordGrowth, ok_iff] at h
  rcases h with ⟨_, hcount, rfl⟩
  unfold countWithin at hcount
  split at hcount
  · rw [<- Option.some.inj hcount]
  · cases hcount

theorem foldl_recordGrowth {json : α -> Bytes} {start total : Nat}
    (h : records.foldlM (fun bytes x => do
      let growth <- recordGrowth (json x)
      Except.ok (bytes + growth)) start = (.ok total : Growing Nat)) :
    total = start + (records.map (fun x => (json x).length + 1)).sum := by
  induction records generalizing start with
  | nil =>
    cases h
    rfl
  | cons x _ ih =>
    simp only [foldlM_cons, ok_iff] at h
    rcases h with ⟨_, ⟨growth, hgrowth, rfl⟩, hrest⟩
    rw [ih hrest, recordGrowth_eq_ok hgrowth, map_cons, sum_cons]
    omega

theorem wideningGrowth_eq_ok {current widest : Bytes}
    (h : wideningGrowth current widest = .ok growth) : growth = widest.length - current.length := by
  simp only [wideningGrowth, ok_iff] at h
  rcases h with ⟨_, hmost, _, hnow, rfl⟩
  rw [recordGrowth_eq_ok hmost, recordGrowth_eq_ok hnow]
  omega

theorem wideningAll_eq_ok {json : α -> Bytes} {widest : α -> α} {start total : Nat}
    (h : wideningAll json widest start records = .ok total) :
    total = start + (records.map (fun x => (json (widest x)).length - (json x).length)).sum := by
  induction records generalizing start with
  | nil =>
    cases h
    rfl
  | cons x _ ih =>
    simp only [wideningAll, foldlM_cons, ok_iff] at h
    rcases h with ⟨_, ⟨_, hgrowth, rfl⟩, hrest⟩
    rw [ih hrest, wideningGrowth_eq_ok hgrowth, map_cons, sum_cons]
    omega

/-!
## From lists to snapshots
-/

variable {format : FloatFormat} {s next : State}

theorem length_revision_changed (s : State) :
    (decimal s.changed.revision).length <= (decimal s.revision).length + 1 := by
  have hmin : s.changed.revision <= s.revision + 1 := Nat.min_le_left _ _
  exact (length_decimal_mono hmin).trans (length_decimal_succ s.revision)

theorem length_snapshot_le {digits : Nat}
    (hlists : next.snapshot.listBytes format <= s.snapshot.listBytes format + growth)
    (hrev : (decimal next.revision).length <= (decimal s.revision).length + digits) :
    (next.snapshot.json format).length <= (s.snapshot.json format).length + (growth + digits) := by
  rw [length_snapshotJson, length_snapshotJson]
  simp only [snapshot] at hlists ⊢
  omega

theorem links_sublist {accounts more : List Account} (h : accounts.Sublist more) :
    accounts.foldl (fun most account => max most account.sourceIds.length) 0 <=
      more.foldl (fun most account => max most account.sourceIds.length) 0 := by
  refine foldl_max_le_iff.mpr ⟨Nat.zero_le _, fun account hacct => ?_⟩
  exact le_foldl_max (fun account => account.sourceIds.length) 0 (h.subset hacct)

/-!
## Forgetting
-/

theorem forget_grows_within {accountId : Bytes} (hplan : s.forgetGrowth accountId = .ok plan)
    (h : s.forget accountId = .ok next) : GrowsWithin format plan s next := by
  rcases forget_inv h with ⟨ai, owner, hentry, _, _, hnext⟩
  simp only [State.forgetGrowth, ok_iff] at hplan
  rcases hplan with ⟨planned, hplanned, _, hbytes, hplan⟩
  have howner : planned = owner := by
    have hacct : s.account accountId = some owner :=
      Option.map_eq_some_iff.mpr ⟨_, hentry, rfl⟩
    rw [hacct] at hplanned
    exact (Option.some.inj hplanned).symm
  subst howner
  have hsum := foldl_recordGrowth hbytes
  have haccs : (s.accounts.eraseIdx ai).Sublist s.accounts := eraseIdx_sublist _ _
  constructor
  · have htombs := arrayBytes_append tombstoneShape.json s.tombstones (tombstonesOf planned)
    rw [tombstonesOf, map_map] at htombs
    have hgrants := arrayBytes_sublist grantShape.json
      (filter_sublist (p := fun g => g.accountId != planned.id) (l := s.grants))
    have hobs := arrayBytes_sublist (observationShape format).json
      (filter_sublist (p := fun o => o.accountId != planned.id) (l := s.observations))
    have hbinds := arrayBytes_sublist bindingShape.json
      (filter_sublist (p := fun b => b.accountId != planned.id) (l := s.bindings))
    have hjobs := arrayBytes_sublist jobShape.json
      (filter_sublist (p := fun job => job.accountId != planned.id) (l := s.jobs))
    have herased := arrayBytes_sublist accountShape.json haccs
    have hlists : next.snapshot.listBytes format <= s.snapshot.listBytes format +
        (planned.sourceIds.map (fun sourceId => (tombstoneShape.json
          { identity := planned.identity, sourceId }).length + 1)).sum := by
      rw [hnext]
      simp only [listBytes, snapshot, changed, tombstonesOf]
      simp only [Function.comp_def] at htombs
      omega
    have hrev : (decimal next.revision).length <= (decimal s.revision).length + 1 := by
      rw [hnext]
      exact length_revision_changed _
    refine Nat.le_trans (length_snapshot_le hlists hrev) ?_
    rw [<- hplan, hsum]
    simp only [revisionGrowthBytes]
    omega
  · intro part
    rw [hnext, <- hplan]
    cases part with
    | accounts => exact haccs.length_le
    | grants | observations | bindings | jobs => exact length_filter_le _ _
    | tombstones =>
      exact Nat.le_of_eq (by
        simp [counts, snapshot, changed, tombstonesOf, OutcomeGrowth.counts])
    | sourceLinks => exact links_sublist haccs
    | _ => exact Nat.le_refl _

/-!
## Acquiring
-/

/-- Counters and generations of a reference are 64 bits wide. -/
structure RefTyped (ref : NativeRef) : Prop where
  adapterEpoch : ref.adapterEpoch <= maxU64
  endpointGeneration : ref.endpointGeneration <= maxU64
  threadInstanceGeneration : ref.threadInstanceGeneration <= maxU64
  attachmentGeneration : ref.attachmentGeneration <= maxU64

structure Binding.Typed (binding : Binding) : Prop where
  grantGeneration : binding.grantGeneration <= maxU64
  routeGeneration : binding.routeGeneration <= maxU64
  lastUsedRevision : binding.lastUsedRevision <= maxU64
  nativeRef : forall ref, binding.nativeRef = some ref -> RefTyped ref

def TypedTime (time : Int) : Prop :=
  minI64 <= time ∧ time <= maxI64
deriving Decidable

structure Lease.Typed (lease : Lease) : Prop where
  grantGeneration : lease.grantGeneration <= maxU64
  routeGeneration : lease.routeGeneration <= maxU64
  startedAt : TypedTime lease.startedAt
  expiresAt : TypedTime lease.expiresAt
  nativeRef : forall ref, lease.nativeRef = some ref -> RefTyped ref

theorem length_time_le {time : Int} (h : TypedTime time) :
    (decimalInt time).length <= (decimalInt minI64).length := by
  have hleast : (decimalInt minI64).length = 1 + (decimal (2 ^ 63)).length := by decide +kernel
  rw [hleast]
  refine length_decimalInt_le ?_ ?_
  · exact h.1
  · exact Int.le_trans h.2 (by decide)

theorem length_ref_le {ref : Option NativeRef}
    (h : forall value, ref = some value -> RefTyped value) :
    ((Shape.optional nativeRefShape).json ref).length <=
      ((Shape.optional nativeRefShape).json (ref.map widestNativeRef)).length := by
  cases ref with
  | none => exact le_rfl
  | some value =>
    have htyped := h value rfl
    exact length_record_le ⟨le_rfl, length_decimal_mono htyped.adapterEpoch,
      length_decimal_mono htyped.endpointGeneration, length_decimal_mono
      htyped.threadInstanceGeneration, length_decimal_mono htyped.attachmentGeneration, trivial⟩

theorem length_binding_le (h : binding.Typed) (hidle : binding.inFlight = 0) :
    (bindingShape.json binding).length <= (bindingShape.json binding.widest).length := by
  refine length_record_le ⟨le_rfl, le_rfl, le_rfl, length_ref_le h.nativeRef, le_rfl,
    le_rfl, length_decimal_mono h.grantGeneration, length_decimal_mono h.routeGeneration, ?_,
    length_decimal_mono h.lastUsedRevision, trivial⟩
  refine length_decimal_mono ?_
  rw [hidle]
  exact Nat.zero_le _

theorem length_lease_le (h : lease.Typed) :
    ((leaseShape format).json lease).length <= ((leaseShape format).json lease.widest).length := by
  exact length_record_le ⟨le_rfl, le_rfl, length_ref_le h.nativeRef, le_rfl, le_rfl,
    length_decimal_mono h.grantGeneration, length_decimal_mono h.routeGeneration, le_rfl, le_rfl,
    le_rfl, le_rfl, le_rfl, le_rfl, le_rfl, length_time_le h.startedAt,
    length_time_le h.expiresAt, trivial⟩

theorem length_inFlight_succ (b : Binding) :
    (bindingShape.json { b with inFlight := b.inFlight + 1 }).length <=
      (bindingShape.json b).length + 1 := by
  have hdigit := length_decimal_succ b.inFlight
  change (Shape.membersJson _ _).length <= (Shape.membersJson _ _).length + 1
  rw [length_membersJson, length_membersJson]
  simp only [map_cons, map_nil, sum_cons]
  simp only [text, scalar, field, Shape.comap, Shape.ofScalar, u32, Scalar.unsigned]
  linarith

theorem arrayBytes_bind {out : Binding} {bound : State} (h : s.bind binding = .ok (bound, out)) :
    arrayBytes bindingShape.json bound.bindings <=
        arrayBytes bindingShape.json s.bindings + (bindingShape.json binding).length + 1 ∧
      bound.bindings.length <= s.bindings.length + 1 ∧
      bound = { s with bindings := bound.bindings }.changed := by
  rcases bind_inv h with ⟨_, _, _, _, _, _, _, hcases⟩
  rcases hcases with ⟨i, _, hentry, _, _, hbound⟩ | ⟨_, _, rfl⟩
  · have hset := arrayBytes_set bindingShape.json binding (recordEntry_eq_some hentry).1
    have hlength : (s.bindings.set i binding).length = s.bindings.length := length_set
    rw [hbound]
    refine ⟨?_, ?_, rfl⟩
    · simp only [changed]
      omega
    · simp only [changed]
      omega
  · refine ⟨arrayBytes_concat bindingShape.json s.bindings binding, ?_, rfl⟩
    simp only [changed, length_append]
    exact le_rfl

theorem acquisition_grows_within {out : Binding} {issued : Lease} {now : Int} {bound : State}
    (hbindingTyped : binding.Typed) (hleaseTyped : lease.Typed)
    (hplan : acquisitionGrowth format binding lease = .ok plan)
    (hbind : s.bind binding = .ok (bound, out))
    (hbegin : bound.beginLease lease now = .ok (next, issued)) :
    GrowsWithin format plan s next := by
  have hidle := (bind_inv hbind).2.2.2.2.1
  rcases arrayBytes_bind hbind with ⟨_, hboundLength, hboundEq⟩
  rcases beginLease_inv hbegin with ⟨_, _, _, bi, b, g, hentry, _, _, _, _, _, hnext⟩
  simp only [acquisitionGrowth, ok_iff] at hplan
  rcases hplan with ⟨_, _, _, _, _, _, _, haud, _, hbindingBytes, _, hleaseBytes, hplan⟩
  have hissued : issuedLease g lease = lease := by
    rw [issuedLease, haud]
    rfl
  rw [hissued] at hnext
  have hset := arrayBytes_set bindingShape.json { b with inFlight := b.inFlight + 1 }
    (recordEntry_eq_some hentry).1
  have hdigit := length_inFlight_succ b
  have hconcat := arrayBytes_concat (leaseShape format).json bound.leases lease
  have hbindingLe := length_binding_le hbindingTyped hidle
  have hleaseLe := @length_lease_le _ format hleaseTyped
  have hboundRevision : (decimal bound.revision).length <= (decimal s.revision).length + 1 := by
    rw [hboundEq]
    exact length_revision_changed _
  have hrev : (decimal next.revision).length <= (decimal s.revision).length + 2 := by
    have hlast := length_revision_changed { bound with
      leases := bound.leases ++ [lease]
      bindings := bound.bindings.set bi { b with inFlight := b.inFlight + 1 } }
    rw [hnext]
    exact hlast.trans (Nat.succ_le_succ hboundRevision)
  constructor
  · have hlists : next.snapshot.listBytes format <= s.snapshot.listBytes format +
        ((bindingShape.json binding).length + 2 + ((leaseShape format).json lease).length + 1) := by
      rw [hboundEq] at hconcat
      rw [hnext]
      simp only [listBytes, snapshot, changed] at hconcat ⊢
      rw [hboundEq]
      simp only [changed]
      omega
    refine (length_snapshot_le hlists hrev).trans ?_
    rw [<- hplan, recordGrowth_eq_ok hbindingBytes, recordGrowth_eq_ok hleaseBytes]
    simp only [revisionGrowthBytes]
    omega
  · intro part
    rw [hnext, <- hplan, hboundEq]
    cases part with
    | bindings =>
      simpa [counts, snapshot, changed, OutcomeGrowth.counts] using
        hboundLength
    | leases => simp [counts, snapshot, changed, OutcomeGrowth.counts]
    | _ => exact le_rfl

/-!
## Reporting a rejection
-/

theorem length_inFlight_pred (b : Binding) :
    (bindingShape.json { b with inFlight := b.inFlight - 1 }).length <=
      (bindingShape.json b).length := by
  exact length_record_le ⟨le_rfl, le_rfl, le_rfl, le_rfl, le_rfl, le_rfl, le_rfl, le_rfl,
    length_decimal_mono (Nat.sub_le _ _), le_rfl, trivial⟩

theorem complete_grows {id : Bytes} (h : s.completeLease id = .ok next) :
    next.snapshot.listBytes format + 2 <= s.snapshot.listBytes format ∧
      (decimal next.revision).length <= (decimal s.revision).length + 1 ∧
      forall part, next.snapshot.counts part <= s.snapshot.counts part := by
  rcases completeLease_inv h with ⟨i, lease, _, b, hlease, hbind, _, hnext⟩
  have hset := arrayBytes_set bindingShape.json { b with inFlight := b.inFlight - 1 }
    (recordEntry_eq_some hbind).1
  have hdigit := length_inFlight_pred b
  have herased := arrayBytes_eraseIdx (leaseShape format).json (recordEntry_eq_some hlease).1
  have hlength : 2 <= ((leaseShape format).json lease).length := by
    change 2 <= (Shape.membersJson _ lease).length
    rw [length_membersJson]
    omega
  subst hnext
  refine ⟨?_, length_revision_changed _, ?_⟩
  · simp only [listBytes, snapshot, changed]
    omega
  · intro part
    cases part with
    | bindings => exact length_set.le
    | leases => exact (eraseIdx_sublist _ _).length_le
    | _ => exact le_rfl

theorem observe_grows {input : Observation} (h : s.observe input = .ok next) :
    next.snapshot.listBytes format <= s.snapshot.listBytes format +
        (((observationShape format).json input).length + 1) ∧
      (decimal next.revision).length <= (decimal s.revision).length + 1 ∧
      next.observations.length <= s.observations.length + 1 ∧
      next = { s with observations := next.observations, revision := next.revision } := by
  rcases (observe_inv h).2.2 with ⟨i, _, hentry, _, hcases⟩ | ⟨_, _, hnext⟩
  · rcases hcases with ⟨_, rfl⟩ | ⟨_, hnext⟩
    · exact ⟨Nat.le_add_right _ _, Nat.le_add_right _ _, Nat.le_add_right _ _, rfl⟩
    · have hset := arrayBytes_set (observationShape format).json input (firstEntry_eq_some hentry).1
      have hret : (retireOlderRejections (s.observations.set i input) input).Sublist
          (s.observations.set i input) := filter_sublist
      have hbytes := arrayBytes_sublist (observationShape format).json hret
      have hlength := hret.length_le
      rw [length_set] at hlength
      rw [hnext]
      refine ⟨?_, length_revision_changed _, hlength.trans (Nat.le_add_right _ _), rfl⟩
      simp only [listBytes, snapshot, changed]
      omega
  · have hconcat := arrayBytes_concat (observationShape format).json s.observations input
    have hret : (retireOlderRejections (s.observations ++ [input]) input).Sublist
        (s.observations ++ [input]) := filter_sublist
    have hbytes := arrayBytes_sublist (observationShape format).json hret
    have hlength := hret.length_le
    rw [length_append] at hlength
    rw [hnext]
    refine ⟨?_, length_revision_changed _, hlength, rfl⟩
    simp only [listBytes, snapshot, changed]
    omega

theorem length_rejection_le {resource : Resource} {status : Nat} {timestamp : Int}
    (hstart : TypedTime timestamp) (hend : TypedTime (timestamp + cooldown status)) :
    ((observationShape format).json (rejection lease resource status timestamp)).length <=
      ((observationShape format).json (widestRejection lease resource)).length := by
  exact length_record_le ⟨le_rfl, le_rfl, le_rfl, le_rfl, le_rfl, length_time_le hstart,
    length_time_le hend, length_time_le hstart, length_time_le hend, le_rfl, le_rfl, trivial⟩

theorem length_status_invalid (g : Grant) :
    (grantShape.json { g with status := .invalid }).length <= (grantShape.json g).length + 2 := by
  have hstatus : (jsonString GrantStatus.invalid.name).length <=
      (jsonString g.status.name).length + 2 := by
    cases g.status <;> decide
  change (Shape.membersJson _ _).length <= (Shape.membersJson _ _).length + 2
  rw [length_membersJson, length_membersJson]
  simp only [map_cons, map_nil, sum_cons]
  simp only [text, texts, scalar, field, Shape.comap, Shape.ofScalar,
    grantStatus, Scalar.enumeration]
  linarith

theorem sum_single_le {κ : Type} [DecidableEq κ] {key : α -> κ} (hnodup : (records.map key).Nodup)
    (k : κ) (matched : α -> Bool) (amount : Nat)
    (hmatched : forall x, matched x = true -> key x = k) :
    (records.map (fun x => if matched x then amount else 0)).sum <= amount := by
  induction records with
  | nil => exact Nat.zero_le _
  | cons x rest ih =>
    rw [map_cons, nodup_cons] at hnodup
    rw [map_cons]
    cases hx : matched x with
    | false => simpa using ih hnodup.2
    | true =>
      have hrest : rest.map (fun y => if matched y then amount else 0) = rest.map (fun _ => 0) := by
        refine map_congr_left (fun y hy => ?_)
        have hy' : matched y = false := by
          cases hm : matched y with
          | false => rfl
          | true =>
            have hmem : key y ∈ rest.map key := mem_map_of_mem hy
            rw [hmatched y hm, <- hmatched x hx] at hmem
            exact absurd hmem hnodup.1
        rw [hy']
        rfl
      rw [hrest]
      simp

theorem invalidate_grows (hs : s.Reachable) (lease : Lease) :
    (s.invalidateLeased lease).snapshot.listBytes format <= s.snapshot.listBytes format + 2 := by
  have hdist := (wellFormed_of_reachable hs).grants.distinct
  have hsum := sum_single_le hdist lease.grantId
    (fun g => g.id == lease.grantId && g.generation == lease.grantGeneration) 2
    (fun g hg => by
      rw [Bool.and_eq_true] at hg
      exact eq_of_beq hg.1)
  have hgrown : List.Forall₂ (fun x y => (grantShape.json y).length <= (grantShape.json x).length +
        (if x.id == lease.grantId && x.generation == lease.grantGeneration then 2 else 0))
      s.grants (s.invalidateLeased lease).grants := by
    rw [invalidateLeased, forall₂_map_right_iff, forall₂_same]
    intro g _
    split
    · exact length_status_invalid g
    · exact le_rfl
  have hbytes := arrayBytes_forall₂ grantShape.json hgrown
  simp only [listBytes, snapshot, invalidateLeased] at hbytes ⊢
  omega

theorem report_grows_within (hs : s.Reachable) {status : Nat} {timestamp : Int}
    (hstart : TypedTime timestamp) (hend : TypedTime (timestamp + cooldown status))
    (hplan : reportGrowth format lease = .ok plan)
    (h : s.rejectLease lease status timestamp = .ok next) : GrowsWithin format plan s next := by
  simp only [reportGrowth, ok_iff] at hplan
  rcases hplan with ⟨_, _, hplan⟩
  have hrev : revisionGrowthBytes <= plan.bytes := by
    cases hres : lease.resource with
    | none =>
      rw [hres] at hplan
      rw [<- Except.ok.inj hplan]
    | some =>
      simp only [hres, ok_iff] at hplan
      rcases hplan with ⟨bytes, _, hplan⟩
      rw [<- hplan]
      exact Nat.le_add_left _ _
  unfold State.rejectLease at h
  split at h
  · rcases @complete_grows format _ _ _ h with ⟨hlists, hdigits, hcounts⟩
    have hinvalid := @invalidate_grows format _ hs lease
    constructor
    · have hgrown : next.snapshot.listBytes format <= s.snapshot.listBytes format + 0 := by omega
      refine (length_snapshot_le hgrown hdigits).trans ?_
      simp only [revisionGrowthBytes] at hrev
      omega
    · intro part
      refine (hcounts part).trans (Nat.le_trans ?_ (Nat.le_add_right _ _))
      cases part with
      | grants => exact (length_map _).le
      | _ => exact le_rfl
  · simp only [ok_iff] at h
    rcases h with ⟨resource, hres, _, hobs, hcomp⟩
    simp only [hres, ok_iff] at hplan
    rcases hplan with ⟨bytes, hbytes, hplan⟩
    rcases @observe_grows format _ _ _ hobs with ⟨_, _, hlength, hobservedEq⟩
    rcases @complete_grows format _ _ _ hcomp with ⟨hlists, _, hcounts⟩
    have hwidest := @length_rejection_le lease format resource status timestamp hstart hend
    constructor
    · have hgrown : next.snapshot.listBytes format <= s.snapshot.listBytes format +
          (((observationShape format).json (widestRejection lease resource)).length + 1) := by
        omega
      have hdigits : (decimal next.revision).length <= (decimal s.revision).length + 2 := by omega
      refine (length_snapshot_le hgrown hdigits).trans ?_
      rw [<- hplan, recordGrowth_eq_ok hbytes]
      simp only [revisionGrowthBytes]
      omega
    · intro part
      refine (hcounts part).trans ?_
      rw [hobservedEq, <- hplan]
      cases part with
      | observations => exact hlength
      | _ => exact le_rfl

/-!
## Maintenance
-/

/-- A change of statuses, generations, expiries and lifecycles only. -/
structure Maintained (s next : State) : Prop where
  revision : next.revision <= maxU64
  sources : List.Forall₂ (fun x y : Source => y = { x with status := y.status })
    s.sources next.sources
  accounts : List.Forall₂ (fun x y : Account => y = { x with lifecycle := y.lifecycle })
    s.accounts next.accounts
  grants : List.Forall₂ (fun x y : Grant =>
    y = { x with
      generation := y.generation
      status := y.status
      providerExpiresAt := y.providerExpiresAt
      custodyExpiresAt := y.custodyExpiresAt } ∧
    y.generation <= maxU64 ∧
    (forall time, y.providerExpiresAt = some time -> TypedTime time) ∧
    (forall time, y.custodyExpiresAt = some time -> TypedTime time)) s.grants next.grants
  jobs : List.Forall₂ (fun x y : Job =>
    y = { x with status := y.status, operationGeneration := y.operationGeneration } ∧
    y.operationGeneration <= maxU64) s.jobs next.jobs
  observations : next.observations = s.observations
  bindings : next.bindings = s.bindings
  leases : next.leases = s.leases
  tombstones : next.tombstones = s.tombstones
  quarantinedImports : next.quarantinedImports = s.quarantinedImports

theorem length_expiry_le {expiry : Option Int}
    (h : forall time, expiry = some time -> TypedTime time) :
    (jsonOption decimalInt expiry).length <= (jsonOption decimalInt (some minI64)).length := by
  cases expiry with
  | none => decide +kernel
  | some time => exact length_time_le (h time rfl)

theorem length_source_le {x y : Source} (h : y = { x with status := y.status }) :
    (sourceShape.json y).length <= (sourceShape.json x.widest).length := by
  rw [h]
  refine length_record_le ⟨le_rfl, le_rfl, le_rfl, le_rfl, ?_, le_rfl, le_rfl, trivial⟩
  change (jsonString y.status.name).length <= (jsonString SourceStatus.disconnected.name).length
  cases y.status <;> decide

theorem length_account_le {x y : Account} (h : y = { x with lifecycle := y.lifecycle }) :
    (accountShape.json y).length <= (accountShape.json x.widest).length := by
  rw [h]
  refine length_record_le ⟨le_rfl, le_rfl, le_rfl, le_rfl, ?_, le_rfl, trivial⟩
  change (jsonString y.lifecycle.name).length <= (jsonString AccountLifecycle.draining.name).length
  cases y.lifecycle <;> decide

theorem length_job_le {x y : Job}
    (h : y = { x with status := y.status, operationGeneration := y.operationGeneration })
    (htyped : y.operationGeneration <= maxU64) :
    (jobShape.json y).length <= (jobShape.json x.widest).length := by
  rw [h]
  refine length_record_le ⟨le_rfl, le_rfl, le_rfl, ?_, length_decimal_mono htyped, trivial⟩
  change (jsonString y.status.name).length <= (jsonString JobStatus.completed.name).length
  cases y.status <;> decide

theorem length_grant_le {x y : Grant} (h : y = { x with
      generation := y.generation
      status := y.status
      providerExpiresAt := y.providerExpiresAt
      custodyExpiresAt := y.custodyExpiresAt })
    (hgen : y.generation <= maxU64)
    (hprov : forall time, y.providerExpiresAt = some time -> TypedTime time)
    (hcust : forall time, y.custodyExpiresAt = some time -> TypedTime time) :
    (grantShape.json y).length <= (grantShape.json x.widest).length := by
  rw [h]
  refine length_record_le ⟨le_rfl, le_rfl, le_rfl, le_rfl, le_rfl, le_rfl, le_rfl, le_rfl,
    length_decimal_mono hgen, ?_, length_expiry_le hprov, length_expiry_le hcust,
    trivial⟩
  change (jsonString y.status.name).length <= (jsonString GrantStatus.quarantined.name).length
  cases y.status <;> decide

/-- Every record of a list may become its widest form. -/
theorem arrayBytes_widening (json : α -> Bytes) (widest : α -> α) {changed : List α}
    (h : List.Forall₂ (fun x y => (json y).length <= (json (widest x)).length) records changed) :
    arrayBytes json changed <= arrayBytes json records +
      (records.map (fun x => (json (widest x)).length - (json x).length)).sum := by
  refine arrayBytes_forall₂ json (h.imp (fun x y _ => ?_))
  omega

theorem length_revision_typed {later : Nat} (h : later <= maxU64) (revision : Nat) :
    (decimal later).length <= (decimal revision).length + revisionGrowthBytes := by
  have hmost : (decimal maxU64).length = revisionGrowthBytes := by decide +kernel
  have hle := length_decimal_mono h
  omega

theorem links_maintained {accounts changed : List Account} (most : Nat)
    (h : List.Forall₂ (fun x y : Account => y = { x with lifecycle := y.lifecycle })
      accounts changed) :
    changed.foldl (fun most account => max most account.sourceIds.length) most =
      accounts.foldl (fun most account => max most account.sourceIds.length) most := by
  induction h generalizing most with
  | nil => rfl
  | cons hxy _ ih =>
    rw [hxy]
    exact ih _

theorem maintenance_grows_within (h : Maintained s next)
    (hplan : maintenanceGrowth s.snapshot = .ok plan) : GrowsWithin format plan s next := by
  simp only [maintenanceGrowth, ok_iff] at hplan
  rcases hplan with ⟨_, hgrants, _, hjobs, _, haccs, _, hsrcs, hplan⟩
  have hgrantBytes := arrayBytes_widening grantShape.json Grant.widest
    (h.grants.imp (fun _ _ hxy => length_grant_le hxy.1 hxy.2.1 hxy.2.2.1 hxy.2.2.2))
  have hjobBytes := arrayBytes_widening jobShape.json Job.widest
    (h.jobs.imp (fun _ _ hxy => length_job_le hxy.1 hxy.2))
  have haccountBytes := arrayBytes_widening accountShape.json Account.widest
    (h.accounts.imp (fun _ _ hxy => length_account_le hxy))
  have hsourceBytes := arrayBytes_widening sourceShape.json Source.widest
    (h.sources.imp (fun _ _ hxy => length_source_le hxy))
  have hbytes : plan.bytes = _ :=
    (congrArg OutcomeGrowth.bytes hplan).symm.trans (wideningAll_eq_ok hsrcs)
  rw [wideningAll_eq_ok haccs, wideningAll_eq_ok hjobs, wideningAll_eq_ok hgrants] at hbytes
  constructor
  · have hrev := length_revision_typed h.revision s.revision
    rw [length_snapshotJson, length_snapshotJson, hbytes]
    simp only [listBytes, snapshot] at hgrantBytes hjobBytes ⊢
    rw [h.observations, h.bindings, h.leases, h.tombstones, h.quarantinedImports]
    linarith
  · intro part
    refine (Nat.le_of_eq ?_).trans (Nat.le_add_right _ _)
    cases part with
    | sources => exact h.sources.length_eq.symm
    | accounts => exact h.accounts.length_eq.symm
    | grants => exact h.grants.length_eq.symm
    | jobs => exact h.jobs.length_eq.symm
    | observations => exact congrArg List.length h.observations
    | bindings => exact congrArg List.length h.bindings
    | leases => exact congrArg List.length h.leases
    | tombstones => exact congrArg List.length h.tombstones
    | quarantinedImports => exact congrArg List.length h.quarantinedImports
    | sourceLinks => exact links_maintained 0 h.accounts
    | _ => rfl

/-!
## Every plan
-/

/-- Generations and times range over the integers of 64 bits that hold them. -/
theorem local_growth_plans_sound (format : FloatFormat) {s : State} (hs : s.Reachable) :
    (forall accountId plan next, s.forgetGrowth accountId = .ok plan ->
      s.forget accountId = .ok next -> GrowsWithin format plan s next) ∧
    (forall (binding out : Binding) (lease issued : Lease) now plan (bound next : State),
      binding.Typed -> lease.Typed -> acquisitionGrowth format binding lease = .ok plan ->
      s.bind binding = .ok (bound, out) -> bound.beginLease lease now = .ok (next, issued) ->
      GrowsWithin format plan s next) ∧
    (forall lease status timestamp plan next, TypedTime timestamp ->
      TypedTime (timestamp + cooldown status) -> reportGrowth format lease = .ok plan ->
      s.rejectLease lease status timestamp = .ok next -> GrowsWithin format plan s next) ∧
    (forall plan next, Maintained s next -> maintenanceGrowth s.snapshot = .ok plan ->
      GrowsWithin format plan s next) := by
  refine ⟨?_, ?_, ?_, ?_⟩
  · intro accountId plan next hplan h
    exact forget_grows_within hplan h
  · intro binding out lease issued now plan bound next hbinding hlease hplan hbind hbegin
    exact acquisition_grows_within hbinding hlease hplan hbind hbegin
  · intro lease status timestamp plan next hstart hend hplan h
    exact report_grows_within hs hstart hend hplan h
  · intro plan next h hplan
    exact maintenance_grows_within h hplan

def heldBinding : Binding :=
  { id := [66], application := [112], sessionId := [116], accountId := [97],
    grantId := [103], grantGeneration := 1 }

def heldLease : Lease :=
  { id := [76], bindingId := [66], accountId := [97], grantId := [103],
    grantGeneration := 1, routeGeneration := 1, audience := [117],
    resource := some { kind := [99] }, startedAt := 30, expiresAt := 90 }

def heldState : State :=
  run State.step State.init (State.pairedRun ++ [.bind heldBinding, .beginLease heldLease 30])

def nextBinding : Binding :=
  { heldBinding with id := [67], accountId := [98], grantId := [104] }

def nextLease : Lease :=
  { heldLease with id := [77], bindingId := [67], accountId := [98], grantId := [104] }

def pausedState : State :=
  { heldState with
    accounts := heldState.accounts.map (fun account => { account with lifecycle := .paused }) }

theorem maintained_pausedState : Maintained heldState pausedState where
  revision := by decide +kernel
  sources := forall₂_same.mpr (fun _ _ => rfl)
  accounts := by
    unfold pausedState
    rw [forall₂_map_right_iff, forall₂_same]
    intro _ _
    rfl
  grants := by
    have hgrants : forall g, g ∈ heldState.grants -> g.generation <= maxU64 ∧
        g.providerExpiresAt = none ∧ g.custodyExpiresAt = none := by
      decide +kernel
    refine forall₂_same.mpr (fun g hg => ⟨rfl, (hgrants g hg).1, ?_, ?_⟩)
    · rw [(hgrants g hg).2.1]
      nofun
    · rw [(hgrants g hg).2.2]
      nofun
  jobs := by
    have hjobs : forall job, job ∈ heldState.jobs -> job.operationGeneration <= maxU64 := by
      decide +kernel
    exact forall₂_same.mpr (fun job hjob => ⟨rfl, hjobs job hjob⟩)
  observations := rfl
  bindings := rfl
  leases := rfl
  tombstones := rfl
  quarantinedImports := rfl

theorem local_growth_plans_of_heldState : heldState.leases = [heldLease] ∧
    (exists plan next, heldState.forgetGrowth [98] = .ok plan ∧ heldState.forget [98] = .ok next ∧
      GrowsWithin digits plan heldState next) ∧
    (exists plan bound out next issued,
      acquisitionGrowth digits nextBinding nextLease = .ok plan ∧
      heldState.bind nextBinding = .ok (bound, out) ∧
      bound.beginLease nextLease 30 = .ok (next, issued) ∧
      GrowsWithin digits plan heldState next) ∧
    (exists plan next, reportGrowth digits heldLease = .ok plan ∧
      heldState.rejectLease heldLease 429 40 = .ok next ∧
      GrowsWithin digits plan heldState next) ∧
    (exists plan, maintenanceGrowth heldState.snapshot = .ok plan ∧
      GrowsWithin digits plan heldState pausedState) := by
  have hreach : heldState.Reachable := ⟨_, rfl⟩
  rcases local_growth_plans_sound digits hreach with
    ⟨hforget, hacquire, hreport, hmaintain⟩
  refine ⟨by decide +kernel, ?_, ?_, ?_, ?_⟩
  · have hplan : Succeeds (heldState.forgetGrowth [98]) := by decide +kernel
    have hdone : Succeeds (heldState.forget [98]) := by decide +kernel
    rcases hplan with ⟨plan, hplan⟩
    rcases hdone with ⟨next, hdone⟩
    exact ⟨plan, next, hplan, hdone, hforget _ _ _ hplan hdone⟩
  · have hplan : Succeeds (acquisitionGrowth digits nextBinding nextLease) := by decide +kernel
    have hdone : Succeeds (heldState.bind nextBinding >>= fun bound =>
        bound.1.beginLease nextLease 30) := by
      decide +kernel
    rcases hplan with ⟨plan, hplan⟩
    rcases hdone with ⟨⟨next, issued⟩, hdone⟩
    rcases bind_eq_ok.mp hdone with ⟨⟨bound, out⟩, hbind, hbegin⟩
    refine ⟨plan, bound, out, next, issued, hplan, hbind, hbegin, ?_⟩
    refine hacquire _ _ _ _ _ _ _ _ ?_ ?_ hplan hbind hbegin
    · exact ⟨by decide, by decide, by decide, nofun⟩
    · exact ⟨by decide, by decide, by decide, by decide, nofun⟩
  · have hplan : Succeeds (reportGrowth digits heldLease) := by decide +kernel
    have hdone : Succeeds (heldState.rejectLease heldLease 429 40) := by decide +kernel
    rcases hplan with ⟨plan, hplan⟩
    rcases hdone with ⟨next, hdone⟩
    exact ⟨plan, next, hplan, hdone, hreport _ _ _ _ _ (by decide) (by decide) hplan hdone⟩
  · have hplan : Succeeds (maintenanceGrowth heldState.snapshot) := by decide +kernel
    rcases hplan with ⟨plan, hplan⟩
    exact ⟨plan, hplan, hmaintain _ _ maintained_pausedState hplan⟩

end Omux.Domain
