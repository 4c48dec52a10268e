import Omux.Domain.Inversion

/-!
# Well-formed states

The facts that `fromSnapshot` checks again, as an invariant.  Each table has its
own part, stated over the tables that its records refer to.
-/

namespace Omux.Domain

open Library State

/-!
## Tables
-/

/-- What `sameIdentity` compares. -/
def identityKey (identity : Identity) : Bytes × Bytes × Bytes × Bytes :=
  (identity.provider, identity.issuer, identity.subject, identity.tenant)

theorem sameIdentity_eq_true {a b : Identity} :
    sameIdentity a b = true ↔ identityKey a = identityKey b := by
  simp [sameIdentity, identityKey, and_assoc]

theorem sameIdentity_eq_false {a b : Identity} :
    sameIdentity a b = false ↔ identityKey a ≠ identityKey b := by
  rw [<- Bool.not_eq_true, sameIdentity_eq_true]

theorem sameResource_eq_true {a b : Resource} : sameResource a b = true ↔ a = b := by
  cases a
  cases b
  simp [sameResource, and_assoc]

structure SourceOk (source : Source) : Prop where
  id : requireId source.id = .ok ()
  authorization : validAuthorization source = true
  valid : validate source = .ok ()

structure SourcesOk (sources : List Source) : Prop where
  bounded : sources.length <= maxRecords
  distinct : (sources.map Source.id).Nodup
  each : forall source, source ∈ sources -> SourceOk source

structure AccountOk (sources : List Source) (owner : Account) : Prop where
  valid : validate owner = .ok ()
  id : requireId owner.id = .ok ()
  identity : requireIdentity owner.identity = .ok ()
  verified : owner.identity.verified = true
  linked : owner.sourceIds ≠ []
  distinct : owner.sourceIds.Nodup
  links : forall sourceId, sourceId ∈ owner.sourceIds ->
    exists source, source ∈ sources ∧ source.id = sourceId ∧
      providerAgrees source owner.identity = true

structure AccountsOk (sources : List Source) (accounts : List Account) : Prop where
  bounded : accounts.length <= maxRecords
  distinct : (accounts.map Account.id).Nodup
  identities : (accounts.map (fun owner => identityKey owner.identity)).Nodup
  each : forall owner, owner ∈ accounts -> AccountOk sources owner

structure GrantOk (accounts : List Account) (g : Grant) : Prop where
  valid : validateGrant g = .ok ()
  owned : exists owner, owner ∈ accounts ∧ owner.id = g.accountId ∧
    g.sourceId ∈ owner.sourceIds

structure GrantsOk (accounts : List Account) (grants : List Grant) : Prop where
  bounded : grants.length <= maxRecords
  distinct : (grants.map Grant.id).Nodup
  each : forall g, g ∈ grants -> GrantOk accounts g

structure ObservationOk (accounts : List Account) (o : Observation) : Prop where
  valid : validateObservation o = .ok ()
  owned : exists owner, owner ∈ accounts ∧ owner.id = o.accountId

structure ObservationsOk (accounts : List Account)
    (observations : List Observation) : Prop where
  bounded : observations.length <= maxRecords
  each : forall o, o ∈ observations -> ObservationOk accounts o

def leasesOn (leases : List Lease) (bindingId : Bytes) : Nat :=
  leases.countP (fun lease => lease.bindingId == bindingId)

structure BindingOk (grants : List Grant) (leases : List Lease)
    (b : Binding) : Prop where
  valid : validate b = .ok ()
  id : requireId b.id = .ok ()
  application : requireId b.application = .ok ()
  session : requireId b.sessionId = .ok ()
  routed : b.routeGeneration ≠ 0
  granted : exists g, g ∈ grants ∧ g.id = b.grantId ∧
    g.accountId = b.accountId ∧ b.grantGeneration ≠ 0 ∧
    b.grantGeneration <= g.generation
  counted : b.inFlight = leasesOn leases b.id

structure BindingsOk (grants : List Grant) (leases : List Lease)
    (bindings : List Binding) : Prop where
  bounded : bindings.length <= maxRecords
  distinct : (bindings.map Binding.id).Nodup
  each : forall b, b ∈ bindings -> BindingOk grants leases b

structure LeaseOk (grants : List Grant) (bindings : List Binding)
    (lease : Lease) : Prop where
  valid : validate lease = .ok ()
  id : requireId lease.id = .ok ()
  interval : leaseInterval lease = true
  bound : exists b, b ∈ bindings ∧ b.id = lease.bindingId ∧
    leaseFollows b lease = true
  authority : exists g, g ∈ grants ∧ g.id = lease.grantId ∧
    validateLeaseAuthority lease g = .ok ()

structure LeasesOk (grants : List Grant) (bindings : List Binding)
    (leases : List Lease) : Prop where
  bounded : leases.length <= maxRecords
  distinct : (leases.map Lease.id).Nodup
  each : forall lease, lease ∈ leases -> LeaseOk grants bindings lease

def tombstoneKey (tombstone : Tombstone) : (Bytes × Bytes × Bytes × Bytes) × Bytes :=
  (identityKey tombstone.identity, tombstone.sourceId)

structure TombstoneOk (sources : List Source) (accounts : List Account)
    (tombstone : Tombstone) : Prop where
  valid : validate tombstone = .ok ()
  identity : requireIdentity tombstone.identity = .ok ()
  verified : tombstone.identity.verified = true
  source : tombstone.sourceId ∈ sources.map Source.id
  forgotten : forall owner, owner ∈ accounts ->
    identityKey owner.identity ≠ identityKey tombstone.identity

structure TombstonesOk (sources : List Source) (accounts : List Account)
    (tombstones : List Tombstone) : Prop where
  bounded : tombstones.length <= maxRecords
  distinct : (tombstones.map tombstoneKey).Nodup
  each : forall tombstone, tombstone ∈ tombstones ->
    TombstoneOk sources accounts tombstone

structure QuarantineOk (sources : List Source)
    (candidate : QuarantinedImport) : Prop where
  valid : validate candidate = .ok ()
  id : requireId candidate.candidateId = .ok ()
  identity : requireIdentity candidate.identity = .ok ()
  reason : reasonConflicts candidate = false
  source : candidate.sourceId ∈ sources.map Source.id

structure QuarantinesOk (sources : List Source)
    (imports : List QuarantinedImport) : Prop where
  bounded : imports.length <= maxRecords
  each : forall candidate, candidate ∈ imports -> QuarantineOk sources candidate

structure JobOk (accounts : List Account) (job : Job) : Prop where
  valid : validate job = .ok ()
  id : requireId job.id = .ok ()
  generation : job.operationGeneration ≠ 0
  owned : job.accountId = [] ∨
    exists owner, owner ∈ accounts ∧ owner.id = job.accountId

structure JobsOk (accounts : List Account) (jobs : List Job) : Prop where
  bounded : jobs.length <= maxRecords
  distinct : (jobs.map Job.id).Nodup
  each : forall job, job ∈ jobs -> JobOk accounts job

structure WellFormed (s : State) : Prop where
  sources : SourcesOk s.sources
  accounts : AccountsOk s.sources s.accounts
  grants : GrantsOk s.accounts s.grants
  observations : ObservationsOk s.accounts s.observations
  bindings : BindingsOk s.grants s.leases s.bindings
  leases : LeasesOk s.grants s.bindings s.leases
  tombstones : TombstonesOk s.sources s.accounts s.tombstones
  quarantine : QuarantinesOk s.sources s.quarantinedImports
  jobs : JobsOk s.accounts s.jobs

theorem wellFormed_init : WellFormed init := by
  constructor <;> constructor <;> simp [init]

theorem wellFormed_revision {s : State} {revision : Nat} (h : WellFormed s) :
    WellFormed { s with revision } :=
  { h with }

theorem wellFormed_changed {s : State} (h : WellFormed s) : WellFormed s.changed :=
  wellFormed_revision h

/-!
## References survive covering changes
-/

/-- An account keeps its id and loses no source. -/
def AccountKept (old new : Account) : Prop :=
  new.id = old.id ∧ forall sourceId, sourceId ∈ old.sourceIds ->
    sourceId ∈ new.sourceIds

theorem accountKept_refl (owner : Account) : AccountKept owner owner :=
  ⟨rfl, fun _ h => h⟩

section

variable {accounts : List Account} {accounts' : List Account}
  (hcovers : Covers AccountKept accounts accounts')
include hcovers

theorem owner_covered {id : Bytes} (h : exists owner, owner ∈ accounts ∧ owner.id = id) :
    exists owner, owner ∈ accounts' ∧ owner.id = id := by
  rcases h with ⟨owner, howner, hid⟩
  rcases hcovers owner howner with ⟨owner', howner', hkept⟩
  exact ⟨owner', howner', by rw [hkept.left, hid]⟩

theorem grantsOk_of_covers {grants : List Grant} (h : GrantsOk accounts grants) :
    GrantsOk accounts' grants := by
  refine ⟨h.bounded, h.distinct, ?_⟩
  intro g hg
  rcases h.each g hg with ⟨hvalid, owner, howner, hid, hsource⟩
  rcases hcovers owner howner with ⟨owner', howner', hkept⟩
  exact ⟨hvalid, owner', howner', by rw [hkept.left, hid], hkept.right g.sourceId hsource⟩

theorem observationsOk_of_covers {observations : List Observation}
    (h : ObservationsOk accounts observations) : ObservationsOk accounts' observations := by
  refine ⟨h.bounded, ?_⟩
  intro o ho
  exact ⟨(h.each o ho).valid, owner_covered hcovers (h.each o ho).owned⟩

theorem jobsOk_of_covers {jobs : List Job} (h : JobsOk accounts jobs) : JobsOk accounts' jobs := by
  refine ⟨h.bounded, h.distinct, ?_⟩
  intro job hjob
  have hj := h.each job hjob
  refine { hj with owned := ?_ }
  cases hj.owned with
  | inl hnone => exact Or.inl hnone
  | inr howner => exact Or.inr (owner_covered hcovers howner)

end

/-- A grant keeps its account, does not go back, and still carries every lease. -/
def GrantKept (old new : Grant) : Prop :=
  new.id = old.id ∧ new.accountId = old.accountId ∧
    old.generation <= new.generation ∧
    forall lease, validateLeaseAuthority lease old = .ok () ->
      validateLeaseAuthority lease new = .ok ()

theorem grantKept_refl (g : Grant) : GrantKept g g :=
  ⟨rfl, rfl, le_rfl, fun _ h => h⟩

theorem bindingsOk_of_covers {grants grants' : List Grant} {leases : List Lease}
    {bindings : List Binding} (hcovers : Covers GrantKept grants grants')
    (h : BindingsOk grants leases bindings) : BindingsOk grants' leases bindings := by
  refine ⟨h.bounded, h.distinct, ?_⟩
  intro b hb
  have hok := h.each b hb
  rcases hok.granted with ⟨g, hg, hid, hacct, hnonzero, hle⟩
  rcases hcovers g hg with ⟨g', hg', hid', hacct', hgen, _⟩
  refine { hok with granted := ?_ }
  exact ⟨g', hg', by rw [hid', hid], by rw [hacct', hacct], hnonzero, hle.trans hgen⟩

theorem leasesOk_of_covers {grants grants' : List Grant} {bindings : List Binding}
    {leases : List Lease} (hcovers : Covers GrantKept grants grants')
    (h : LeasesOk grants bindings leases) : LeasesOk grants' bindings leases := by
  refine ⟨h.bounded, h.distinct, ?_⟩
  intro lease hlease
  have hok := h.each lease hlease
  rcases hok.authority with ⟨g, hg, hid, hauth⟩
  rcases hcovers g hg with ⟨g', hg', hid', _, _, hkept⟩
  exact ⟨hok.valid, hok.id, hok.interval, hok.bound, g', hg', by rw [hid', hid], hkept lease hauth⟩

end Omux.Domain
