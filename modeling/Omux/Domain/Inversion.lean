import Omux.Domain.Steps

/-!
# What a successful operation did

One lemma for each operation: the guards that held in the state before, and the
state after.  Later proofs use these lemmas and never unfold an operation.
-/

namespace Omux.Domain

open Library
open Native (NativeRef sameNativeRef)

namespace State

variable {s next : State}

/-!
## Sources
-/

theorem connectSource_inv {source out : Source} (h : s.connectSource source = .ok (next, out)) :
    requireId source.id = .ok () ∧ validAuthorization source = true ∧
      ((exists i previous, s.sourceEntry source.id = some (i, previous) ∧
          s.reconnectConflicts previous source = false ∧
          validate (reconnected previous source) = .ok () ∧
          next = { s with
            sources := s.sources.set i (reconnected previous source) }.changed) ∨
        (s.sourceEntry source.id = none ∧ s.sources.length < maxRecords ∧
          validate source = .ok () ∧
          next = { s with sources := s.sources ++ [source] }.changed)) := by
  simp only [connectSource, ok_iff, bool_iff] at h
  rcases h with ⟨_, hid, _, hauth, h⟩
  refine ⟨hid, hauth, ?_⟩
  cases hentry : s.sourceEntry source.id with
  | none =>
    simp only [hentry, ok_iff, appendOwned_eq_ok, Prod.mk.injEq] at h
    rcases h with ⟨sources, ⟨hlen, hvalid, hsrcs⟩, hnext, _⟩
    rw [hsrcs] at hnext
    exact Or.inr ⟨rfl, hlen, hvalid, hnext.symm⟩
  | some entry =>
    rcases entry with ⟨i, previous⟩
    simp only [hentry, ok_iff, replaceOwned_eq_ok, Prod.mk.injEq] at h
    rcases h with ⟨_, hclash, sources, ⟨hvalid, hsrcs⟩, hnext, _⟩
    rw [hsrcs] at hnext
    exact Or.inl ⟨i, previous, rfl, hclash, hvalid, hnext.symm⟩

variable {id : Bytes} {input : Enrollment} {now : Int} {out : EnrollmentResult}

theorem detachSource_inv (h : s.detachSource id = .ok next) :
    exists i source, s.sourceEntry id = some (i, source) ∧
      next = { s with
        sources := s.sources.set i { source with status := .detached } }.changed := by
  simp only [detachSource, ok_iff] at h
  rcases h with ⟨⟨i, source⟩, hentry, hnext⟩
  exact ⟨i, source, hentry, hnext.symm⟩

theorem disconnectSource_inv (h : s.disconnectSource id = .ok next) :
    exists i source, s.sourceEntry id = some (i, source) ∧
      next = { s with
        sources := s.sources.set i { source with status := .disconnected }
        grants := s.grants.map (invalidateGrant id) }.changed := by
  simp only [disconnectSource, ok_iff] at h
  rcases h with ⟨⟨i, source⟩, hentry, hnext⟩
  exact ⟨i, source, hentry, hnext.symm⟩

/-!
## Enrollment
-/

def quarantinedImport (input : Enrollment) (reason : QuarantineReason) : QuarantinedImport :=
  { sourceId := input.sourceId, candidateId := input.accountId,
    identity := input.identity, reason }

theorem quarantine_inv {reason : QuarantineReason} (h : s.quarantine input reason = .ok next) :
    next = s ∨
      (s.quarantinedImports.length < maxRecords ∧
        validate (quarantinedImport input reason) = .ok () ∧
        next = { s with
          quarantinedImports :=
            s.quarantinedImports ++ [quarantinedImport input reason] }.changed) := by
  unfold quarantine at h
  split at h
  · apply Or.inl
    simpa using h.symm
  · simp only [ok_iff, appendOwned_eq_ok] at h
    rcases h with ⟨_, ⟨hlen, hvalid, rfl⟩, hnext⟩
    exact Or.inr ⟨hlen, hvalid, hnext.symm⟩

theorem admitIdentity_inv (h : s.admitIdentity input = .ok (next, out)) : next = s ∨
      (exists i existing, firstEntry (fun owner : Account =>
          sameIdentity owner.identity input.identity) s.accounts = some (i, existing) ∧
        input.sourceId ∉ existing.sourceIds ∧
        existing.sourceIds.length < maxListItems ∧
        next = { s with
          accounts := s.accounts.set i
            { existing with
              sourceIds := existing.sourceIds ++ [input.sourceId] } }.changed) ∨
      ((forall owner, owner ∈ s.accounts ->
          sameIdentity owner.identity input.identity = false) ∧
        s.accounts.length < maxRecords ∧
        validate (enrolledAccount input) = .ok () ∧
        next = { s with
          accounts := s.accounts ++ [enrolledAccount input] }.changed) := by
  unfold admitIdentity at h
  split at h
  · rename_i i existing hentry
    split at h
    · apply Or.inl
      simpa using (And.left (Prod.mk.inj (Except.ok.inj h))).symm
    · rename_i hcontains
      simp only [ok_iff, bool_iff, not_le, Prod.mk.injEq] at h
      rcases h with ⟨_, hlen, hnext, _⟩
      apply Or.inr
      apply Or.inl
      exact ⟨i, existing, hentry, by simpa using hcontains, hlen, hnext.symm⟩
  · rename_i hentry
    simp only [ok_iff, appendOwned_eq_ok, Prod.mk.injEq] at h
    rcases h with ⟨accounts, ⟨hlen, hvalid, rfl⟩, hnext, _⟩
    apply Or.inr
    apply Or.inr
    exact ⟨firstEntry_eq_none.mp hentry, hlen, hvalid, hnext.symm⟩

theorem enroll_inv (h : s.enroll input now = .ok (next, out)) :
    validate input = .ok () ∧ requireId input.accountId = .ok () ∧
      requireIdentity input.identity = .ok () ∧
      exists source, s.source input.sourceId = some source ∧
        providerAgrees source input.identity = true ∧
        (next = s ∨
          (input.identity.verified = false ∧ s.quarantine input .unverifiedIdentity = .ok next) ∨
          (input.identity.verified = true ∧ s.quarantine input .conflictingIdentity = .ok next) ∨
          (input.identity.verified = true ∧ s.idConflicts input = false ∧
            (forall tombstone, tombstone ∈ s.tombstones ->
              sameIdentity tombstone.identity input.identity = false) ∧
            s.admitIdentity input = .ok (next, out))) := by
  simp only [enroll, ok_iff, bool_iff] at h
  rcases h with ⟨_, hvalid, _, hid, _, hident, source, hsource, _, _, _, hagrees, h⟩
  refine ⟨hvalid, hid, hident, source, hsource, hagrees, ?_⟩
  split at h
  · apply Or.inl
    simpa using (And.left (Prod.mk.inj (Except.ok.inj h))).symm
  rename_i htomb
  split at h
  · rename_i hverif
    simp only [ok_iff, Prod.mk.injEq] at h
    rcases h with ⟨mid, hmid, hnext, _⟩
    rw [hnext] at hmid
    exact Or.inr (.inl ⟨by simpa using hverif, hmid⟩)
  rename_i hverif
  split at h
  · simp only [ok_iff, Prod.mk.injEq] at h
    rcases h with ⟨mid, hmid, hnext, _⟩
    rw [hnext] at hmid
    exact Or.inr (.inr (.inl ⟨by simpa using hverif, hmid⟩))
  · rename_i hclash
    have hnone : forall tombstone, tombstone ∈ s.tombstones ->
        sameIdentity tombstone.identity input.identity = false := by
      simpa using htomb
    exact Or.inr (.inr (.inr ⟨by simpa using hverif, by simpa using hclash, hnone, h⟩))

/-!
## Grants
-/

theorem addGrant_inv {input out : Grant} (h : s.addGrant input = .ok (next, out)) :
    validateGrant input = .ok () ∧
      (exists owner, s.account input.accountId = some owner ∧ input.sourceId ∈ owner.sourceIds) ∧
      ((exists i previous, s.grantEntry input.id = some (i, previous) ∧
          previous.accountId = input.accountId ∧
          previous.sourceId = input.sourceId ∧
          sameGrantAuthority previous input = true ∧
          input.generation = previous.generation + 1 ∧
          validate input = .ok () ∧
          next = { s with grants := s.grants.set i input }.changed) ∨
        (s.grantEntry input.id = none ∧ s.grants.length < maxRecords ∧
          validate input = .ok () ∧
          next = { s with grants := s.grants ++ [input] }.changed)) := by
  simp only [addGrant, ok_iff] at h
  rcases h with ⟨_, hgrant, owner, howner, _, hlink, _, _, h⟩
  refine ⟨hgrant, ⟨owner, howner, by simpa using hlink⟩, ?_⟩
  cases hentry : s.grantEntry input.id with
  | none =>
    simp only [hentry, ok_iff, appendOwned_eq_ok, Prod.mk.injEq] at h
    rcases h with ⟨grants, ⟨hlen, hvalid, hgrants⟩, hnext, _⟩
    rw [hgrants] at hnext
    exact Or.inr ⟨rfl, hlen, hvalid, hnext.symm⟩
  | some entry =>
    rcases entry with ⟨i, previous⟩
    simp only [hentry, ok_iff, replaceOwned_eq_ok, Prod.mk.injEq, bool_iff] at h
    rcases h with ⟨_, ⟨hacct, hsource⟩, _, hauth, _, ⟨_, hgen⟩,
      grants, ⟨hvalid, hgrants⟩, hnext, _⟩
    rw [hgrants] at hnext
    exact Or.inl ⟨i, previous, rfl, hacct, hsource, hauth, hgen, hvalid, hnext.symm⟩

/-- A reconciled grant keeps everything but its generation, status and expiry. -/
def reconciledGrant (g : Grant) (input : Reconciliation) : Grant :=
  { g with
    generation := input.nextGeneration
    status := input.status
    providerExpiresAt := input.providerExpiresAt
    custodyExpiresAt := input.custodyExpiresAt }

theorem reconcile_inv {input : Reconciliation} (h : s.reconcile input = .ok next) :
    exists i g, s.grantEntry input.grantId = some (i, g) ∧
      input.nextGeneration = g.generation + 1 ∧
      next = { s with grants := s.grants.set i (reconciledGrant g input) }.changed := by
  simp only [reconcile, ok_iff, bool_iff] at h
  rcases h with ⟨⟨i, g⟩, hentry, _, ⟨⟨hgen, _⟩, hnextGeneration⟩, _, _, hnext⟩
  exact ⟨i, g, hentry, by rw [hnextGeneration, hgen], hnext.symm⟩

/-!
## Observations
-/

def matchedEntry (observations : List Observation) (input : Observation) :
    Option (Nat × Observation) :=
  firstEntry (fun existing => supersedes existing input) observations

theorem observe_inv {input : Observation} (h : s.observe input = .ok next) :
    validateObservation input = .ok () ∧
      (exists owner, owner ∈ s.accounts ∧ owner.id = input.accountId) ∧
      ((exists i existing, matchedEntry s.observations input = some (i, existing) ∧
          existing.observedAt <= input.observedAt ∧
          ((ignoredUnknown existing input = true ∧ next = s) ∨
            (ignoredUnknown existing input = false ∧
              next = { s with
                observations := retireOlderRejections
                  (s.observations.set i input) input }.changed))) ∨
        (matchedEntry s.observations input = none ∧
          s.observations.length < maxRecords ∧
          next = { s with
            observations := retireOlderRejections
              (s.observations ++ [input]) input }.changed)) := by
  simp only [observe, ok_iff] at h
  rcases h with ⟨_, hvalid, _, hacct, h⟩
  refine ⟨hvalid, ?_, ?_⟩
  · cases hentry : s.accountEntry input.accountId with
    | none => simp [hentry] at hacct
    | some entry => exact ⟨entry.2, recordEntry_mem hentry, (recordEntry_eq_some hentry).right⟩
  · rw [<- matchedEntry] at h
    cases hentry : matchedEntry s.observations input with
    | none =>
      simp only [hentry, ok_iff, appendOwned_eq_ok] at h
      rcases h with ⟨stored, ⟨hlen, _, hstored⟩, hnext⟩
      rw [hstored] at hnext
      exact Or.inr ⟨rfl, hlen, hnext.symm⟩
    | some entry =>
      rcases entry with ⟨i, existing⟩
      simp only [hentry, ok_iff, bool_iff, Int.not_lt] at h
      rcases h with ⟨_, hobs, h⟩
      refine Or.inl ⟨i, existing, rfl, hobs, ?_⟩
      cases hignored : ignoredUnknown existing input with
      | true =>
        rw [hignored] at h
        exact Or.inl ⟨rfl, (Except.ok.inj h).symm⟩
      | false =>
        simp only [hignored, Bool.false_eq_true, if_false, ok_iff, replaceOwned_eq_ok] at h
        rcases h with ⟨stored, ⟨_, hstored⟩, hnext⟩
        rw [hstored] at hnext
        exact Or.inr ⟨rfl, hnext.symm⟩

/-- The staging state of a batch: the accounts and a copy of the records. -/
def staging (s : State) : State :=
  { accounts := s.accounts, observations := s.observations }

theorem foldlM_appendOwned {α : Type} [Validate α] {before values copied : List α}
    (h : values.foldlM appendOwned before = .ok copied) : copied = before ++ values := by
  induction values generalizing before with
  | nil =>
    rw [List.foldlM_nil, pure_eq_ok] at h
    simpa using h.symm
  | cons x _ ih =>
    rw [List.foldlM_cons, bind_eq_ok] at h
    rcases h with ⟨_, hmid, hrest⟩
    rw [ih hrest, (appendOwned_eq_ok.mp hmid).right.right]
    simp

theorem observeBatch_inv {input : List Observation} (h : s.observeBatch input = .ok next) :
    next = s ∨
      exists staged, input.foldlM observe s.staging = .ok staged ∧
        next = { s with observations := staged.observations }.changed := by
  unfold observeBatch at h
  split at h
  · exact Or.inl (Except.ok.inj h).symm
  · simp only [ok_iff] at h
    rcases h with ⟨_, _, copied, hcopied, staged, hstaged, h⟩
    have hcopy : copied = s.observations := by simpa using foldlM_appendOwned hcopied
    rw [hcopy] at hstaged
    split at h
    · exact Or.inl (Except.ok.inj h).symm
    · exact Or.inr ⟨staged, hstaged, (Except.ok.inj h).symm⟩

theorem pruneObservations_inv (h : (s.pruneObservations now).fst = next) : next = s ∨
      next = { s with observations := pruneLoop now [] s.observations }.changed := by
  unfold pruneObservations at h
  simp only at h
  split at h
  · exact Or.inl h.symm
  · exact Or.inr h.symm

/-!
## Bindings
-/

theorem bind_inv {input out : Binding} (h : s.bind input = .ok (next, out)) :
    validate input = .ok () ∧ requireId input.id = .ok () ∧
      requireId input.application = .ok () ∧
      requireId input.sessionId = .ok () ∧
      input.inFlight = 0 ∧ input.routeGeneration ≠ 0 ∧
      (exists g, s.grant input.grantId = some g ∧ g.accountId = input.accountId ∧ g.generation =
        input.grantGeneration) ∧
      ((exists i previous, s.bindingEntry input.id = some (i, previous) ∧
          previous.nativeRef = input.nativeRef ∧ previous.inFlight = 0 ∧
          next = { s with bindings := s.bindings.set i input }.changed) ∨
        (s.bindingEntry input.id = none ∧ s.bindings.length < maxRecords ∧
          next = { s with bindings := s.bindings ++ [input] }.changed)) := by
  simp only [State.bind, ok_iff, bool_iff] at h
  rcases h with ⟨_, hvalid, _, _, _, hid, _, happ, _, hsession, _,
    ⟨hidle, hroute⟩, g, hgrant, _, ⟨hacct, hgen⟩, h⟩
  refine ⟨hvalid, hid, happ, hsession, hidle, hroute, ⟨g, hgrant, hacct, hgen⟩, ?_⟩
  cases hentry : s.bindingEntry input.id with
  | none =>
    simp only [hentry, ok_iff, appendOwned_eq_ok, Prod.mk.injEq] at h
    rcases h with ⟨bindings, ⟨hlen, _, hbinds⟩, hnext, _⟩
    rw [hbinds] at hnext
    exact Or.inr ⟨rfl, hlen, hnext.symm⟩
  | some entry =>
    rcases entry with ⟨i, previous⟩
    simp only [hentry, ok_iff, replaceOwned_eq_ok, Prod.mk.injEq, bool_iff,
      Native.sameNativeRef_eq_true] at h
    rcases h with ⟨_, _, _, href, _, hprevious, _, _, bindings, ⟨_, hbinds⟩, hnext, _⟩
    rw [hbinds] at hnext
    exact Or.inl ⟨i, previous, rfl, href, hprevious, hnext.symm⟩

theorem releaseBindingIndex_inv {i : Nat} {b : Binding} (h : s.releaseBindingIndex i b = .ok next) :
    b.inFlight = 0 ∧ next = { s with bindings := s.bindings.eraseIdx i }.changed := by
  simp only [releaseBindingIndex, ok_iff, bool_iff] at h
  rcases h with ⟨_, hidle, hnext⟩
  exact ⟨hidle, hnext.symm⟩

theorem releaseBinding_inv (h : s.releaseBinding id = .ok next) :
    exists i b, s.bindingEntry id = some (i, b) ∧ b.inFlight = 0 ∧
      next = { s with bindings := s.bindings.eraseIdx i }.changed := by
  simp only [releaseBinding, ok_iff] at h
  rcases h with ⟨⟨i, b⟩, hentry, _, _, h⟩
  exact ⟨i, b, hentry, releaseBindingIndex_inv h⟩

theorem releaseBindingExact_inv {ref : NativeRef} (h : s.releaseBindingExact id ref = .ok next) :
    exists i b, s.bindingEntry id = some (i, b) ∧ b.inFlight = 0 ∧
      next = { s with bindings := s.bindings.eraseIdx i }.changed := by
  simp only [releaseBindingExact, ok_iff] at h
  rcases h with ⟨_, _, ⟨i, b⟩, hentry, _, _, _, _, h⟩
  exact ⟨i, b, hentry, releaseBindingIndex_inv h⟩

/-!
## Leases
-/

theorem beginLease_inv {input out : Lease} (h : s.beginLease input now = .ok (next, out)) :
    requireId input.id = .ok () ∧ leaseInterval input = true ∧
      (forall lease, lease ∈ s.leases -> lease.id ≠ input.id) ∧
      exists bi b g, s.bindingEntry input.bindingId = some (bi, b) ∧
        leaseFollows b input = true ∧ s.grant input.grantId = some g ∧
        validateLeaseAuthority input g = .ok () ∧
        s.leases.length < maxRecords ∧
        validate (issuedLease g input) = .ok () ∧
        next = { s with
          leases := s.leases ++ [issuedLease g input]
          bindings := s.bindings.set bi
            { b with inFlight := b.inFlight + 1 } }.changed := by
  simp only [beginLease, ok_iff, bool_iff, appendOwned_eq_ok, Prod.mk.injEq] at h
  rcases h with ⟨_, _, _, _, _, hid, _, ⟨_, hinterval⟩, _, hfresh, ⟨bi, b⟩,
    hbind, _, hfol, _, _, g, hgrant, _, hauth, _, _, _, _, _,
    _, _, _, _, _, _, _, _, _, leases, ⟨hlen, hvalid, rfl⟩, hnext, _⟩
  refine ⟨hid, hinterval, by simpa using hfresh, bi, b, g, hbind, hfol,
    hgrant, hauth, hlen, hvalid, hnext.symm⟩

theorem completeLease_inv (h : s.completeLease id = .ok next) :
    exists i lease bi b, recordEntry Lease.id s.leases id = some (i, lease) ∧
      s.bindingEntry lease.bindingId = some (bi, b) ∧ b.inFlight ≠ 0 ∧
      next = { s with
        bindings := s.bindings.set bi { b with inFlight := b.inFlight - 1 }
        leases := s.leases.eraseIdx i }.changed := by
  simp only [completeLease, ok_iff, bool_iff] at h
  rcases h with ⟨⟨i, lease⟩, hlease, ⟨bi, b⟩, hbind, _, hflight, hnext⟩
  exact ⟨i, lease, bi, b, hlease, hbind, hflight, hnext.symm⟩

/-!
## Account lifecycle
-/

theorem setLifecycle_inv {accountId : Bytes} {lifecycle : AccountLifecycle}
    (h : s.setLifecycle accountId lifecycle = .ok next) :
    exists i owner, s.accountEntry accountId = some (i, owner) ∧
      next = { s with
        accounts := s.accounts.set i
          { owner with lifecycle } }.changed := by
  simp only [setLifecycle, ok_iff] at h
  rcases h with ⟨⟨i, owner⟩, hentry, hnext⟩
  exact ⟨i, owner, hentry, hnext.symm⟩

theorem forget_inv {accountId : Bytes} (h : s.forget accountId = .ok next) :
    exists ai owner, s.accountEntry accountId = some (ai, owner) ∧
      (forall lease, lease ∈ s.leases -> lease.accountId ≠ accountId) ∧
      s.tombstones.length + owner.sourceIds.length <= maxRecords ∧
      next = s.withoutAccount ai owner := by
  simp only [forget, ok_iff, bool_iff, not_lt] at h
  rcases h with ⟨⟨ai, owner⟩, hentry, _, hleases, _, hlen, hnext⟩
  exact ⟨ai, owner, hentry, by simpa using hleases, hlen, hnext.symm⟩

theorem iterate_changed (n : Nat) (s : State) :
    exists revision, changed^[n] s = { s with revision } := by
  induction n generalizing s with
  | zero => exact ⟨s.revision, rfl⟩
  | succ n ih =>
    rcases ih s.changed with ⟨revision, hrev⟩
    exact ⟨revision, by rw [Function.iterate_succ_apply, hrev]; rfl⟩

theorem permitReenrollment_inv {identity : Identity} {sourceId : Bytes}
    (h : s.permitReenrollment identity sourceId now = .ok next) : exists revision, next = { s with
      tombstones := s.tombstones.filter (fun tombstone =>
        !sameIdentity tombstone.identity identity)
      revision } := by
  simp only [permitReenrollment, ok_iff] at h
  rcases h with ⟨_, _, _, _, _, _, _, _, hnext⟩
  rcases iterate_changed (s.tombstones.length - (s.tombstones.filter (fun tombstone =>
      !sameIdentity tombstone.identity identity)).length)
    { s with tombstones := s.tombstones.filter (fun tombstone =>
        !sameIdentity tombstone.identity identity) } with ⟨revision, hrev⟩
  exact ⟨revision, by rw [<- hnext, hrev]⟩

/-!
## Jobs
-/

/-- A stored job changes only its status and its operation generation. -/
def JobUpdate (existing updated : Job) : Prop :=
  updated.id = existing.id ∧ updated.accountId = existing.accountId ∧
    existing.operationGeneration <= updated.operationGeneration

def JobChange (s : State) (input : Job) (next : State) : Prop :=
  next = s ∨
    (exists i existing updated, recordEntry Job.id s.jobs input.id = some (i, existing) ∧
      JobUpdate existing updated ∧
      next = { s with jobs := s.jobs.set i updated }.changed) ∨
    (validate input = .ok () ∧ requireId input.id = .ok () ∧
      input.operationGeneration ≠ 0 ∧ s.jobOwnerMissing input = false ∧
      recordEntry Job.id s.jobs input.id = none ∧
      s.jobs.length < maxRecords ∧
      next = { s with jobs := s.jobs ++ [input] }.changed)

/-- What an operation makes of a stored job. -/
inductive JobMoves : Op -> Job -> Job -> Prop where
  | keep (op : Op) (job : Job) : JobMoves op job job
  | put {input job : Job} (hopen : jobEnded job = false)
      (hforward : ¬ (job.status = .running ∧ input.status = .pending)) :
      JobMoves (.putJob input) job { job with status := input.status }
  | start {input job : Job} (hpend : job.status = .pending) :
      JobMoves (.reopenJob input) job { job with status := .running }
  | reopen {input job : Job} (hended : jobEnded job = true) :
      JobMoves (.reopenJob input) job
        { job with operationGeneration := job.operationGeneration + 1, status := input.status }

def MovesJob (s : State) (op : Op) (i : Nat) (job : Job) (next : State) : Prop :=
  next = s ∨ exists later, JobMoves op job later ∧
    next = { s with jobs := s.jobs.set i later }.changed

variable {op : Op} {i : Nat} {job later input out : Job}

theorem update_of_moves (h : JobMoves op job later) : JobUpdate job later := by
  cases h with
  | keep | put | start => exact ⟨rfl, rfl, le_rfl⟩
  | reopen => exact ⟨rfl, rfl, Nat.le_succ _⟩

theorem change_of_moves (hentry : recordEntry Job.id s.jobs input.id = some (i, job))
    (h : s.MovesJob op i job next) : JobChange s input next := by
  rcases h with hsame | ⟨later, hmoves, hnext⟩
  · exact Or.inl hsame
  · exact Or.inr (.inl ⟨i, job, later, hentry, update_of_moves hmoves, hnext⟩)

theorem putJob_moves (h : s.putJob input = .ok (next, out))
    (hentry : recordEntry Job.id s.jobs input.id = some (i, job)) :
    s.MovesJob (.putJob input) i job next := by
  simp only [putJob, hentry, ok_iff] at h
  rcases h with ⟨_, _, _, _, _, _, _, _, _, _, h⟩
  split at h
  · cases h
    exact Or.inl rfl
  · rename_i hopen
    simp only [ok_iff] at h
    rcases h with ⟨_, _, h⟩
    split at h
    · cases h
      exact Or.inl rfl
    · rename_i hforward
      cases h
      exact Or.inr ⟨_, .put (by simpa using hopen) (by simpa using hforward), rfl⟩

theorem putJob_inv (h : s.putJob input = .ok (next, out)) : JobChange s input next := by
  cases hentry : recordEntry Job.id s.jobs input.id with
  | none =>
    simp only [putJob, hentry, ok_iff, bool_iff, appendOwned_eq_ok, Prod.mk.injEq] at h
    rcases h with ⟨_, hvalid, _, hid, _, hgen, _, howner, _, ⟨hlen, _, rfl⟩, hnext, _⟩
    exact Or.inr (.inr ⟨hvalid, hid, hgen, howner, hentry, hlen, hnext.symm⟩)
  | some => exact change_of_moves hentry (putJob_moves h hentry)

theorem reopenJob_moves (h : s.reopenJob input = .ok (next, out))
    (hentry : recordEntry Job.id s.jobs input.id = some (i, job)) :
    s.MovesJob (.reopenJob input) i job next := by
  simp only [reopenJob, hentry, ok_iff] at h
  rcases h with ⟨_, _, _, _, _, _, _, _, _, _, _, _, h⟩
  split at h
  · rename_i hended
    simp only [ok_iff] at h
    rcases h with ⟨_, _, h⟩
    cases h
    exact Or.inr ⟨_, .reopen hended, rfl⟩
  · split at h
    · rename_i hstarts
      simp only [bool_iff] at hstarts
      cases h
      exact Or.inr ⟨_, .start hstarts.1, rfl⟩
    · cases h
      exact Or.inl rfl

theorem reopenJob_inv (h : s.reopenJob input = .ok (next, out)) : JobChange s input next := by
  cases hentry : recordEntry Job.id s.jobs input.id with
  | none =>
    simp only [reopenJob, hentry, ok_iff] at h
    rcases h with ⟨_, _, _, _, _, _, _, _, _, _, _, _, h⟩
    exact putJob_inv h
  | some => exact change_of_moves hentry (reopenJob_moves h hentry)

/-!
## What an operation leaves alone
-/

inductive Part where
  | sources | accounts | grants | observations | bindings | leases | tombstones | imports | jobs
deriving DecidableEq

/-- The tables that an operation may change. -/
def partsOf : Op -> List Part
  | .connectSource _ | .detachSource _ => [.sources]
  | .disconnectSource _ => [.sources, .grants]
  | .enroll _ _ => [.accounts, .imports]
  | .addGrant _ | .reconcile _ => [.grants]
  | .observe _ | .observeBatch _ | .pruneObservations _ => [.observations]
  | .bind _ | .releaseBinding _ | .releaseBindingExact _ _ => [.bindings]
  | .beginLease _ _ | .completeLease _ => [.bindings, .leases]
  | .pause _ _ | .drain _ => [.accounts]
  | .forget _ => [.accounts, .grants, .observations, .bindings, .tombstones, .jobs]
  | .permitReenrollment _ _ _ => [.tombstones]
  | .putJob _ | .reopenJob _ => [.jobs]

/-- This state with the listed tables, and the revision, of another. -/
def overlay (s other : State) (parts : List Part) : State :=
  let pick {α : Type} (part : Part) (mine theirs : α) : α :=
    bif parts.contains part then theirs else mine
  { revision := other.revision
    sources := pick .sources s.sources other.sources
    accounts := pick .accounts s.accounts other.accounts
    grants := pick .grants s.grants other.grants
    observations := pick .observations s.observations other.observations
    bindings := pick .bindings s.bindings other.bindings
    leases := pick .leases s.leases other.leases
    tombstones := pick .tombstones s.tombstones other.tombstones
    quarantinedImports := pick .imports s.quarantinedImports other.quarantinedImports
    jobs := pick .jobs s.jobs other.jobs }

theorem quarantine_frame {input : Enrollment} {reason : QuarantineReason}
    (h : s.quarantine input reason = .ok next) : next = s.overlay next [.accounts, .imports] := by
  rcases quarantine_inv h with rfl | ⟨_, _, rfl⟩ <;> rfl

theorem jobChange_frame (h : JobChange s input next) : next = s.overlay next [.jobs] := by
  rcases h with rfl | ⟨_, _, _, _, _, rfl⟩ | ⟨_, _, _, _, _, _, rfl⟩ <;> rfl

/-- Outside its tables an operation changes nothing. -/
theorem attempt_frame (h : s.attempt op = .ok next) : next = s.overlay next (partsOf op) := by
  cases op with
  | connectSource =>
    rcases map_fst_eq_ok.mp h with ⟨_, hok⟩
    rcases connectSource_inv hok with ⟨_, _, ⟨_, _, _, _, _, rfl⟩ | ⟨_, _, _, rfl⟩⟩ <;> rfl
  | detachSource =>
    rcases detachSource_inv h with ⟨_, _, _, rfl⟩
    rfl
  | disconnectSource =>
    rcases disconnectSource_inv h with ⟨_, _, _, rfl⟩
    rfl
  | enroll =>
    rcases map_fst_eq_ok.mp h with ⟨_, hok⟩
    rcases (enroll_inv hok).2.2.2 with
      ⟨_, _, _, rfl | ⟨_, hheld⟩ | ⟨_, hheld⟩ | ⟨_, _, _, hadm⟩⟩
    · rfl
    · exact quarantine_frame hheld
    · exact quarantine_frame hheld
    · rcases admitIdentity_inv hadm with rfl | ⟨_, _, _, _, _, rfl⟩ | ⟨_, _, _, rfl⟩ <;> rfl
  | addGrant =>
    rcases map_fst_eq_ok.mp h with ⟨_, hok⟩
    rcases addGrant_inv hok with ⟨_, _, ⟨_, _, _, _, _, _, _, _, rfl⟩ | ⟨_, _, _, rfl⟩⟩ <;> rfl
  | reconcile =>
    rcases reconcile_inv h with ⟨_, _, _, _, rfl⟩
    rfl
  | observe =>
    rcases observe_inv h with ⟨_, _, ⟨_, _, _, _, ⟨_, rfl⟩ | ⟨_, rfl⟩⟩ | ⟨_, _, rfl⟩⟩ <;> rfl
  | observeBatch => rcases observeBatch_inv h with rfl | ⟨_, _, rfl⟩ <;> rfl
  | pruneObservations => rcases pruneObservations_inv (Except.ok.inj h) with rfl | rfl <;> rfl
  | bind =>
    rcases map_fst_eq_ok.mp h with ⟨_, hok⟩
    rcases bind_inv hok with ⟨_, _, _, _, _, _, _, ⟨_, _, _, _, _, rfl⟩ | ⟨_, _, rfl⟩⟩ <;> rfl
  | releaseBinding =>
    rcases releaseBinding_inv h with ⟨_, _, _, _, rfl⟩
    rfl
  | releaseBindingExact =>
    rcases releaseBindingExact_inv h with ⟨_, _, _, _, rfl⟩
    rfl
  | beginLease =>
    rcases map_fst_eq_ok.mp h with ⟨_, hok⟩
    rcases beginLease_inv hok with ⟨_, _, _, _, _, _, _, _, _, _, _, _, rfl⟩
    rfl
  | completeLease =>
    rcases completeLease_inv h with ⟨_, _, _, _, _, _, _, rfl⟩
    rfl
  | pause | drain =>
    rcases setLifecycle_inv h with ⟨_, _, _, rfl⟩
    rfl
  | forget =>
    rcases forget_inv h with ⟨_, _, _, _, _, rfl⟩
    rfl
  | permitReenrollment =>
    rcases permitReenrollment_inv h with ⟨_, rfl⟩
    rfl
  | putJob =>
    rcases map_fst_eq_ok.mp h with ⟨_, hok⟩
    exact jobChange_frame (putJob_inv hok)
  | reopenJob =>
    rcases map_fst_eq_ok.mp h with ⟨_, hok⟩
    exact jobChange_frame (reopenJob_inv hok)

/-!
## The observation list
-/

/-- The operations that touch the observation list. -/
inductive ObservationChange (s next : State) : Op -> Prop where
  | observe {input : Observation} (h : s.observe input = .ok next) :
      ObservationChange s next (.observe input)
  | observeBatch {input : List Observation}
      (h : s.observeBatch input = .ok next) :
      ObservationChange s next (.observeBatch input)
  | prune {now : Int} (h : (s.pruneObservations now).fst = next) :
      ObservationChange s next (.pruneObservations now)
  | forget {accountId : Bytes} (h : s.forget accountId = .ok next) :
      ObservationChange s next (.forget accountId)

theorem attempt_observations {op : Op} (h : s.attempt op = .ok next) :
    ObservationChange s next op ∨ next.observations = s.observations := by
  have hframe := congrArg State.observations (attempt_frame h)
  cases op with
  | observe => exact Or.inl (.observe h)
  | observeBatch => exact Or.inl (.observeBatch h)
  | pruneObservations => exact Or.inl (.prune (Except.ok.inj h))
  | forget => exact Or.inl (.forget h)
  | _ => exact Or.inr hframe

end State

end Omux.Domain
