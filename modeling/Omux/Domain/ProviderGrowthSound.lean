import Omux.Domain.GrowthSound
import Omux.Domain.ProviderGrowth

/-!
# Growth of provider completions

A completion is a chain of operations.  What each of them adds to the lists is
stated on its own, and the gains of a chain add up.  The revision is counted once, at
the end of the chain.
-/

namespace Omux.Domain

open Library List State Shape
open Admission (Counts)

/-- The lists gain at most so many bytes and records. -/
structure Gains (format : FloatFormat) (s next : State) (bytes : Nat) (counts : Counts) :
    Prop where
  bytes : next.snapshot.listBytes format <= s.snapshot.listBytes format + bytes
  counts : forall part, next.snapshot.counts part <= s.snapshot.counts part + counts part

variable {format : FloatFormat} {s mid next : State}

theorem Gains.refl (s : State) {bytes : Nat} {counts : Counts} : Gains format s s bytes counts :=
  ⟨Nat.le_add_right _ _, fun _ => Nat.le_add_right _ _⟩

theorem Gains.trans {first second : Nat} {more others : Counts}
    (h : Gains format s mid first more) (hnext : Gains format mid next second others) :
    Gains format s next (first + second) (fun part => more part + others part) where
  bytes := by
    have hmid := h.bytes
    have hend := hnext.bytes
    omega
  counts part := by
    have hmid := h.counts part
    have hend := hnext.counts part
    omega

variable {bytes : Nat} {plan : OutcomeGrowth}

theorem Gains.mono {more : Nat} {counts others : Counts} (h : Gains format s next bytes counts)
    (hbytes : bytes <= more) (hcounts : forall part, counts part <= others part) :
    Gains format s next more others where
  bytes := h.bytes.trans (Nat.add_le_add_left hbytes _)
  counts part := (h.counts part).trans (Nat.add_le_add_left (hcounts part) _)

theorem growsWithin_of_gains {counts : Counts} (h : Gains format s next bytes counts)
    (hrev : next.revision = s.revision ∨ next.revision <= maxU64)
    (hbytes : bytes + revisionGrowthBytes <= plan.bytes)
    (hcounts : forall part, counts part <= plan.counts part) : GrowsWithin format plan s next where
  bytes := by
    have hdigits : (decimal next.revision).length <=
        (decimal s.revision).length + revisionGrowthBytes := by
      rcases hrev with heq | htyped
      · rw [heq]
        exact Nat.le_add_right _ _
      · exact length_revision_typed htyped s.revision
    exact (length_snapshot_le h.bytes hdigits).trans (Nat.add_le_add_left hbytes _)
  counts part := (h.counts part).trans (Nat.add_le_add_left (hcounts part) _)

/-!
## Operations
-/

theorem permit_gains {identity : Identity} {now : Int}
    (h : s.permitReenrollment identity sourceId now = .ok next) :
    Gains format s next 0 Counts.zero := by
  rcases permitReenrollment_inv h with ⟨_, rfl⟩
  have hkept : (s.tombstones.filter (fun tombstone =>
      !sameIdentity tombstone.identity identity)).Sublist s.tombstones := filter_sublist
  have hbytes := arrayBytes_sublist tombstoneShape.json hkept
  constructor
  · simp only [Snapshot.listBytes, snapshot]
    omega
  · intro part
    cases part with
    | tombstones => exact hkept.length_le
    | _ => exact le_rfl

/-- The links of an account are its own, or among those of the accounts before. -/
theorem links_le {accounts : List Account} {bound : Nat}
    (h : forall account, account ∈ accounts -> account.sourceIds.length <= bound) :
    accounts.foldl (fun most account => max most account.sourceIds.length) 0 <= bound :=
  foldl_max_le_iff.mpr ⟨Nat.zero_le _, h⟩

theorem le_links {accounts : List Account} {account : Account} (h : account ∈ accounts) :
    account.sourceIds.length <=
      accounts.foldl (fun most account => max most account.sourceIds.length) 0 :=
  le_foldl_max (fun account : Account => account.sourceIds.length) 0 h

theorem length_link_le (existing : Account) (sourceId : Bytes) :
    (accountShape.json { existing with sourceIds := existing.sourceIds ++ [sourceId] }).length <=
      (accountShape.json existing).length + ((jsonSlice sourceId).length + 1) := by
  have hlinks := arrayBytes_concat jsonSlice existing.sourceIds sourceId
  change (Shape.membersJson _ _).length <= (Shape.membersJson _ _).length + _
  rw [length_membersJson, length_membersJson]
  simp only [map_cons, map_nil, sum_cons]
  simp only [arrayBytes] at hlinks
  simp only [text, texts, scalar, field, Shape.comap, Shape.rigid]
  linarith

def linkCounts : OutcomeGrowth := { accounts := 1, sourceLinks := 1 }

theorem admit_gains {out : EnrollmentResult} (h : s.admitIdentity input = .ok (next, out)) :
    Gains format s next
      ((accountShape.json (enrolledAccount input)).length + 1 +
        ((jsonSlice input.sourceId).length + 1)) linkCounts.counts := by
  rcases admitIdentity_inv h with hnext | ⟨i, existing, hentry, _, _, hnext⟩ | ⟨_, _, _, hnext⟩
  · rw [hnext]
    exact Gains.refl s
  · have hat := (firstEntry_eq_some hentry).1
    have hset := arrayBytes_set accountShape.json
      { existing with sourceIds := existing.sourceIds ++ [input.sourceId] } hat
    have hlink := length_link_le existing input.sourceId
    have hmost := le_links (mem_of_getElem? hat)
    subst hnext
    constructor
    · simp only [Snapshot.listBytes, snapshot, changed]
      omega
    · intro part
      cases part with
      | accounts => exact (length_set.le).trans (Nat.le_add_right _ _)
      | sourceLinks =>
        refine links_le (fun account hacct => ?_)
        rcases mem_or_eq_of_mem_set hacct with hold | hnew
        · exact (le_links hold).trans (Nat.le_add_right _ _)
        · rw [hnew, length_append]
          exact Nat.add_le_add_right hmost 1
      | _ => exact le_rfl
  · have hconcat := arrayBytes_concat accountShape.json s.accounts (enrolledAccount input)
    subst hnext
    constructor
    · simp only [Snapshot.listBytes, snapshot, changed]
      omega
    · intro part
      cases part with
      | accounts => exact length_append.le
      | sourceLinks =>
        refine links_le (fun account hacct => ?_)
        rcases mem_append.mp hacct with hold | hnew
        · exact (le_links hold).trans (Nat.le_add_right _ _)
        · rw [mem_singleton.mp hnew]
          exact Nat.le_add_left 1 _
      | _ => exact le_rfl

def quarantined (input : Enrollment) (reason : QuarantineReason) : QuarantinedImport :=
  { sourceId := input.sourceId, candidateId := input.accountId, identity := input.identity,
    reason }

def quarantineCounts : OutcomeGrowth := { quarantinedImports := 1 }

theorem quarantine_gains {reason : QuarantineReason} (h : s.quarantine input reason = .ok next) :
    Gains format s next
      ((quarantinedImportShape.json (quarantined input reason)).length + 1)
      quarantineCounts.counts := by
  unfold State.quarantine at h
  split at h
  · rw [<- Except.ok.inj h]
    exact Gains.refl s
  · simp only [ok_iff, appendOwned_eq_ok] at h
    rcases h with ⟨_, ⟨_, _, himports⟩, rfl⟩
    have hconcat := arrayBytes_concat quarantinedImportShape.json s.quarantinedImports
      (quarantined input reason)
    subst himports
    constructor
    · simp only [Snapshot.listBytes, snapshot, changed]
      simp only [quarantined] at hconcat ⊢
      omega
    · intro part
      cases part with
      | quarantinedImports => exact length_append.le
      | _ => exact le_rfl

def enrollCounts : OutcomeGrowth :=
  { accounts := 1, sourceLinks := 1, quarantinedImports := 1 }

theorem enroll_gains {now : Int} {out : EnrollmentResult}
    (henrolled : (accountShape.json (enrolledAccount input)).length + 1 +
      ((jsonSlice input.sourceId).length + 1) <= bytes) (hquar : forall reason,
      (quarantinedImportShape.json (quarantined input reason)).length + 1 <= bytes)
    (h : s.enroll input now = .ok (next, out)) : Gains format s next bytes enrollCounts.counts := by
  rcases (enroll_inv h).2.2.2 with ⟨_, _, _, hcases⟩
  rcases hcases with hnext | ⟨_, hnext⟩ | ⟨_, hnext⟩ | ⟨_, _, _, hnext⟩
  · rw [hnext]
    exact Gains.refl s
  · refine (quarantine_gains hnext).mono (hquar _) (fun part => ?_)
    cases part <;> decide
  · refine (quarantine_gains hnext).mono (hquar _) (fun part => ?_)
    cases part <;> decide
  · refine (admit_gains hnext).mono henrolled (fun part => ?_)
    cases part <;> decide

def grantCounts : OutcomeGrowth := { grants := 1 }

theorem addGrant_gains {input out : Grant} (h : s.addGrant input = .ok (next, out)) :
    Gains format s next ((grantShape.json input).length + 1) grantCounts.counts := by
  rcases (addGrant_inv h).2.2 with ⟨i, _, hentry, _, _, _, _, _, hnext⟩ | ⟨_, _, _, hnext⟩
  · have hset := arrayBytes_set grantShape.json input (recordEntry_eq_some hentry).1
    subst hnext
    constructor
    · simp only [Snapshot.listBytes, snapshot, changed]
      omega
    · intro part
      cases part with
      | grants => exact (length_set.le).trans (Nat.le_add_right _ _)
      | _ => exact le_rfl
  · have hconcat := arrayBytes_concat grantShape.json s.grants input
    subst hnext
    constructor
    · simp only [Snapshot.listBytes, snapshot, changed]
      omega
    · intro part
      cases part with
      | grants => exact length_append.le
      | _ => exact le_rfl

theorem addGrant_revision {input out : Grant} (h : s.addGrant input = .ok (next, out)) :
    next.revision <= maxU64 := by
  rcases (addGrant_inv h).2.2 with ⟨_, _, _, _, _, _, _, _, rfl⟩ | ⟨_, _, _, rfl⟩
  · exact Nat.min_le_right _ _
  · exact Nat.min_le_right _ _

/-!
## Jobs
-/

theorem length_status_completed {job : Job} (h : job.status = .running) :
    (jobShape.json { job with status := .completed }).length <=
      (jobShape.json job).length + 2 := by
  have hstatus : (jsonString JobStatus.completed.name).length <=
      (jsonString job.status.name).length + 2 := by
    rw [h]
    decide
  change (Shape.membersJson _ _).length <= (Shape.membersJson _ _).length + 2
  rw [length_membersJson, length_membersJson]
  simp only [map_cons, map_nil, sum_cons]
  simp only [text, scalar, field, Shape.comap, Shape.ofScalar, jobStatus, Scalar.enumeration]
  linarith

theorem complete_gains {change : Job -> Job} (hs : WellFormed s) (id : Bytes)
    (hchange : forall job, change job = job ∨
      job.id = id ∧ job.status = .running ∧ change job = { job with status := .completed }) :
    Gains format s { s with jobs := s.jobs.map change } 2 Counts.zero := by
  have hsum := sum_single_le hs.jobs.distinct id (fun job : Job => job.id == id) 2
    (fun job hjob => eq_of_beq hjob)
  have hgrown : List.Forall₂ (fun x y => (jobShape.json y).length <=
      (jobShape.json x).length + (if x.id == id then 2 else 0))
      s.jobs (s.jobs.map change) := by
    rw [forall₂_map_right_iff, forall₂_same]
    intro job _
    rcases hchange job with hsame | ⟨hid, hrunning, hended⟩
    · rw [hsame]
      exact Nat.le_add_right _ _
    · have hmatched : (job.id == id) = true := beq_iff_eq.mpr hid
      rw [hended, if_pos hmatched]
      exact length_status_completed hrunning
  have hbytes := arrayBytes_forall₂ jobShape.json hgrown
  constructor
  · simp only [Snapshot.listBytes, snapshot] at hbytes ⊢
    omega
  · intro part
    cases part with
    | jobs => exact (length_map _).le
    | _ => exact le_rfl

/-!
## Observations
-/

def observationCounts (count : Nat) : OutcomeGrowth := { observations := count }

/-- Observing changes the observations and the revision only. -/
structure Observes (format : FloatFormat) (s next : State) (bytes count : Nat) : Prop where
  bytes : arrayBytes (observationShape format).json next.observations <=
    arrayBytes (observationShape format).json s.observations + bytes
  length : next.observations.length <= s.observations.length + count
  kept : next = { s with observations := next.observations, revision := next.revision }

theorem observes_gains {count : Nat} (h : Observes format s next bytes count) :
    Gains format s next bytes (observationCounts count).counts := by
  have hbytes := h.bytes
  have hlength := h.length
  rw [h.kept]
  constructor
  · simp only [Snapshot.listBytes, snapshot]
    omega
  · intro part
    cases part with
    | observations => exact hlength
    | _ => exact le_rfl

theorem observe_observes {input : Observation}
    (hbytes : ((observationShape format).json input).length + 1 <= bytes)
    (h : s.observe input = .ok next) : Observes format s next bytes 1 := by
  rcases @observe_grows format _ _ _ h with ⟨hadded, _, hlength, hnext⟩
  refine ⟨?_, hlength, hnext⟩
  rw [hnext] at hadded
  simp only [Snapshot.listBytes, snapshot] at hadded
  omega

section

variable {input : List Observation} (hbytes : forall observation, observation ∈ input ->
    ((observationShape format).json observation).length + 1 <= bytes)
include hbytes

theorem observe_fold_observes (h : input.foldlM State.observe s = .ok next) :
    Observes format s next (input.length * bytes) input.length := by
  induction input generalizing s with
  | nil =>
    cases h
    exact ⟨Nat.le_add_right _ _, Nat.le_add_right _ _, rfl⟩
  | cons observation _ ih =>
    simp only [foldlM_cons, ok_iff] at h
    rcases h with ⟨_, hmid, hrest⟩
    have hfirst := observe_observes (hbytes observation mem_cons_self) hmid
    have hothers := ih (fun other hother =>
      hbytes other (mem_cons_of_mem observation hother)) hrest
    have hfirstBytes := hfirst.bytes
    have hfirstLength := hfirst.length
    have hotherBytes := hothers.bytes
    have hotherLength := hothers.length
    constructor
    · rw [length_cons, Nat.add_mul]
      omega
    · rw [length_cons]
      omega
    · rw [hothers.kept, hfirst.kept]

theorem observeBatch_gains (h : s.observeBatch input = .ok next) :
    Gains format s next (input.length * bytes) (observationCounts input.length).counts := by
  rcases observeBatch_inv h with hnext | ⟨_, hstaged, hnext⟩
  · rw [hnext]
    exact Gains.refl s
  · have hobserves := observe_fold_observes hbytes hstaged
    rw [hnext]
    exact observes_gains ⟨hobserves.bytes, hobserves.length, rfl⟩

end

theorem observeBatch_revision {input : List Observation} (h : s.observeBatch input = .ok next) :
    next.revision = s.revision ∨ next.revision <= maxU64 := by
  rcases observeBatch_inv h with hnext | ⟨_, _, rfl⟩
  · exact Or.inl (congrArg State.revision hnext)
  · exact Or.inr (Nat.min_le_right _ _)

theorem observe_revision {input : Observation} (h : s.observe input = .ok next) :
    next.revision = s.revision ∨ next.revision <= maxU64 := by
  rcases (observe_inv h).2.2 with ⟨_, _, _, _, ⟨_, hnext⟩ | ⟨_, hnext⟩⟩ | ⟨_, _, hnext⟩
  · exact Or.inl (congrArg State.revision hnext)
  · rw [hnext]
    exact Or.inr (Nat.min_le_right _ _)
  · rw [hnext]
    exact Or.inr (Nat.min_le_right _ _)

/-!
## Widths
-/

/-- The serializer prints doubles in decimal: no whole number up to 100 is longer than 100,
and none up to `2 ^ 64` is longer than the largest double. -/
structure FloatFormat.Decimal (format : FloatFormat) : Prop where
  percent : forall {n : Nat}, n <= 100 ->
    (format.write (F64.ofNat n)).length <= (format.write (F64.ofNat 100)).length
  largest : forall {n : Nat}, n <= 2 ^ 64 ->
    (format.write (F64.ofNat n)).length <= (format.write F64.largest).length

theorem FloatFormat.decimal_digits : FloatFormat.digits.Decimal := by
  constructor
  · intro n hn
    have hpercent : forall n, n < 101 -> (digits.write (F64.ofNat n)).length <=
        (digits.write (F64.ofNat 100)).length := by
      decide +kernel
    exact hpercent n (Nat.lt_succ_of_le hn)
  · intro n hn
    by_cases hlargest : F64.ofNat n = F64.largest
    · rw [hlargest]
    · have hwrite : digits.write (F64.ofNat n) = decimal (F64.ofNat n).whole := if_neg hlargest
      rw [hwrite]
      exact (length_decimal_mono (F64.whole_le (F64.magnitude_ofNat_lt hn))).trans
        (by decide +kernel)

theorem length_canonical_le {value : Bytes} (h : validText value = true) :
    (jsonSlice value).length <= (jsonSlice canonicalId).length := by
  simp only [validText, bool_iff] at h
  have hle := length_jsonSlice_le value
  rw [canonicalId, length_jsonSlice_control]
  omega

theorem text_json {α : Type} (name : String) (get : α -> Bytes) (a : α) :
    (text name get).2.json a = jsonSlice (get a) :=
  rfl

/-- The texts that an accepted answer of the provider can have. -/
structure Identity.Accepted (name : Bytes) (identity : Identity) : Prop where
  provider : identity.provider = name
  issuer : identity.issuer = providerIssuer name
  subject : Plain (if name == codexName then 256 else 20) identity.subject
  tenant : Plain (if name == codexName then 256 else 0) identity.tenant
  verified : identity.verified = true

theorem length_identity_le {identity : Identity} (h : identity.Accepted provider) :
    (identityShape.json identity).length <=
      (identityShape.json (widestIdentity provider)).length := by
  refine length_record_le ⟨
    Nat.le_of_eq (congrArg (fun text => (jsonSlice text).length) h.provider),
    Nat.le_of_eq (congrArg (fun text => (jsonSlice text).length) h.issuer),
    length_plain_le h.subject, ?_,
    Nat.le_of_eq (congrArg (fun flag => (boolean.json flag).length) h.verified), trivial⟩
  have htenant := length_plain_le h.tenant
  refine Nat.le_trans htenant (Nat.le_of_eq ?_)
  unfold widestIdentity
  split <;> rfl

structure Enrollment.Accepted (name sourceId label : Bytes) (input : Enrollment) : Prop where
  accountId : Plain 64 input.accountId
  identity : input.identity.Accepted name
  source : input.sourceId = sourceId
  label : input.label = accountLabel name label
  accountType : Plain (if name == codexName then 64 else 128) input.accountType

variable {provider sourceId label : Bytes} {input : Enrollment}

theorem length_account_accepted (h : input.Accepted provider sourceId label) :
    (accountShape.json (enrolledAccount input)).length <=
      (accountShape.json (widestAccount provider sourceId label)).length := by
  exact length_record_le ⟨length_plain_le h.accountId, length_identity_le h.identity,
    (congrArg (fun text => (jsonSlice text).length) h.label).le,
    length_plain_le h.accountType, le_rfl,
    (congrArg (fun id => (jsonArray [jsonSlice id]).length) h.source).le, trivial⟩

theorem length_quarantine_accepted (h : input.Accepted provider sourceId label)
    (reason : QuarantineReason) :
    (quarantinedImportShape.json (quarantined input reason)).length <=
      (quarantinedImportShape.json (widestQuarantine provider sourceId)).length := by
  refine length_record_le ⟨ (congrArg (fun text => (jsonSlice text).length) h.source).le,
    length_plain_le h.accountId, length_identity_le h.identity, ?_, trivial⟩
  change (jsonString reason.name).length <=
    (jsonString QuarantineReason.conflictingIdentity.name).length
  cases reason <;> decide

structure Grant.Accepted (name source : Bytes) (g : Grant) : Prop where
  valid : validateGrant g = .ok ()
  sourceId : g.sourceId = source
  kind : g.credentialKind = .oauthAccess ∨ g.credentialKind = .apiKey
  ownership : g.ownership = .external
  purposes : g.purposes = [.request, .accountRead]
  audience : g.audience = providerIssuer name
  scopes : g.scopes = []
  generation : g.generation <= maxU64
  ready : g.status = .ready
  providerExpiresAt : forall time, g.providerExpiresAt = some time -> TypedTime time
  custodyExpiresAt : forall time, g.custodyExpiresAt = some time -> TypedTime time

theorem validText_of_validateGrant {g : Grant} (h : validateGrant g = .ok ()) :
    validText g.id = true ∧ validText g.accountId = true := by
  simp only [validateGrant, validate, ok_iff, bool_iff] at h
  rcases h with ⟨_, ⟨_, hid, _, hacct, _⟩, _⟩
  exact ⟨hid, hacct⟩

theorem length_grant_accepted {g : Grant} (h : g.Accepted provider sourceId) :
    (grantShape.json g).length <= (grantShape.json (widestGrant provider sourceId)).length := by
  rcases validText_of_validateGrant h.valid with ⟨hid, hacct⟩
  refine length_record_le ⟨?_, ?_,
    (congrArg (fun text => (jsonSlice text).length) h.sourceId).le, ?_,
    (congrArg (fun owner => (renewalOwnership.json owner).length) h.ownership).le,
    (congrArg (fun all => (purposesJson all).length) h.purposes).le,
    (congrArg (fun text => (jsonSlice text).length) h.audience).le,
    (congrArg (fun all => (jsonArray (List.map jsonSlice all)).length) h.scopes).le,
    length_decimal_mono h.generation, ?_, length_expiry_le h.providerExpiresAt,
    length_expiry_le h.custodyExpiresAt, trivial⟩
  · rw [text_json, text_json]
    exact length_canonical_le hid
  · rw [text_json, text_json]
    exact length_canonical_le hacct
  · change (jsonString g.credentialKind.name).length <=
      (jsonString CredentialKind.oauthAccess.name).length
    rcases h.kind with hkind | hkind
    · rw [hkind]
    · rw [hkind]
      decide
  · change (jsonString g.status.name).length <= (jsonString GrantStatus.quarantined.name).length
    rw [h.ready]
    decide

/-!
## The plans
-/

theorem observationGrowth_codex {accountId : Bytes}
    (h : observationGrowth format codexName accountId = .ok plan) :
    plan = { bytes := revisionGrowthBytes + codexObservationCount *
               (((observationShape format).json (widestCodexObservation accountId)).length + 1)
             observations := codexObservationCount } := by
  simp only [observationGrowth, ok_iff, beq_self_eq_true, if_true] at h
  rcases h with ⟨_, _, bytes, hbytes, rfl⟩
  rw [recordGrowth_eq_ok hbytes]

theorem observationGrowth_github {accountId : Bytes}
    (h : observationGrowth format githubName accountId = .ok plan) :
    plan = { bytes := ((observationShape format).json
               (widestCoreObservation accountId)).length + 1 +
                 (revisionGrowthBytes + 2 * (17 + 1 + 1 + 1 + 3))
             observations := 1 } := by
  have hother : (githubName == codexName) = false := by decide
  simp only [observationGrowth, ok_iff, hother, beq_self_eq_true, if_true, Bool.false_eq_true,
    if_false] at h
  rcases h with ⟨_, _, bytes, hbytes, rfl⟩
  rw [recordGrowth_eq_ok hbytes]

theorem length_codexObservation_mono {id longer : Bytes}
    (h : (jsonSlice id).length <= (jsonSlice longer).length) :
    ((observationShape format).json (widestCodexObservation id)).length <=
      ((observationShape format).json (widestCodexObservation longer)).length := by
  refine length_record_le ⟨?_, le_rfl, le_rfl, le_rfl, le_rfl, le_rfl, le_rfl, le_rfl,
    le_rfl, le_rfl, le_rfl, trivial⟩
  exact h

/-- An import plans for an account, a link, a grant and a quarantined identity, and for
the job that completes. -/
theorem importGrowth_inv (h : importGrowth format provider sourceId label = .ok plan) :
    exists observations, importObservations format provider = .ok observations ∧
      (accountShape.json (widestAccount provider sourceId label)).length + 1 +
          ((jsonSlice sourceId).length + 1) +
          ((quarantinedImportShape.json (widestQuarantine provider sourceId)).length + 1) +
          ((grantShape.json (widestGrant provider sourceId)).length + 1) +
          observations.bytes + 2 + revisionGrowthBytes <= plan.bytes ∧
      forall part, enrollCounts.counts part + grantCounts.counts part +
        (observationCounts observations.observations).counts part <= plan.counts part := by
  simp only [importGrowth, ok_iff] at h
  rcases h with ⟨_, _, _, _, _, _, _, hacct, _, hgrant, _,
    hquar, _, hlink, observations, hobs, _, _, hplan⟩
  have hended : (ascii "completed").length - (ascii "pending").length = 2 := by decide
  refine ⟨observations, hobs, ?_, ?_⟩
  · rw [<- hplan, recordGrowth_eq_ok hacct, recordGrowth_eq_ok hgrant,
      recordGrowth_eq_ok hquar, recordGrowth_eq_ok hlink]
    dsimp only
    omega
  · intro part
    rw [<- hplan]
    cases part with
    | observations => exact (Nat.zero_add _).le
    | _ =>
      simp only [enrollCounts, grantCounts, observationCounts, OutcomeGrowth.counts]
      omega

/-!
## Imports that have a plan
-/

theorem recordGrowth_of_le {encoded : Bytes} (h : encoded.length <= 2 ^ 19) :
    recordGrowth encoded = .ok (encoded.length + 1) := by
  have hle : encoded.length <= Admission.maximumSnapshotBytes := h.trans (by decide)
  simp [recordGrowth, countWithin, if_pos hle, bind_ok]

theorem length_canonical : (jsonSlice canonicalId).length = 24578 := by
  rw [canonicalId, length_jsonSlice_control]
  decide

end Omux.Domain
