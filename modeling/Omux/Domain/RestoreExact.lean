import Omux.Domain.LeaseAccounting

/-!
# Restoring a well-formed state

`fromSnapshot` succeeds on the snapshot of a well-formed state and returns that
state, table by table and record by record.
-/

namespace Omux.Domain

open Library List

namespace State

variable {s : State} {α : Type} {records before after : List α} {x : α} {leases : List Lease}
  {b : Binding}

section

variable (hsplit : records = before ++ x :: after)
include hsplit

theorem length_lt_of_split
    (hbound : records.length <= maxRecords) : before.length < maxRecords := by
  rw [hsplit, length_append, length_cons] at hbound
  omega

theorem recordEntry_none_of_split {key : α -> Bytes}
    (hdist : (records.map key).Nodup) : recordEntry key before (key x) = none :=
  recordEntry_eq_none.mpr (key_ne_of_split hsplit hdist)

end

/-!
## Sources and accounts
-/

theorem restoreSources {sources : List Source} (h : SourcesOk sources) :
    exists revision, sources.foldlM restoreSource State.init =
      .ok { State.init with revision, sources } := by
  refine foldlM_replay_counted (fun revision before =>
    { State.init with revision, sources := before }) ?_ 0
  intro revision before source _ hsplit
  have hok := h.each source (mem_of_split hsplit)
  have hnone := recordEntry_none_of_split hsplit h.distinct
  have hlen := length_lt_of_split hsplit h.bounded
  refine ⟨min (revision + 1) maxU64, ?_⟩
  simp only [restoreSource, connectSource, sourceEntry, hnone, hok.id,
    hok.authorization, hok.valid, appendOwned, decide_eq_false (not_le.mpr hlen)]
  rfl

theorem checkSourceLinks_ok {identity : Identity} {seen rest : List Bytes}
    (hdist : (seen ++ rest).Nodup) (hlinks : forall sourceId, sourceId ∈ rest -> exists source,
      s.source sourceId = some source ∧ providerAgrees source identity = true) :
    s.checkSourceLinks identity seen rest = .ok () := by
  induction rest generalizing seen with
  | nil => rfl
  | cons sourceId rest ih =>
    rcases hlinks sourceId (by simp) with ⟨source, hsource, hagrees⟩
    have hnew : sourceId ∉ seen := by
      intro hmem
      rw [nodup_append] at hdist
      exact hdist.right.right sourceId hmem sourceId (by simp) rfl
    have hrest : s.checkSourceLinks identity (seen ++ [sourceId]) rest = .ok () := by
      apply ih
      · simpa using hdist
      · intro x hx
        exact hlinks x (by simp [hx])
    simp [checkSourceLinks, hsource, hagrees, hnew, hrest, bind_ok]

theorem restoreAccounts {sources : List Source} {accounts : List Account}
    (hsrcs : SourcesOk sources) (h : AccountsOk sources accounts) (revision : Nat) :
    accounts.foldlM restoreAccount
        { State.init with revision, sources } = .ok { State.init with
        revision, sources, accounts } := by
  refine foldlM_replay_eq (fun before =>
    { State.init with revision, sources, accounts := before }) ?_
  intro before owner _ hsplit
  have hok := h.each owner (mem_of_split hsplit)
  have hnone := recordEntry_none_of_split hsplit h.distinct
  have hlen := length_lt_of_split hsplit h.bounded
  have hident : before.any (fun other =>
      sameIdentity other.identity owner.identity) = false := by
    rw [any_eq_false]
    intro other hother hsame
    exact key_ne_of_split hsplit h.identities other hother (sameIdentity_eq_true.mp hsame)
  have hlinks : State.checkSourceLinks { State.init with
      revision, sources, accounts := before }
      owner.identity [] owner.sourceIds = .ok () := by
    apply checkSourceLinks_ok (by simpa using hok.distinct)
    intro sourceId hsourceId
    rcases hok.links sourceId hsourceId with ⟨source, hsource, hid, hagrees⟩
    exact ⟨source, recordAt_of_mem hsrcs.distinct hsource hid, hagrees⟩
  have hlinked : owner.sourceIds.isEmpty = false := by simpa using hok.linked
  simp [restoreAccount, accountEntry, hok.valid, hok.id, hok.identity, hok.verified, hlinked,
    hnone, hident, hlinks, appendOwned, bind_ok, decide_eq_false (not_le.mpr hlen)]

/-!
## Grants
-/

theorem restoreGrants (hs : WellFormed s) (revision : Nat) :
    exists revision', s.grants.foldlM restoreGrant
        { State.init with
          revision, sources := s.sources, accounts := s.accounts } =
      .ok { State.init with
        revision := revision', sources := s.sources, accounts := s.accounts,
        grants := s.grants } := by
  refine foldlM_replay_counted (fun revision before => { State.init with
    revision, sources := s.sources, accounts := s.accounts, grants := before })
    ?_ revision
  intro revision' before g _ hsplit
  have hok := hs.grants.each g (mem_of_split hsplit)
  have hnone := recordEntry_none_of_split hsplit hs.grants.distinct
  have hlen := length_lt_of_split hsplit hs.grants.bounded
  rcases hok.owned with ⟨owner, howner, hid, hlinked⟩
  have hacct := recordAt_of_mem hs.accounts.distinct howner hid
  rcases (hs.accounts.each owner howner).links g.sourceId hlinked with
    ⟨_, hsource, hsourceId, _⟩
  rcases recordEntry_isSome hsource hsourceId with ⟨i, x, hentry⟩
  have hvalid : validate g = .ok () := by
    have hgrant := hok.valid
    rw [validateGrant, bind_eq_ok] at hgrant
    rcases hgrant with ⟨_, hvalid, _⟩
    exact hvalid
  have hcontains : owner.sourceIds.contains g.sourceId = true := by simpa using hlinked
  refine ⟨min (revision' + 1) maxU64, ?_⟩
  simp only [restoreGrant, addGrant, grantEntry, sourceEntry, account, hnone,
    hok.valid, hacct, hcontains, hentry, hvalid, appendOwned, bind_ok, orFail_some,
    decide_eq_false (not_le.mpr hlen)]
  rfl

/-!
## Bindings and leases
-/

/-- A binding as it stands while `leases` of its leases are back. -/
def countedBinding (leases : List Lease) (b : Binding) : Binding :=
  { b with inFlight := leasesOn leases b.id }

theorem map_countedBinding {grants : List Grant} {bindings : List Binding}
    (h : BindingsOk grants leases bindings) : bindings.map (countedBinding leases) = bindings := by
  have hall : forall b, b ∈ bindings -> countedBinding leases b = id b := by
    intro b hb
    rw [countedBinding, <- (h.each b hb).counted]
    rfl
  rw [map_congr_left hall, map_id]

theorem map_countedBinding_concat {lease : Lease} {bindings : List Binding} {i : Nat}
    (hdist : (bindings.map Binding.id).Nodup) (hget : bindings[i]? = some b)
    (hon : b.id = lease.bindingId) : (bindings.map (countedBinding leases)).set i
        { countedBinding leases b with
          inFlight := (countedBinding leases b).inFlight + 1 } =
      bindings.map (countedBinding (leases ++ [lease])) := by
  apply ext_getElem?
  intro j
  by_cases hij : i = j
  · subst hij
    simp [List.getElem?_set_self', hget, countedBinding, leasesOn_concat, hon]
  · rw [List.getElem?_set_ne hij, List.getElem?_map, List.getElem?_map]
    cases hj : bindings[j]? with
    | none => rfl
    | some other =>
      have hne : lease.bindingId ≠ other.id := by
        rw [<- hon]
        exact (key_ne_of_index_ne hdist hget hj (Ne.symm hij)).symm
      simp [countedBinding, leasesOn_concat, hne]

theorem bindingMatches_of {grants : List Grant} {g : Grant} (hb : BindingOk grants leases b)
    (hdist : (grants.map Grant.id).Nodup)
    (hgrant : recordAt Grant.id grants b.grantId = some g) : bindingMatches g b = true := by
  rcases hb.granted with ⟨_, hg', hid, hacct, hnonzero, hle⟩
  have hfound := recordAt_of_mem hdist hg' hid
  rw [hgrant] at hfound
  cases hfound
  simp [bindingMatches, hacct, hnonzero, hle, hb.routed]

theorem validate_nativeRef (h : validate b = .ok ()) : validate b.nativeRef = .ok () := by
  simp only [validate, ok_iff] at h ⊢
  rcases h with ⟨_, _, _, _, _, _, _, href, _⟩
  exact href

/-- Everything that `base` holds before the bindings come back. -/
theorem restoreBindings (hs : WellFormed s) (base : State) (hgrants : base.grants = s.grants) :
    s.bindings.foldlM restoreBinding { base with bindings := [] } =
      .ok { base with bindings := s.bindings.map (countedBinding []) } := by
  refine foldlM_replay_eq (fun before =>
    { base with bindings := before.map (countedBinding []) }) ?_
  intro before b _ hsplit
  have hok := hs.bindings.each b (mem_of_split hsplit)
  have hnone : recordEntry Binding.id (before.map (countedBinding [])) b.id = none := by
    apply recordEntry_eq_none.mpr
    intro x hx
    rcases mem_map.mp hx with ⟨y, hy, rfl⟩
    exact key_ne_of_split hsplit hs.bindings.distinct y hy
  have hlen := length_lt_of_split hsplit hs.bindings.bounded
  rcases hok.granted with ⟨g, hg, hid, _⟩
  have hgrant := recordAt_of_mem hs.grants.distinct hg hid
  have hmatches := bindingMatches_of hok hs.grants.distinct hgrant
  have hvalid : validate { b with inFlight := 0 } = .ok () := hok.valid
  simp only [restoreBinding, bindingEntry, grant, hgrants, hok.valid, validate_nativeRef hok.valid,
    hok.id, hok.application, hok.session, hnone, hgrant, hmatches, hvalid, appendOwned,
    length_map, bind_ok, orFail_some, decide_eq_false (not_le.mpr hlen), map_append]
  rfl

theorem validate_leaseRef {lease : Lease} (h : validate lease = .ok ()) :
    validate lease.nativeRef = .ok () := by
  simp only [validate, ok_iff] at h ⊢
  rcases h with ⟨_, _, _, _, _, href, _⟩
  exact href

section

variable (hs : WellFormed s)
include hs

theorem restoreLeases (base : State) (hgrants : base.grants = s.grants) :
    s.leases.foldlM restoreLease
        { base with bindings := s.bindings.map (countedBinding []), leases := [] } =
      .ok { base with bindings := s.bindings, leases := s.leases } := by
  refine (foldlM_replay_eq (fun before =>
    { base with bindings := s.bindings.map (countedBinding before), leases := before })
    ?_).trans ?_
  · intro before lease _ hsplit
    have hok := hs.leases.each lease (mem_of_split hsplit)
    have hfresh : before.any (fun existing => existing.id == lease.id) = false := by
      rw [any_eq_false]
      intro x hx hsame
      exact key_ne_of_split hsplit hs.leases.distinct x hx (by simpa using hsame)
    have hlen := length_lt_of_split hsplit hs.leases.bounded
    rcases hok.bound with ⟨b, hb, hbid, hfol⟩
    rcases recordEntry_of_mem hs.bindings.distinct hb hbid with ⟨i, hentry⟩
    have hget := (recordEntry_eq_some hentry).left
    have hcounted := recordEntry_map (f := countedBinding before) (fun _ => rfl) hentry
    have hfol' : leaseFollows (countedBinding before b) lease = true :=
      hfol
    rcases hok.authority with ⟨g, hg, hgid, hauth⟩
    have hgrant := recordAt_of_mem hs.grants.distinct hg hgid
    simp [restoreLease, bindingEntry, grant, hgrants, hok.valid, validate_leaseRef hok.valid,
      hok.id, hok.interval, hfresh, hcounted, hfol', hgrant, hauth, appendOwned, bind_ok,
      decide_eq_false (not_le.mpr hlen),
      map_countedBinding_concat hs.bindings.distinct hget hbid]
  · rw [map_countedBinding hs.bindings]

theorem checkInFlight_ok (base : State)
    (hbinds : base.bindings = s.bindings) : checkAll base.checkInFlight s.bindings = .ok () := by
  apply checkAll_eq_ok.mpr
  intro b hb
  have hfound := recordAt_of_mem hs.bindings.distinct hb rfl
  simp [checkInFlight, binding, hbinds, hfound, bind_ok]

/-!
## Tombstones, quarantine and jobs
-/

theorem requireId_of_source {id : Bytes} (h : id ∈ s.sources.map Source.id) :
    requireId id = .ok () ∧ exists i source,
      recordEntry Source.id s.sources id = some (i, source) := by
  rcases mem_map.mp h with ⟨source, hsource, hid⟩
  refine ⟨?_, recordEntry_isSome hsource hid⟩
  rw [<- hid]
  exact (hs.sources.each source hsource).id

theorem restoreTombstones (base : State) (hsrcs : base.sources = s.sources)
    (haccs : base.accounts = s.accounts) :
    s.tombstones.foldlM restoreTombstone { base with tombstones := [] } =
      .ok { base with tombstones := s.tombstones } := by
  refine foldlM_replay_eq (fun before => { base with tombstones := before }) ?_
  intro before tombstone _ hsplit
  have hok := hs.tombstones.each tombstone (mem_of_split hsplit)
  have hlen := length_lt_of_split hsplit hs.tombstones.bounded
  rcases requireId_of_source hs hok.source with ⟨hid, i, _, hentry⟩
  have hfresh : before.any (fun existing =>
      sameIdentity existing.identity tombstone.identity &&
        existing.sourceId == tombstone.sourceId) = false := by
    rw [any_eq_false]
    intro x hx hsame
    rw [Bool.and_eq_true, sameIdentity_eq_true, beq_iff_eq] at hsame
    apply key_ne_of_split hsplit hs.tombstones.distinct x hx
    rw [tombstoneKey, tombstoneKey, hsame.left, hsame.right]
  have hforgot : s.accounts.any (fun owner =>
      sameIdentity owner.identity tombstone.identity) = false := by
    rw [any_eq_false]
    intro owner howner hsame
    exact hok.forgotten owner howner (sameIdentity_eq_true.mp hsame)
  simp [restoreTombstone, sourceEntry, hsrcs, haccs, hok.valid, hok.identity,
    hok.verified, hid, hentry, hfresh, hforgot, appendOwned, bind_ok,
    decide_eq_false (not_le.mpr hlen)]

theorem restoreQuarantine (base : State) (hsrcs : base.sources = s.sources)
    : s.quarantinedImports.foldlM restoreQuarantined
        { base with quarantinedImports := [] } =
      .ok { base with quarantinedImports := s.quarantinedImports } := by
  refine foldlM_replay_eq (fun before => { base with quarantinedImports := before }) ?_
  intro before candidate _ hsplit
  have hok := hs.quarantine.each candidate (mem_of_split hsplit)
  have hlen := length_lt_of_split hsplit hs.quarantine.bounded
  rcases requireId_of_source hs hok.source with ⟨hid, i, _, hentry⟩
  simp [restoreQuarantined, sourceEntry, hsrcs, hok.valid, hok.id,
    hok.identity, hok.reason, hid, hentry, appendOwned, bind_ok, decide_eq_false (not_le.mpr hlen)]

end

theorem jobOwnerMissing_of {base : State} {job : Job} (haccs : base.accounts = s.accounts)
    (h : JobOk s.accounts job) : base.jobOwnerMissing job = false := by
  cases h.owned with
  | inl hnone => simp [jobOwnerMissing, hnone]
  | inr howner =>
    rcases howner with ⟨_, hmem, hid⟩
    rcases recordEntry_isSome hmem hid with ⟨i, x, hentry⟩
    simp [jobOwnerMissing, accountEntry, haccs, hentry]

theorem restoreJobs (hs : WellFormed s) (base : State) (haccs : base.accounts = s.accounts) :
    exists revision, s.jobs.foldlM restoreJob { base with jobs := [] } =
      .ok { base with revision, jobs := s.jobs } := by
  refine foldlM_replay_counted (fun revision before =>
    { base with revision, jobs := before }) ?_ base.revision
  intro revision before job _ hsplit
  have hok := hs.jobs.each job (mem_of_split hsplit)
  have hnone := recordEntry_none_of_split hsplit hs.jobs.distinct
  have hlen := length_lt_of_split hsplit hs.jobs.bounded
  have howner : State.jobOwnerMissing
      { base with revision, jobs := before } job = false :=
    jobOwnerMissing_of haccs hok
  have hgen : (job.operationGeneration == 0) = false := by simpa using hok.generation
  refine ⟨min (revision + 1) maxU64, ?_⟩
  simp only [restoreJob, putJob, hok.valid, hok.id, hgen, howner, hnone,
    appendOwned, decide_eq_false (not_le.mpr hlen)]
  rfl

/-!
## The whole snapshot
-/

/-- The observations can be replayed over the accounts, whatever else is there. -/
def Replayable (s : State) : Prop :=
  forall base : State, base.accounts = s.accounts ->
    exists revision, s.observations.foldlM observe { base with observations := [] } =
      .ok { base with revision, observations := s.observations }

theorem replayable_nil (h : s.observations = []) : Replayable s := by
  intro base _
  refine ⟨base.revision, ?_⟩
  rw [h]
  rfl

def restored (s : State) (revision : Nat) (observations : List Observation) : State :=
  { State.init with
    revision, sources := s.sources, accounts := s.accounts, grants := s.grants
    observations }

theorem fromSnapshot_of_wellFormed (hs : WellFormed s) (hreplay : Replayable s) :
    fromSnapshot s.snapshot = .ok s := by
  rcases restoreSources hs.sources with ⟨r1, hsrcs⟩
  have haccs := restoreAccounts hs.sources hs.accounts r1
  rcases restoreGrants hs r1 with ⟨r2, hgrants⟩
  rcases hreplay (restored s r2 []) rfl with ⟨r3, hobs⟩
  have hbinds := restoreBindings hs (restored s r3 s.observations) rfl
  have hleases := restoreLeases hs (restored s r3 s.observations) rfl
  have hflight := checkInFlight_ok hs { restored s r3 s.observations with
    bindings := s.bindings, leases := s.leases } rfl
  have htombs := restoreTombstones hs { restored s r3 s.observations with
    bindings := s.bindings, leases := s.leases } rfl rfl
  have hquar := restoreQuarantine hs { restored s r3 s.observations with
    bindings := s.bindings, leases := s.leases, tombstones := s.tombstones } rfl
  rcases restoreJobs hs { restored s r3 s.observations with
    bindings := s.bindings, leases := s.leases, tombstones := s.tombstones,
    quarantinedImports := s.quarantinedImports } rfl with ⟨_, hjobs⟩
  simp only [fromSnapshot, ok_iff]
  exact ⟨(), rfl, _, hsrcs, _, haccs, _, hgrants, _, hobs, _,
    hbinds, _, hleases, (), hflight, _, htombs, _, hquar, _, hjobs, rfl⟩

/-- Everything but the observations survives a restart of any reachable state. -/
theorem fromSnapshot_without_observations (s : State) (h : s.Reachable) :
    fromSnapshot { s.snapshot with observations := [] } = .ok { s with observations := [] } := by
  have hs : WellFormed { s with observations := [] } := by
    apply wellFormed_withObservations (wellFormed_of_reachable h)
    exact observationsOk_sublist (nil_sublist _) (wellFormed_of_reachable h).observations
  exact fromSnapshot_of_wellFormed hs (replayable_nil rfl)

def leasedRun : List Op :=
  [.connectSource { id := [115], kind := .oauth }, .enroll
      { accountId := [97], sourceId := [115], identity :=
          { provider := [112], issuer := [105], subject := [117], verified := true } } 0,
    .addGrant
      { id := [103], accountId := [97], sourceId := [115],
        credentialKind := .oauthAccess, purposes := [.request], audience := [117] }, .bind
      { id := [98], application := [99], sessionId := [100],
        accountId := [97], grantId := [103], grantGeneration := 1 }, .beginLease
      { id := [108], bindingId := [98], accountId := [97], grantId := [103],
        grantGeneration := 1, routeGeneration := 1, startedAt := 0, expiresAt := 60 } 0]

theorem fromSnapshot_leasedRun : (run step State.init leasedRun).leases.length = 1 ∧
      fromSnapshot { (run step State.init leasedRun).snapshot with
          observations := [] } = .ok { run step State.init leasedRun with observations := [] } :=
  ⟨by decide +kernel, fromSnapshot_without_observations _ ⟨leasedRun, rfl⟩⟩

end State

/-!
## Runs with restarts
-/

inductive Event where
  | op (op : Op)
  | restart

namespace State

/-- A snapshot that is not accepted leaves the committed state. -/
def advance (s : State) : Event -> State
  | .op op => s.step op
  | .restart =>
    match fromSnapshot s.snapshot with
    | .ok next => next
    | .error _ => s

variable {s next : State}

theorem advance_ok {op : Op} (h : s.attempt op = .ok next) : s.advance (.op op) = next := by
  simp [advance, step, h]

theorem advance_error {op : Op} {err : DomainError} (h : s.attempt op = .error err) :
    s.advance (.op op) = s := by
  simp [advance, step, h]

theorem observe_fold_frame {todo : List Observation} (h : todo.foldlM observe s = .ok next) :
    exists revision observations, next = { s with
      revision, observations } := by
  refine foldlM_invariant (P := fun mid : State => exists revision observations,
    mid = { s with revision, observations })
    ?_ ⟨s.revision, s.observations, rfl⟩ h
  intro mid _ o _ hmid hobserve
  rcases hmid with ⟨_, _, hmid⟩
  rcases observe_frame hobserve with ⟨revision, observations, hafter⟩
  exact ⟨revision, observations, by rw [hafter, hmid]⟩

theorem observe_fold_ok {todo : List Observation} (hs : ObservationsOk s.accounts s.observations)
    (h : todo.foldlM observe s = .ok next) : ObservationsOk s.accounts next.observations := by
  have hinvariant : next.accounts = s.accounts ∧
      ObservationsOk s.accounts next.observations := by
    apply foldlM_invariant (P := fun mid : State =>
      mid.accounts = s.accounts ∧ ObservationsOk s.accounts mid.observations)
      ?_ ⟨rfl, hs⟩ h
    intro mid _ o _ hmid hobserve
    rcases hmid with ⟨haccs, hok⟩
    rw [<- haccs] at hok ⊢
    exact observationsOk_observe hok hobserve
  exact hinvariant.right

/-- A restart may lose observations, and nothing else: it replays them over an empty list. -/
theorem fromSnapshot_frame (hs : WellFormed s) (h : fromSnapshot s.snapshot = .ok next) :
    ObservationsOk s.accounts next.observations ∧
      next = { s with observations := next.observations } ∧
      exists base mid : State, base.observations = [] ∧
        s.observations.foldlM observe base = .ok mid ∧ mid.observations = next.observations := by
  simp only [fromSnapshot, ok_iff] at h
  rcases h with ⟨_, _, _, hsrcs, _, haccs, _, hgrants, _, hobs, _,
    hbinds, _, hleases, _, _, _, htombs, _, hquar, _, hjobs, hnext⟩
  rcases restoreSources hs.sources with ⟨r1, hsrcs'⟩
  cases hsrcs.symm.trans hsrcs'
  cases haccs.symm.trans (restoreAccounts hs.sources hs.accounts r1)
  rcases restoreGrants hs r1 with ⟨r2, hgrants'⟩
  cases hgrants.symm.trans hgrants'
  have hok := observe_fold_ok (s := restored s r2 [])
    ⟨Nat.zero_le _, fun _ ho => absurd ho not_mem_nil⟩ hobs
  rcases observe_fold_frame hobs with ⟨r3, observations, rfl⟩
  cases hbinds.symm.trans (restoreBindings hs (restored s r3 observations) rfl)
  cases hleases.symm.trans (restoreLeases hs (restored s r3 observations) rfl)
  cases htombs.symm.trans (restoreTombstones hs { restored s r3 observations with
    bindings := s.bindings, leases := s.leases } rfl rfl)
  cases hquar.symm.trans (restoreQuarantine hs { restored s r3 observations with
    bindings := s.bindings, leases := s.leases, tombstones := s.tombstones } rfl)
  rcases restoreJobs hs { restored s r3 observations with
    bindings := s.bindings, leases := s.leases, tombstones := s.tombstones,
    quarantinedImports := s.quarantinedImports } rfl with ⟨_, hjobs'⟩
  cases hjobs.symm.trans hjobs'
  subst hnext
  exact ⟨hok, rfl, _, _, rfl, hobs, rfl⟩

theorem wellFormed_advance (event : Event) (hs : WellFormed s) : WellFormed (s.advance event) := by
  cases event with
  | op op => exact wellFormed_step op hs
  | restart =>
    unfold advance
    cases h : fromSnapshot s.snapshot with
    | error => exact hs
    | ok =>
      rcases fromSnapshot_frame hs h with ⟨hok, hnext, _⟩
      rw [hnext]
      exact wellFormed_withObservations hs hok

theorem wellFormed_events (events : List Event) : WellFormed (run advance init events) :=
  run_invariant (fun _ event hmid => wellFormed_advance event hmid) wellFormed_init events

/-- Over every run with restarts a lease belongs to one binding, which counts it, and its grant
still allows it. -/
theorem leases_counted_and_granted (events : List Event) :
    let s := run advance init events
    (s.leases.map Lease.id).Nodup ∧ (s.bindings.map Binding.id).Nodup ∧
      (forall b, b ∈ s.bindings -> b.inFlight = leasesOn s.leases b.id) ∧
      forall lease, lease ∈ s.leases ->
        (exists b, b ∈ s.bindings ∧ b.id = lease.bindingId ∧ leaseFollows b lease = true) ∧
        exists g, g ∈ s.grants ∧ g.id = lease.grantId ∧
          validateLeaseAuthority lease g = .ok () := by
  have hs := wellFormed_events events
  refine ⟨hs.leases.distinct, hs.bindings.distinct, fun b hb => (hs.bindings.each b hb).counted,
    fun lease hlease => ?_⟩
  have hok := hs.leases.each lease hlease
  exact ⟨hok.bound, hok.authority⟩

end State

end Omux.Domain
