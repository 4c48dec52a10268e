import Omux.Domain.WellFormed

/-!
# Sources, accounts and grants keep the invariant

The operations on these tables, and the observations and jobs that refer to
accounts.  Bindings and leases follow in their own module.
-/

namespace Omux.Domain

open Library List

namespace State

variable {s next : State}

/-!
## Sources
-/

theorem wellFormed_withSources {sources : List Source} (hs : WellFormed s)
    (hsrcs : SourcesOk sources) (haccs : AccountsOk sources s.accounts)
    (hids : forall id, id ∈ s.sources.map Source.id -> id ∈ sources.map Source.id) :
    WellFormed { s with sources } where
  __ := hs
  sources := hsrcs
  accounts := haccs
  tombstones := by
    refine ⟨hs.tombstones.bounded, hs.tombstones.distinct, ?_⟩
    intro tombstone htomb
    have hok := hs.tombstones.each tombstone htomb
    exact { hok with source := hids _ hok.source }
  quarantine := by
    refine ⟨hs.quarantine.bounded, ?_⟩
    intro candidate hcandidate
    have hok := hs.quarantine.each candidate hcandidate
    exact { hok with source := hids _ hok.source }

variable {accounts : List Account} {source : Source} {i : Nat} {id : Bytes} {input : Enrollment}
  {now : Int}

theorem accountsOk_of_links {sources sources' : List Source} (h : AccountsOk sources accounts)
    (hlinks : forall owner, owner ∈ accounts -> forall source, source ∈ sources -> source.id ∈
      owner.sourceIds -> providerAgrees source owner.identity = true -> exists source', source' ∈
      sources' ∧ source'.id = source.id ∧ providerAgrees source' owner.identity = true) :
    AccountsOk sources' accounts := by
  refine { h with each := ?_ }
  intro owner howner
  have hok := h.each owner howner
  refine { hok with links := ?_ }
  intro sourceId hsourceId
  rcases hok.links sourceId hsourceId with ⟨source, hsource, hid, hagrees⟩
  have hlinked : source.id ∈ owner.sourceIds := by
    rw [hid]
    exact hsourceId
  rcases hlinks owner howner source hsource hlinked hagrees with
    ⟨source', hsource', hid', hagrees'⟩
  exact ⟨source', hsource', by rw [hid', hid], hagrees'⟩

theorem wellFormed_replaceSource {previous updated : Source} (hs : WellFormed s)
    (hget : s.sources[i]? = some previous) (hok : SourceOk updated)
    (hid : updated.id = previous.id) (hagrees : forall owner, owner ∈ s.accounts -> previous.id ∈
      owner.sourceIds -> providerAgrees previous owner.identity = true -> providerAgrees updated
      owner.identity = true) : WellFormed { s with sources := s.sources.set i updated } := by
  apply wellFormed_withSources hs
  · exact ⟨length_set.trans_le hs.sources.bounded, nodup_map_set hs.sources.distinct hget hid,
      forall_mem_set hs.sources.each hok⟩
  · apply accountsOk_of_links hs.accounts
    intro owner howner source hsource hlinked hagree
    by_cases hsame : source = previous
    · rw [hsame] at hlinked hagree ⊢
      exact ⟨updated, mem_set_self hget, hid, hagrees owner howner hlinked hagree⟩
    · exact ⟨source, mem_set_of_ne hget hsource hsame, rfl, hagree⟩
  · intro _ hmem
    rw [map_set_of_eq hget hid]
    exact hmem

theorem reconnected_agrees {previous : Source} {owner : Account}
    (hclash : s.reconnectConflicts previous source = false) (howner : owner ∈ s.accounts)
    (hlinked : source.id ∈ owner.sourceIds)
    (hagrees : providerAgrees previous owner.identity = true) :
    providerAgrees (reconnected previous source) owner.identity = true := by
  cases hprov : source.provider with
  | nil => simpa [reconnected, hprov, providerAgrees] using hagrees
  | cons =>
    simp only [reconnectConflicts, bool_iff, any_eq_false] at hclash
    have howners := hclash.right owner howner
    have hequal : owner.identity.provider = source.provider := by
      by_contra hne
      apply howners
      simp [hlinked, hprov]
      intro heq
      exact hne (by rw [heq, hprov])
    simp [reconnected, hprov, providerAgrees, hequal]

theorem wellFormed_connectSource {out : Source} (hs : WellFormed s)
    (h : s.connectSource source = .ok (next, out)) : WellFormed next := by
  rcases connectSource_inv h with ⟨hid, hauth, hcase⟩
  cases hcase with
  | inl hreplace =>
    rcases hreplace with ⟨i, previous, hentry, hclash, hvalid, hnext⟩
    rcases recordEntry_eq_some hentry with ⟨hget, hkey⟩
    have hupdated : SourceOk (reconnected previous source) :=
      ⟨hid, hauth, hvalid⟩
    rw [hnext]
    apply wellFormed_changed
    apply wellFormed_replaceSource hs hget hupdated hkey.symm
    intro owner howner hlinked hagrees
    rw [hkey] at hlinked
    exact reconnected_agrees hclash howner hlinked hagrees
  | inr happend =>
    rcases happend with ⟨hentry, hlen, hvalid, hnext⟩
    rw [hnext]
    apply wellFormed_changed
    apply wellFormed_withSources hs
    · refine ⟨length_concat_le hlen, ?_, ?_⟩
      · exact nodup_map_concat hs.sources.distinct (recordEntry_eq_none.mp hentry)
      · exact forall_mem_concat hs.sources.each ⟨hid, hauth, hvalid⟩
    · apply accountsOk_of_links hs.accounts
      intro owner _ x hx _ hagrees
      exact ⟨x, mem_append_left _ hx, rfl, hagrees⟩
    · intro _ hmem
      simp only [map_append, mem_append]
      exact Or.inl hmem

theorem wellFormed_sourceStatus (status : SourceStatus) (hs : WellFormed s)
    (hentry : s.sourceEntry id = some (i, source)) : WellFormed { s with
      sources := s.sources.set i { source with status } } := by
  rcases recordEntry_eq_some hentry with ⟨hget, _⟩
  have hok := hs.sources.each source (recordEntry_mem hentry)
  have hupdated : SourceOk { source with status } :=
    { hok with }
  apply wellFormed_replaceSource hs hget hupdated rfl
  intro _ _ _ hagrees
  exact hagrees

theorem wellFormed_detachSource (hs : WellFormed s) (h : s.detachSource id = .ok next) :
    WellFormed next := by
  rcases detachSource_inv h with ⟨i, _, hentry, rfl⟩
  exact wellFormed_changed (wellFormed_sourceStatus .detached hs hentry)

/-!
## Grants
-/

/-- New grant records, as long as every old grant keeps a counterpart. -/
theorem wellFormed_withGrants {grants : List Grant} (hs : WellFormed s)
    (hgrants : GrantsOk s.accounts grants) (hcovers : Covers GrantKept s.grants grants) :
    WellFormed { s with grants } where
  __ := hs
  grants := hgrants
  bindings := bindingsOk_of_covers hcovers hs.bindings
  leases := leasesOk_of_covers hcovers hs.leases

theorem validateGrant_invalidate (id : Bytes) (g : Grant) :
    validateGrant (invalidateGrant id g) = validateGrant g := by
  unfold invalidateGrant
  split <;> rfl

theorem grantKept_invalidate (id : Bytes) (g : Grant) : GrantKept g (invalidateGrant id g) := by
  unfold invalidateGrant
  split
  · exact ⟨rfl, rfl, le_rfl, fun _ h => h⟩
  · exact grantKept_refl g

theorem wellFormed_invalidateGrants (id : Bytes) (hs : WellFormed s) :
    WellFormed { s with grants := s.grants.map (invalidateGrant id) } := by
  apply wellFormed_withGrants hs
  · refine ⟨by simpa using hs.grants.bounded, ?_, ?_⟩
    · have hmap : (s.grants.map (invalidateGrant id)).map Grant.id = s.grants.map Grant.id := by
        rw [map_map]
        apply map_congr_left
        intro g _
        exact (grantKept_invalidate id g).left
      rw [hmap]
      exact hs.grants.distinct
    · intro g hg
      rcases mem_map.mp hg with ⟨old, hold, rfl⟩
      rcases hs.grants.each old hold with ⟨hvalid, owner, howner, hid, hsource⟩
      refine ⟨by rw [validateGrant_invalidate, hvalid], owner, howner, ?_, ?_⟩
      · rw [hid, (grantKept_invalidate id old).right.left]
      · have hsame : (invalidateGrant id old).sourceId = old.sourceId := by
          unfold invalidateGrant
          split <;> rfl
        rw [hsame]
        exact hsource
  · exact covers_map (grantKept_invalidate id) s.grants

theorem wellFormed_disconnectSource (hs : WellFormed s) (h : s.disconnectSource id = .ok next) :
    WellFormed next := by
  rcases disconnectSource_inv h with ⟨i, _, hentry, rfl⟩
  apply wellFormed_changed
  exact wellFormed_invalidateGrants id (wellFormed_sourceStatus .disconnected hs hentry)

theorem validateLeaseAuthority_of_same {lease : Lease} {old new : Grant}
    (hsame : sameGrantAuthority old new = true) (h : validateLeaseAuthority lease old = .ok ()) :
    validateLeaseAuthority lease new = .ok () := by
  simp only [sameGrantAuthority, bool_iff, all_eq_true, contains_iff_mem] at hsame
  rcases hsame with ⟨⟨⟨⟨⟨hkind, haudience⟩, _⟩, _⟩, hscopes⟩, hpurposes⟩
  simp only [validateLeaseAuthority, ok_iff, bool_iff, all_eq_true, contains_iff_mem] at h ⊢
  rcases h with ⟨_, hvalid, _, hreq, _, ⟨⟨⟨hbrowser, hrefresh⟩, hpurpose⟩,
    haud⟩, _, hcontained, hres⟩
  refine ⟨(), hvalid, (), hreq, (), ⟨⟨⟨?_, ?_⟩, ?_⟩, ?_⟩, (), ?_, hres⟩
  · rw [<- hkind]
    exact hbrowser
  · rw [<- hkind]
    exact hrefresh
  · exact hpurposes lease.purpose (by simpa [hasPurpose] using hpurpose)
  · rw [<- haudience]
    exact haud
  · intro scope hscope
    exact hscopes scope (hcontained scope hscope)

theorem wellFormed_addGrant {input out : Grant} (hs : WellFormed s)
    (h : s.addGrant input = .ok (next, out)) : WellFormed next := by
  rcases addGrant_inv h with ⟨hgrant, ⟨owner, howner, hsource⟩, hcase⟩
  rcases recordAt_eq_some howner with ⟨hmem, hid⟩
  have hok : GrantOk s.accounts input := ⟨hgrant, owner, hmem, hid, hsource⟩
  cases hcase with
  | inl hreplace =>
    rcases hreplace with ⟨i, _, hentry, hacct, _, hauth, _, _, hnext⟩
    rcases recordEntry_eq_some hentry with ⟨hget, hkey⟩
    rw [hnext]
    apply wellFormed_changed
    apply wellFormed_withGrants hs
    · exact ⟨length_set.trans_le hs.grants.bounded,
        nodup_map_set hs.grants.distinct hget hkey.symm, forall_mem_set hs.grants.each hok⟩
    · apply covers_set grantKept_refl hget
      refine ⟨hkey.symm, hacct.symm, by omega, ?_⟩
      intro _ hlease
      exact validateLeaseAuthority_of_same hauth hlease
  | inr happend =>
    rcases happend with ⟨hentry, hlen, _, hnext⟩
    rw [hnext]
    apply wellFormed_changed
    apply wellFormed_withGrants hs
    · refine ⟨length_concat_le hlen, ?_, ?_⟩
      · exact nodup_map_concat hs.grants.distinct (recordEntry_eq_none.mp hentry)
      · exact forall_mem_concat hs.grants.each hok
    · exact covers_append grantKept_refl s.grants [input]

theorem validateGrant_reconciled {g : Grant} {input : Reconciliation}
    (hnonzero : input.nextGeneration ≠ 0) (h : validateGrant g = .ok ()) :
    validateGrant (reconciledGrant g input) = .ok () := by
  simp only [validateGrant, ok_iff, bool_iff] at h ⊢
  rcases h with ⟨_, hvalid, _, hid, _, hacct, _, hsource, _, haud, _, ⟨_, hpurposes⟩, hrest⟩
  exact ⟨(), hvalid, (), hid, (), hacct, (), hsource, (), haud, (),
    ⟨hnonzero, hpurposes⟩, hrest⟩

theorem wellFormed_reconcile {input : Reconciliation} (hs : WellFormed s)
    (h : s.reconcile input = .ok next) : WellFormed next := by
  rcases reconcile_inv h with ⟨i, g, hentry, _, rfl⟩
  rcases recordEntry_eq_some hentry with ⟨hget, _⟩
  have hg := hs.grants.each g (recordEntry_mem hentry)
  have hnonzero : input.nextGeneration ≠ 0 := by omega
  apply wellFormed_changed
  apply wellFormed_withGrants hs
  · refine ⟨length_set.trans_le hs.grants.bounded, nodup_map_set hs.grants.distinct hget rfl, ?_⟩
    apply forall_mem_set hs.grants.each
    exact ⟨validateGrant_reconciled hnonzero hg.valid, hg.owned⟩
  · apply covers_set grantKept_refl hget
    refine ⟨rfl, rfl, ?_, fun _ hlease => hlease⟩
    show g.generation <= input.nextGeneration
    omega

/-!
## Accounts
-/

theorem wellFormed_withAccounts (hs : WellFormed s) (haccs : AccountsOk s.sources accounts)
    (hcovers : Covers AccountKept s.accounts accounts)
    (hforgot : forall owner, owner ∈ accounts -> forall tombstone, tombstone ∈ s.tombstones ->
      identityKey owner.identity ≠ identityKey tombstone.identity) :
    WellFormed { s with accounts } where
  __ := hs
  accounts := haccs
  grants := grantsOk_of_covers hcovers hs.grants
  observations := observationsOk_of_covers hcovers hs.observations
  tombstones := by
    refine ⟨hs.tombstones.bounded, hs.tombstones.distinct, ?_⟩
    intro tombstone htomb
    have hok := hs.tombstones.each tombstone htomb
    refine { hok with forgotten := ?_ }
    intro owner howner
    exact hforgot owner howner tombstone htomb
  jobs := jobsOk_of_covers hcovers hs.jobs

theorem wellFormed_replaceAccount {existing updated : Account} (hs : WellFormed s)
    (hget : s.accounts[i]? = some existing) (hok : AccountOk s.sources updated)
    (hkept : AccountKept existing updated) (hident : updated.identity = existing.identity) :
    WellFormed { s with accounts := s.accounts.set i updated } := by
  have hmem : existing ∈ s.accounts := mem_of_getElem? hget
  apply wellFormed_withAccounts hs
  · refine ⟨length_set.trans_le hs.accounts.bounded,
      nodup_map_set hs.accounts.distinct hget hkept.left,
      nodup_map_set hs.accounts.identities hget ?_, forall_mem_set hs.accounts.each hok⟩
    rw [hident]
  · exact covers_set accountKept_refl hget hkept
  · apply forall_mem_set
    · intro owner howner tombstone htomb
      exact (hs.tombstones.each tombstone htomb).forgotten owner howner
    · intro tombstone htomb
      rw [hident]
      exact (hs.tombstones.each tombstone htomb).forgotten existing hmem

theorem validate_linked {owner : Account} {sourceId : Bytes}
    (howner : validate owner = .ok ()) (hsource : validate sourceId = .ok ())
    (hlen : owner.sourceIds.length < maxListItems) :
    validate { owner with sourceIds := owner.sourceIds ++ [sourceId] } = .ok () := by
  have hsplit : forall (o : Account), validate o = .ok () ↔
      (validate o.id = .ok () ∧ validate o.identity = .ok () ∧
        validate o.label = .ok () ∧ validate o.accountType = .ok ()) ∧
        o.sourceIds.length <= maxListItems ∧
        forall x, x ∈ o.sourceIds -> validate x = .ok () := by
    simp [validate, bind_eq_ok, checkAll_eq_ok, and_assoc]
  rw [hsplit] at howner ⊢
  rcases howner with ⟨hfields, _, hids⟩
  exact ⟨hfields, length_concat_le hlen, forall_mem_concat hids hsource⟩

section

variable (hs : WellFormed s)
include hs

theorem wellFormed_quarantine {reason : QuarantineReason}
    (hid : requireId input.accountId = .ok ()) (hident : requireIdentity input.identity = .ok ())
    (hreason : reasonConflicts (quarantinedImport input reason) = false)
    (hsource : input.sourceId ∈ s.sources.map Source.id)
    (h : s.quarantine input reason = .ok next) : WellFormed next := by
  cases quarantine_inv h with
  | inl hsame =>
    rw [hsame]
    exact hs
  | inr happend =>
    rcases happend with ⟨hlen, hvalid, rfl⟩
    apply wellFormed_changed
    refine { hs with quarantine := ⟨length_concat_le hlen, ?_⟩ }
    exact forall_mem_concat hs.quarantine.each ⟨hvalid, hid, hident, hreason, hsource⟩

theorem wellFormed_admitIdentity {out : EnrollmentResult}
    (hvalid : validate input = .ok ()) (hid : requireId input.accountId = .ok ())
    (hident : requireIdentity input.identity = .ok ())
    (hsource : s.source input.sourceId = some source)
    (hagrees : providerAgrees source input.identity = true)
    (hverif : input.identity.verified = true) (hclash : s.idConflicts input = false)
    (hforgot : forall tombstone, tombstone ∈ s.tombstones ->
      sameIdentity tombstone.identity input.identity = false)
    (h : s.admitIdentity input = .ok (next, out)) : WellFormed next := by
  rcases recordAt_eq_some hsource with ⟨hmem, hkey⟩
  rcases admitIdentity_inv h with rfl | hlink | hnew
  · exact hs
  · rcases hlink with ⟨i, existing, hentry, hunlinked, hlen, hnext⟩
    rcases firstEntry_eq_some hentry with ⟨hget, hsame⟩
    have hok := hs.accounts.each existing (mem_of_getElem? hget)
    have hprov : input.identity.provider = existing.identity.provider :=
      (congrArg Prod.fst (sameIdentity_eq_true.mp hsame)).symm
    have hvalidSource : validate input.sourceId = .ok () := by
      simp only [validate, bind_eq_ok] at hvalid
      rcases hvalid with ⟨_, _, _, hsourceId, _⟩
      exact hsourceId
    have hupdated : AccountOk s.sources { existing with
        sourceIds := existing.sourceIds ++ [input.sourceId] } := by
      refine ⟨validate_linked hok.valid hvalidSource hlen, hok.id, hok.identity,
        hok.verified, by simp, ?_, ?_⟩
      · rw [nodup_append]
        refine ⟨hok.distinct, by simp, ?_⟩
        intro a ha b hb hab
        rw [hab, mem_singleton.mp hb] at ha
        exact hunlinked ha
      · apply forall_mem_concat hok.links
        refine ⟨source, hmem, hkey, ?_⟩
        simpa [providerAgrees, hprov] using hagrees
    rw [hnext]
    apply wellFormed_changed
    apply wellFormed_replaceAccount hs hget hupdated ?_ rfl
    exact ⟨rfl, fun x hx => mem_append_left _ hx⟩
  · rcases hnew with ⟨hfresh, hlen, hvalidNew, hnext⟩
    have hfreshId : forall owner, owner ∈ s.accounts -> owner.id ≠ input.accountId := by
      intro owner howner hsame
      have hfound := recordAt_of_mem hs.accounts.distinct howner hsame
      simp [idConflicts, account, hfound, hfresh owner howner] at hclash
    have hadm : AccountOk s.sources (enrolledAccount input) := by
      refine ⟨hvalidNew, hid, hident, hverif, by simp [enrolledAccount],
        by simp [enrolledAccount], ?_⟩
      intro _ hsourceId
      rw [mem_singleton.mp hsourceId]
      exact ⟨source, hmem, hkey, hagrees⟩
    rw [hnext]
    apply wellFormed_changed
    apply wellFormed_withAccounts hs
    · refine ⟨length_concat_le hlen, nodup_map_concat hs.accounts.distinct hfreshId,
        nodup_map_concat hs.accounts.identities ?_, forall_mem_concat hs.accounts.each hadm⟩
      intro owner howner
      exact sameIdentity_eq_false.mp (hfresh owner howner)
    · exact covers_append accountKept_refl _ _
    · apply forall_mem_concat
      · intro owner howner tombstone htomb
        exact (hs.tombstones.each tombstone htomb).forgotten owner howner
      · intro tombstone htomb
        exact (sameIdentity_eq_false.mp (hforgot tombstone htomb)).symm

theorem wellFormed_enroll {out : EnrollmentResult}
    (h : s.enroll input now = .ok (next, out)) : WellFormed next := by
  rcases enroll_inv h with ⟨hvalid, hid, hident, source, hsource, hagrees, hcase⟩
  have hlisted : input.sourceId ∈ s.sources.map Source.id := by
    rcases recordAt_eq_some hsource with ⟨hmem, hkey⟩
    exact mem_map.mpr ⟨source, hmem, hkey⟩
  rcases hcase with rfl | hunverified | hconflicting | hadm
  · exact hs
  · apply wellFormed_quarantine hs hid hident ?_ hlisted hunverified.right
    simp [reasonConflicts, quarantinedImport, hunverified.left]
  · apply wellFormed_quarantine hs hid hident ?_ hlisted hconflicting.right
    simp [reasonConflicts, quarantinedImport, hconflicting.left]
  · rcases hadm with ⟨hverif, hclash, hforgot, hadmit⟩
    exact wellFormed_admitIdentity hs hvalid hid hident hsource hagrees hverif
      hclash hforgot hadmit

theorem wellFormed_setLifecycle {accountId : Bytes} {lifecycle : AccountLifecycle}
    (h : s.setLifecycle accountId lifecycle = .ok next) : WellFormed next := by
  rcases setLifecycle_inv h with ⟨i, owner, hentry, rfl⟩
  have hget := (recordEntry_eq_some hentry).left
  have hok := hs.accounts.each owner (recordEntry_mem hentry)
  have hupdated : AccountOk s.sources { owner with lifecycle } :=
    { hok with }
  apply wellFormed_changed
  exact wellFormed_replaceAccount hs hget hupdated ⟨rfl, fun _ hx => hx⟩ rfl

/-!
## Observations
-/

theorem wellFormed_withObservations {observations : List Observation}
    (hok : ObservationsOk s.accounts observations) : WellFormed { s with observations } :=
  { hs with observations := hok }

end

theorem observationsOk_sublist {old new : List Observation} (hsub : new.Sublist old)
    (h : ObservationsOk accounts old) : ObservationsOk accounts new :=
  ⟨hsub.length_le.trans h.bounded, fun o ho => h.each o (hsub.subset ho)⟩

theorem observationsOk_observe {input : Observation}
    (hok : ObservationsOk s.accounts s.observations) (h : s.observe input = .ok next) :
    next.accounts = s.accounts ∧
      ObservationsOk s.accounts next.observations := by
  rcases observe_inv h with ⟨hvalid, howner, hcase⟩
  rcases hcase with hmatched | hnew
  · rcases hmatched with ⟨i, _, _, _, hignored | hrepl⟩
    · rw [hignored.right]
      exact ⟨rfl, hok⟩
    · rw [hrepl.right]
      exact ⟨rfl, observationsOk_sublist filter_sublist ⟨length_set.trans_le hok.bounded,
        forall_mem_set hok.each ⟨hvalid, howner⟩⟩⟩
  · rcases hnew with ⟨_, hlen, rfl⟩
    refine ⟨rfl, observationsOk_sublist filter_sublist ⟨?_, ?_⟩⟩
    · exact length_concat_le hlen
    · exact forall_mem_concat hok.each ⟨hvalid, howner⟩

theorem observe_frame {input : Observation} (h : s.observe input = .ok next) :
    exists revision observations, next = { s with
      revision, observations } := by
  rcases observe_inv h with ⟨_, _, hcase⟩
  rcases hcase with hmatched | hnew
  · rcases hmatched with ⟨i, _, _, _, hignored | hrepl⟩
    · exact ⟨s.revision, s.observations, hignored.right⟩
    · exact ⟨_, _, hrepl.right⟩
  · exact ⟨_, _, hnew.right.right⟩

theorem wellFormed_observe {input : Observation} (hs : WellFormed s)
    (h : s.observe input = .ok next) : WellFormed next := by
  have hok := (observationsOk_observe hs.observations h).right
  rcases observe_frame h with ⟨_, _, rfl⟩
  exact wellFormed_revision (wellFormed_withObservations hs hok)

theorem wellFormed_observeBatch {input : List Observation} (hs : WellFormed s)
    (h : s.observeBatch input = .ok next) : WellFormed next := by
  rcases observeBatch_inv h with rfl | hstaged
  · exact hs
  · rcases hstaged with ⟨staged, hfold, rfl⟩
    -- Every element is observed on the staged copy over the same accounts.
    have hstart : s.staging.accounts = s.accounts ∧
        ObservationsOk s.accounts s.staging.observations :=
      ⟨rfl, hs.observations⟩
    have hinvariant : staged.accounts = s.accounts ∧
        ObservationsOk s.accounts staged.observations := by
      apply foldlM_invariant (P := fun mid : State =>
        mid.accounts = s.accounts ∧ ObservationsOk s.accounts mid.observations)
        ?_ hstart hfold
      intro mid _ o _ hmid hobserve
      rcases hmid with ⟨haccs, hok⟩
      rw [<- haccs] at hok ⊢
      exact observationsOk_observe hok hobserve
    exact wellFormed_changed (wellFormed_withObservations hs hinvariant.right)

theorem pruneLoop_sublist (now : Int) (kept todo : List Observation) :
    (pruneLoop now kept todo).Sublist (kept ++ todo) := by
  induction todo generalizing kept with
  | nil => simp [pruneLoop]
  | cons o rest ih =>
    unfold pruneLoop
    split
    · exact (ih kept).trans (List.Sublist.append_left (sublist_cons_self o rest) kept)
    · simpa using ih (kept ++ [o])

theorem wellFormed_pruneObservations (hs : WellFormed s)
    (h : (s.pruneObservations now).fst = next) : WellFormed next := by
  rcases pruneObservations_inv h with rfl | rfl
  · exact hs
  · apply wellFormed_changed
    apply wellFormed_withObservations hs
    exact observationsOk_sublist (pruneLoop_sublist now [] s.observations) hs.observations

/-!
## Jobs
-/

theorem wellFormed_withJobs {jobs : List Job} (hs : WellFormed s)
    (hjobs : JobsOk s.accounts jobs) : WellFormed { s with jobs } :=
  { hs with jobs := hjobs }

theorem jobOk_update {existing updated : Job} (hupdate : JobUpdate existing updated)
    (h : JobOk accounts existing) : JobOk accounts updated := by
  rcases hupdate with ⟨hid, hacct, _⟩
  have hvalid := h.valid
  have hnonzero := h.generation
  simp only [validate, bind_eq_ok] at hvalid
  refine ⟨?_, by rw [hid]; exact h.id, by omega, by rw [hacct]; exact h.owned⟩
  simp only [validate, bind_eq_ok]
  rw [hid, hacct]
  exact hvalid

theorem wellFormed_jobChange {input : Job} (hs : WellFormed s)
    (h : JobChange s input next) : WellFormed next := by
  rcases h with rfl | hupdated | hnew
  · exact hs
  · rcases hupdated with ⟨i, existing, _, hentry, hupdate, hnext⟩
    have hok := hs.jobs.each existing (recordEntry_mem hentry)
    have hget := (recordEntry_eq_some hentry).left
    rw [hnext]
    apply wellFormed_changed
    apply wellFormed_withJobs hs
    exact ⟨length_set.trans_le hs.jobs.bounded, nodup_map_set hs.jobs.distinct hget hupdate.left,
      forall_mem_set hs.jobs.each (jobOk_update hupdate hok)⟩
  · rcases hnew with ⟨hvalid, hid, hgen, howner, hentry, hlen, hnext⟩
    have howned : input.accountId = [] ∨
        exists owner, owner ∈ s.accounts ∧ owner.id = input.accountId := by
      by_cases hempty : input.accountId = []
      · exact Or.inl hempty
      · apply Or.inr
        cases hfound : s.accountEntry input.accountId with
        | none => simp [jobOwnerMissing, hfound, hempty] at howner
        | some entry => exact ⟨entry.2, recordEntry_mem hfound, (recordEntry_eq_some hfound).right⟩
    rw [hnext]
    apply wellFormed_changed
    apply wellFormed_withJobs hs
    exact ⟨length_concat_le hlen,
      nodup_map_concat hs.jobs.distinct (recordEntry_eq_none.mp hentry),
      forall_mem_concat hs.jobs.each ⟨hvalid, hid, hgen, howned⟩⟩

theorem wellFormed_putJob {input out : Job} (hs : WellFormed s)
    (h : s.putJob input = .ok (next, out)) : WellFormed next :=
  wellFormed_jobChange hs (putJob_inv h)

theorem wellFormed_reopenJob {input out : Job} (hs : WellFormed s)
    (h : s.reopenJob input = .ok (next, out)) : WellFormed next :=
  wellFormed_jobChange hs (reopenJob_inv h)

theorem wellFormed_permitReenrollment {identity : Identity} {sourceId : Bytes} (hs : WellFormed s)
    (h : s.permitReenrollment identity sourceId now = .ok next) : WellFormed next := by
  rcases permitReenrollment_inv h with ⟨_, rfl⟩
  have hsub : (s.tombstones.filter (fun tombstone =>
      !sameIdentity tombstone.identity identity)).Sublist s.tombstones :=
    filter_sublist
  refine { hs with tombstones := ⟨?_, ?_, ?_⟩ }
  · exact hsub.length_le.trans hs.tombstones.bounded
  · exact nodup_map_filter hs.tombstones.distinct
  · intro tombstone htomb
    exact hs.tombstones.each tombstone (hsub.subset htomb)

end State

end Omux.Domain
