import Omux.Domain.Preservation

/-!
# Bindings and leases keep the invariant

A binding counts the leases that run on it.  A binding that counts none may be
replaced or removed, because no lease refers to it.
-/

namespace Omux.Domain

open Library List
open Native (NativeRef)

/-!
## Counting leases
-/

theorem leasesOn_concat (leases : List Lease) (lease : Lease) (id : Bytes) :
    leasesOn (leases ++ [lease]) id =
      leasesOn leases id + if lease.bindingId = id then 1 else 0 := by
  simp [leasesOn]

theorem leasesOn_eraseIdx {leases : List Lease} {i : Nat} {lease : Lease}
    (hget : leases[i]? = some lease) (id : Bytes) :
    leasesOn leases id = leasesOn (leases.eraseIdx i) id +
      if lease.bindingId = id then 1 else 0 := by
  rcases List.getElem?_eq_some_iff.mp hget with ⟨_, hlease⟩
  have hsplit : leases = leases.take i ++ lease :: leases.drop (i + 1) := by
    rw [<- hlease, cons_getElem_drop_succ, take_append_drop]
  rw [eraseIdx_eq_take_drop_succ]
  conv_lhs => rw [hsplit]
  simp only [leasesOn, countP_append, countP_cons, bool_iff]
  omega

theorem leasesOn_eq_zero {leases : List Lease} {id : Bytes} :
    leasesOn leases id = 0 ↔ forall lease, lease ∈ leases -> lease.bindingId ≠ id := by
  simp [leasesOn]

namespace State

variable {s next : State}

variable {bindings : List Binding} {id : Bytes} {leases : List Lease} {b : Binding}
  {grants : List Grant}

theorem wellFormed_withBindings (hs : WellFormed s)
    (hbinds : BindingsOk s.grants leases bindings)
    (hleases : LeasesOk s.grants bindings leases) : WellFormed { s with bindings, leases } :=
  { hs with bindings := hbinds, leases := hleases }

/-!
## Bindings
-/

theorem lease_ne_of_idle (hs : WellFormed s) (hb : b ∈ s.bindings) (hidle : b.inFlight = 0) :
    forall lease, lease ∈ s.leases -> lease.bindingId ≠ b.id := by
  apply leasesOn_eq_zero.mp
  rw [<- (hs.bindings.each b hb).counted, hidle]

/-- Leases stay bound when only unreferenced bindings leave. -/
theorem leasesOk_withBindings {bindings' : List Binding} (h : LeasesOk grants bindings leases)
    (hkeep : forall b, b ∈ bindings ->
      (exists lease, lease ∈ leases ∧ lease.bindingId = b.id) -> b ∈ bindings') :
    LeasesOk grants bindings' leases := by
  refine ⟨h.bounded, h.distinct, ?_⟩
  intro lease hlease
  have hok := h.each lease hlease
  rcases hok.bound with ⟨b, hb, hid, hfol⟩
  exact { hok with bound := ⟨b, hkeep b hb ⟨lease, hlease, hid.symm⟩, hid, hfol⟩ }

theorem wellFormed_bind {input out : Binding} (hs : WellFormed s)
    (h : s.bind input = .ok (next, out)) : WellFormed next := by
  rcases bind_inv h with ⟨hvalid, hid, happ, hsession, hidle, hroute,
    ⟨g, hgrant, hacct, hgeneration⟩, hcase⟩
  rcases recordAt_eq_some hgrant with ⟨hmem, hkey⟩
  have hgranted : exists g, g ∈ s.grants ∧ g.id = input.grantId ∧
      g.accountId = input.accountId ∧ input.grantGeneration ≠ 0 ∧
      input.grantGeneration <= g.generation := by
    have hnonzero : g.generation ≠ 0 := by
      have hok := (hs.grants.each g hmem).valid
      simp only [validateGrant, ok_iff, bool_iff] at hok
      rcases hok with ⟨_, _, _, _, _, _, _, _, _, _, _, ⟨hgen, _⟩, _⟩
      exact hgen
    exact ⟨g, hmem, hkey, hacct, by rw [<- hgeneration]; exact hnonzero, hgeneration.symm.le⟩
  have hbound : forall hfree : (forall lease, lease ∈ s.leases ->
      lease.bindingId ≠ input.id), BindingOk s.grants s.leases input := by
    intro hfree
    refine ⟨hvalid, hid, happ, hsession, hroute, hgranted, ?_⟩
    rw [hidle, leasesOn_eq_zero.mpr hfree]
  rcases hcase with hreplace | happend
  · rcases hreplace with ⟨i, _, hentry, _, hprevious, hnext⟩
    rcases recordEntry_eq_some hentry with ⟨hget, hpid⟩
    have hfree := lease_ne_of_idle hs (recordEntry_mem hentry) hprevious
    rw [hnext]
    apply wellFormed_changed
    apply wellFormed_withBindings hs
    · refine ⟨length_set.trans_le hs.bindings.bounded,
        nodup_map_set hs.bindings.distinct hget hpid.symm, forall_mem_set hs.bindings.each ?_⟩
      apply hbound
      rw [<- hpid]
      exact hfree
    · apply leasesOk_withBindings hs.leases
      intro b hb hused
      rcases hused with ⟨lease, hlease, hon⟩
      apply mem_set_of_ne hget hb
      intro hsame
      rw [hsame] at hon
      exact hfree lease hlease hon
  · rcases happend with ⟨hentry, hlen, hnext⟩
    have hfree : forall lease, lease ∈ s.leases -> lease.bindingId ≠ input.id := by
      intro lease hlease hon
      rcases (hs.leases.each lease hlease).bound with ⟨b, hb, hbid, _⟩
      exact recordEntry_eq_none.mp hentry b hb (by rw [hbid, hon])
    rw [hnext]
    apply wellFormed_changed
    apply wellFormed_withBindings hs
    · exact ⟨length_concat_le hlen, nodup_map_concat hs.bindings.distinct
        (recordEntry_eq_none.mp hentry), forall_mem_concat hs.bindings.each (hbound hfree)⟩
    · apply leasesOk_withBindings hs.leases
      intro b hb _
      exact mem_append_left _ hb

theorem wellFormed_release (hs : WellFormed s)
    (h : exists i b, s.bindingEntry id = some (i, b) ∧ b.inFlight = 0 ∧
      next = { s with bindings := s.bindings.eraseIdx i }.changed) : WellFormed next := by
  rcases h with ⟨i, b, hentry, hidle, rfl⟩
  have hget := (recordEntry_eq_some hentry).left
  have hfree := lease_ne_of_idle hs (recordEntry_mem hentry) hidle
  apply wellFormed_changed
  apply wellFormed_withBindings hs
  · refine ⟨(length_eraseIdx_le _ i).trans hs.bindings.bounded,
      nodup_map_eraseIdx hs.bindings.distinct, ?_⟩
    intro x hx
    exact hs.bindings.each x (mem_of_mem_eraseIdx hx)
  · apply leasesOk_withBindings hs.leases
    intro x hx hused
    rcases hused with ⟨lease, hlease, hon⟩
    apply mem_eraseIdx_of_ne hget hx
    intro hsame
    rw [hsame] at hon
    exact hfree lease hlease hon

theorem wellFormed_releaseBinding (hs : WellFormed s) (h : s.releaseBinding id = .ok next) :
    WellFormed next :=
  wellFormed_release hs (releaseBinding_inv h)

theorem wellFormed_releaseBindingExact {ref : NativeRef} (hs : WellFormed s)
    (h : s.releaseBindingExact id ref = .ok next) : WellFormed next :=
  wellFormed_release hs (releaseBindingExact_inv h)

/-!
## Leases
-/

/-- A recount of one binding together with the leases that it counts. -/
theorem bindingsOk_recount {leases' : List Lease} {i count : Nat}
    (h : BindingsOk grants leases bindings) (hget : bindings[i]? = some b)
    (hcount : count = leasesOn leases' b.id)
    (hother : forall id, id ≠ b.id -> leasesOn leases' id = leasesOn leases id) :
    BindingsOk grants leases' (bindings.set i { b with inFlight := count }) := by
  have hb := h.each b (mem_of_getElem? hget)
  refine ⟨length_set.trans_le h.bounded, nodup_map_set h.distinct hget rfl, ?_⟩
  intro x hx
  rcases eq_or_key_ne_of_mem_set h.distinct hget hx with rfl | hold
  · exact { hb with counted := hcount }
  · have hok := h.each x hold.left
    refine { hok with counted := ?_ }
    rw [hother x.id hold.right, hok.counted]

theorem leaseOk_recount {lease : Lease} {i count : Nat} (hget : bindings[i]? = some b)
    (h : LeaseOk grants bindings lease) :
    LeaseOk grants (bindings.set i { b with inFlight := count }) lease := by
  refine { h with bound := ?_ }
  rcases h.bound with ⟨x, hx, hid, hfol⟩
  by_cases hsame : x = b
  · rw [hsame] at hid hfol
    exact ⟨{ b with inFlight := count }, mem_set_self hget, hid, hfol⟩
  · exact ⟨x, mem_set_of_ne hget hx hsame, hid, hfol⟩

theorem validateLeaseAuthority_issued {input : Lease} {g : Grant}
    (h : validateLeaseAuthority input g = .ok ()) :
    validateLeaseAuthority (issuedLease g input) g = .ok () := by
  simp only [validateLeaseAuthority, ok_iff, bool_iff] at h ⊢
  rcases h with ⟨_, hscopes, _, hreq, _, ⟨hgrant, haud⟩, hrest⟩
  refine ⟨(), hscopes, (), hreq, (), ⟨hgrant, ?_⟩, hrest⟩
  unfold issuedLease
  cases hempty : input.audience.isEmpty with
  | true => simp
  | false => simpa [hempty] using haud

theorem wellFormed_beginLease {input out : Lease} {now : Int} (hs : WellFormed s)
    (h : s.beginLease input now = .ok (next, out)) : WellFormed next := by
  rcases beginLease_inv h with ⟨hid, hinterval, hfresh, _, b, g, hbind,
    hfol, hgrant, hauth, hlen, hvalid, rfl⟩
  rcases recordEntry_eq_some hbind with ⟨hget, hbid⟩
  rcases recordAt_eq_some hgrant with ⟨hgmem, hgid⟩
  have hon : (issuedLease g input).bindingId = b.id := hbid.symm
  apply wellFormed_changed
  apply wellFormed_withBindings hs
  · apply bindingsOk_recount hs.bindings hget
    · rw [leasesOn_concat, if_pos hon, (hs.bindings.each b (recordEntry_mem hbind)).counted]
    · intro _ hne
      rw [leasesOn_concat, hon, if_neg (Ne.symm hne), Nat.add_zero]
  · refine ⟨length_concat_le hlen, nodup_map_concat hs.leases.distinct hfresh, ?_⟩
    apply forall_mem_concat
    · intro lease hlease
      exact leaseOk_recount hget (hs.leases.each lease hlease)
    · exact ⟨hvalid, hid, hinterval,
        ⟨{ b with inFlight := b.inFlight + 1 }, mem_set_self hget, hbid, hfol⟩,
        ⟨g, hgmem, hgid, validateLeaseAuthority_issued hauth⟩⟩

theorem wellFormed_completeLease (hs : WellFormed s) (h : s.completeLease id = .ok next) :
    WellFormed next := by
  rcases completeLease_inv h with ⟨i, _, _, b, hentry, hbind, _, rfl⟩
  have hlease := (recordEntry_eq_some hentry).left
  rcases recordEntry_eq_some hbind with ⟨hget, hbid⟩
  apply wellFormed_changed
  apply wellFormed_withBindings hs
  · apply bindingsOk_recount hs.bindings hget
    · have hcount := leasesOn_eraseIdx hlease b.id
      have hcounted := (hs.bindings.each b (recordEntry_mem hbind)).counted
      rw [if_pos hbid.symm] at hcount
      omega
    · intro id hne
      have hcount := leasesOn_eraseIdx hlease id
      rw [if_neg (by rw [<- hbid]; exact Ne.symm hne)] at hcount
      omega
  · refine ⟨(length_eraseIdx_le _ i).trans hs.leases.bounded,
      nodup_map_eraseIdx hs.leases.distinct, ?_⟩
    intro x hx
    exact leaseOk_recount hget (hs.leases.each x (mem_of_mem_eraseIdx hx))

/-!
## Forgetting an account
-/

theorem validate_identity_of_account {owner : Account} (h : validate owner = .ok ()) :
    validate owner.identity = .ok () ∧
      forall sourceId, sourceId ∈ owner.sourceIds ->
        validate sourceId = .ok () := by
  simp only [validate, ok_iff, checkAll_eq_ok] at h ⊢
  rcases h with ⟨_, _, _, hident, _, _, _, _, _, _, hsrcs⟩
  exact ⟨hident, hsrcs⟩

theorem tombstonesOk_forget {sources : List Source} {accounts : List Account}
    {tombstones : List Tombstone} {ai : Nat} {owner : Account}
    (haccs : AccountsOk sources accounts) (h : TombstonesOk sources accounts tombstones)
    (hget : accounts[ai]? = some owner)
    (hlen : tombstones.length + owner.sourceIds.length <= maxRecords) :
    TombstonesOk sources (accounts.eraseIdx ai) (tombstones ++ tombstonesOf owner) := by
  have hmem : owner ∈ accounts := mem_of_getElem? hget
  have hok := haccs.each owner hmem
  refine ⟨by simpa [tombstonesOf] using hlen, ?_, ?_⟩
  · rw [map_append, nodup_append]
    refine ⟨h.distinct, ?_, ?_⟩
    · rw [tombstonesOf, map_map]
      apply hok.distinct.map
      intro a b hab
      exact congrArg Prod.snd hab
    · intro a ha c hc hac
      rcases mem_map.mp ha with ⟨old, hold, rfl⟩
      rcases mem_map.mp hc with ⟨_, hnew, rfl⟩
      rcases mem_map.mp hnew with ⟨sourceId, _, hnew'⟩
      apply (h.each old hold).forgotten owner hmem
      rw [<- hnew'] at hac
      exact (congrArg Prod.fst hac).symm
  · intro tombstone htomb
    rcases mem_append.mp htomb with hold | hnew
    · have hold' := h.each tombstone hold
      refine { hold' with forgotten := ?_ }
      intro other hother
      exact hold'.forgotten other (mem_of_mem_eraseIdx hother)
    · rcases mem_map.mp hnew with ⟨sourceId, hsource, hnew'⟩
      rcases validate_identity_of_account hok.valid with ⟨hident, hsrcs⟩
      rw [<- hnew']
      refine ⟨?_, hok.identity, hok.verified, ?_, ?_⟩
      · simp only [validate, bind_eq_ok]
        simp only [validate, bind_eq_ok] at hident hsrcs
        exact ⟨(), hident, hsrcs sourceId hsource⟩
      · rcases hok.links sourceId hsource with ⟨source, hs, hid, _⟩
        exact mem_map.mpr ⟨source, hs, hid⟩
      · intro other hother
        have hne := key_ne_of_mem_eraseIdx haccs.identities hget hother
        exact hne

theorem wellFormed_forget {accountId : Bytes} (hs : WellFormed s)
    (h : s.forget accountId = .ok next) : WellFormed next := by
  rcases forget_inv h with ⟨ai, owner, hentry, hleases, hlen, rfl⟩
  rcases recordEntry_eq_some hentry with ⟨hget, rfl⟩
  -- An account with another id is not the one that leaves.
  have hstays : forall id, id ≠ owner.id -> (exists other, other ∈ s.accounts ∧ other.id = id) ->
      exists other, other ∈ s.accounts.eraseIdx ai ∧ other.id = id := by
    intro id hne hex
    rcases hex with ⟨other, hother, hoid⟩
    refine ⟨other, mem_eraseIdx_of_ne hget hother ?_, hoid⟩
    intro hsame
    rw [hsame] at hoid
    exact hne hoid.symm
  have hgrantStays : forall g, g ∈ s.grants -> g.accountId ≠ owner.id ->
      g ∈ s.grants.filter (fun g => g.accountId != owner.id) := by
    intro g hg hne
    exact mem_filter.mpr ⟨hg, by simpa using hne⟩
  refine ⟨hs.sources, ?_, ?_, ?_, ?_, ?_, ?_, hs.quarantine, ?_⟩
  · refine ⟨?_, nodup_map_eraseIdx hs.accounts.distinct,
      nodup_map_eraseIdx hs.accounts.identities, ?_⟩
    · exact (eraseIdx_sublist s.accounts ai).length_le.trans hs.accounts.bounded
    · intro other hother
      exact hs.accounts.each other (mem_of_mem_eraseIdx hother)
  · refine ⟨(length_filter_le _ _).trans hs.grants.bounded, nodup_map_filter hs.grants.distinct, ?_⟩
    intro g hg
    rcases mem_filter.mp hg with ⟨hmem, hkept⟩
    rcases hs.grants.each g hmem with ⟨hvalid, other, hother, hoid, hsource⟩
    refine ⟨hvalid, other, mem_eraseIdx_of_ne hget hother ?_, hoid, hsource⟩
    intro hsame
    rw [hsame] at hoid
    simp [hoid] at hkept
  · refine ⟨(length_filter_le _ _).trans hs.observations.bounded, ?_⟩
    intro o ho
    rcases mem_filter.mp ho with ⟨hmem, hkept⟩
    have hok := hs.observations.each o hmem
    exact ⟨hok.valid, hstays o.accountId (by simpa using hkept) hok.owned⟩
  · refine ⟨(length_filter_le _ _).trans hs.bindings.bounded,
      nodup_map_filter hs.bindings.distinct, ?_⟩
    intro b hb
    rcases mem_filter.mp hb with ⟨hmem, hkept⟩
    have hok := hs.bindings.each b hmem
    rcases hok.granted with ⟨g, hg, hgid, hacct, hnonzero, hle⟩
    refine { hok with granted := ?_ }
    exact ⟨g, hgrantStays g hg (by rw [hacct]; simpa using hkept), hgid, hacct, hnonzero, hle⟩
  · refine ⟨hs.leases.bounded, hs.leases.distinct, ?_⟩
    intro lease hlease
    have hok := hs.leases.each lease hlease
    rcases hok.bound with ⟨b, hb, hbid, hfol⟩
    have hroute := hfol
    simp only [leaseFollows, bool_iff] at hroute
    rcases hroute with ⟨⟨⟨⟨_, hbaccount⟩, hbgrant⟩, _⟩, _⟩
    have hother : b.accountId ≠ owner.id := by
      rw [hbaccount]
      exact hleases lease hlease
    refine ⟨hok.valid, hok.id, hok.interval, ⟨b, ?_, hbid, hfol⟩, ?_⟩
    · exact mem_filter.mpr ⟨hb, by simpa using hother⟩
    · -- The grant of the lease is the grant of its binding.
      rcases hok.authority with ⟨g, hg, hgid, hauth⟩
      rcases (hs.bindings.each b hb).granted with ⟨g', hg', hgid', hacct, _⟩
      have hsame : g = g' := by
        apply inj_on_of_nodup_map hs.grants.distinct hg hg'
        rw [hgid, hgid', hbgrant]
      refine ⟨g, hgrantStays g hg ?_, hgid, hauth⟩
      rw [hsame, hacct]
      exact hother
  · exact tombstonesOk_forget hs.accounts hs.tombstones hget hlen
  · refine ⟨(length_filter_le _ _).trans hs.jobs.bounded, nodup_map_filter hs.jobs.distinct, ?_⟩
    intro job hjob
    rcases mem_filter.mp hjob with ⟨hmem, hkept⟩
    have hok := hs.jobs.each job hmem
    refine { hok with owned := ?_ }
    cases hok.owned with
    | inl hnone => exact Or.inl hnone
    | inr howner => exact Or.inr (hstays job.accountId (by simpa using hkept) howner)

/-!
## Every operation
-/

theorem wellFormed_attempt {op : Op} (hs : WellFormed s)
    (h : s.attempt op = .ok next) : WellFormed next := by
  cases op with
  | connectSource =>
    rcases map_fst_eq_ok.mp h with ⟨_, hok⟩
    exact wellFormed_connectSource hs hok
  | detachSource => exact wellFormed_detachSource hs h
  | disconnectSource => exact wellFormed_disconnectSource hs h
  | enroll =>
    rcases map_fst_eq_ok.mp h with ⟨_, hok⟩
    exact wellFormed_enroll hs hok
  | addGrant =>
    rcases map_fst_eq_ok.mp h with ⟨_, hok⟩
    exact wellFormed_addGrant hs hok
  | reconcile => exact wellFormed_reconcile hs h
  | observe => exact wellFormed_observe hs h
  | observeBatch => exact wellFormed_observeBatch hs h
  | pruneObservations => exact wellFormed_pruneObservations hs (Except.ok.inj h)
  | bind =>
    rcases map_fst_eq_ok.mp h with ⟨_, hok⟩
    exact wellFormed_bind hs hok
  | releaseBinding => exact wellFormed_releaseBinding hs h
  | releaseBindingExact => exact wellFormed_releaseBindingExact hs h
  | beginLease =>
    rcases map_fst_eq_ok.mp h with ⟨_, hok⟩
    exact wellFormed_beginLease hs hok
  | completeLease => exact wellFormed_completeLease hs h
  | pause | drain => exact wellFormed_setLifecycle hs h
  | forget => exact wellFormed_forget hs h
  | permitReenrollment => exact wellFormed_permitReenrollment hs h
  | putJob =>
    rcases map_fst_eq_ok.mp h with ⟨_, hok⟩
    exact wellFormed_putJob hs hok
  | reopenJob =>
    rcases map_fst_eq_ok.mp h with ⟨_, hok⟩
    exact wellFormed_reopenJob hs hok

theorem wellFormed_step (op : Op) (hs : WellFormed s) : WellFormed (s.step op) :=
  step_invariant (fun _ _ _ hmid hatt => wellFormed_attempt hmid hatt) s op hs

theorem wellFormed_of_reachable (h : s.Reachable) : WellFormed s :=
  reachable_invariant (fun _ op hmid => wellFormed_step op hmid) wellFormed_init h

end State

end Omux.Domain
