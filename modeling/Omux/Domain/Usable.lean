import Omux.Domain.Rejection

/-!
# Leases on a selection

`acquire` selects a grant, binds the session to it where the selection is not sticky, and
begins a lease.  `beginLease` checks the grant again, in its own words.
-/

namespace Omux.Domain

open Library
open Native (NativeRef)

/-- A session of an application and the handle of its next lease; the binding id is a
digest of the other parts of the session. -/
structure Attachment where
  id : Bytes
  application : Bytes
  sessionId : Bytes
  nativeRef : Option NativeRef
  handle : Bytes
  idOk : requireId id = .ok ()
  applicationOk : requireId application = .ok ()
  sessionOk : requireId sessionId = .ok ()
  refOk : validate nativeRef = .ok ()
  handleOk : requireId handle = .ok ()

def Attachment.Owns (a : Attachment) (s : State) : Prop :=
  forall b, s.binding a.id = some b ->
    b.application = a.application ∧ b.sessionId = a.sessionId ∧ b.nativeRef = a.nativeRef

def earliest (expires : Int) : Option Int -> Int
  | some expiry => min expires expiry
  | none => expires

namespace State

/-!
## The derivation
-/

def nextRoute (previous : Option Binding) (g : Grant) : Nat :=
  match previous with
  | some old => old.routeGeneration +
      (if old.grantId != g.id || old.grantGeneration != g.generation then 1 else 0)
  | none => 1

def untilSource (g : Grant) (expires : Int) (source : Source) : Int :=
  if source.id == g.sourceId then earliest expires source.authorizedUntil else expires

def leaseExpiry (s : State) (g : Grant) (now : Int) : Int :=
  s.sources.foldl (untilSource g)
    (earliest (earliest (now + 300) g.providerExpiresAt) g.custodyExpiresAt)

def bindingFor (a : Attachment) (previous : Option Binding) (g : Grant) : Binding :=
  { id := a.id, application := a.application, sessionId := a.sessionId,
    nativeRef := a.nativeRef, accountId := g.accountId, grantId := g.id,
    grantGeneration := g.generation, routeGeneration := nextRoute previous g }

def leaseFor (s : State) (a : Attachment) (demand : Demand) (g : Grant) : Lease :=
  { id := a.handle, bindingId := a.id, nativeRef := a.nativeRef, accountId := g.accountId,
    grantId := g.id, grantGeneration := g.generation,
    routeGeneration := nextRoute (s.binding a.id) g, purpose := demand.purpose,
    audience := demand.audience, scopes := demand.scopes, resource := some demand.resource,
    required := demand.required, browserContext := demand.allowBrowserBound,
    startedAt := demand.now, expiresAt := s.leaseExpiry g demand.now }

/-- Only a new or a moving session is bound. -/
def rebind (s : State) (a : Attachment) (selected : Selection) (g : Grant) : Result State :=
  if (s.binding a.id).isNone || !selected.sticky then
    (s.bind (bindingFor a (s.binding a.id) g)).map Prod.fst
  else .ok s

def acquire (s : State) (a : Attachment) (demand : Demand) : Result (State × Lease) := do
  let selected <- s.select demand ((s.binding a.id).map (fun _ => a.id))
  let g <- orFail (s.grant selected.grantId) .notFound
  let bound <- s.rebind a selected g
  bound.beginLease (s.leaseFor a demand g) demand.now

def inFlightOn (previous : Option Binding) : Nat :=
  previous.elim 0 Binding.inFlight

end State

/-- The session's binding on the grant; `previous` is the one it had. -/
def Binding.Attached (b : Binding) (a : Attachment) (previous : Option Binding) (g : Grant)
    (inFlight : Nat) : Prop :=
  exists lastUsedRevision,
    b = { State.bindingFor a previous g with inFlight, lastUsedRevision }

namespace State

/-- The state after the lease: it holds the lease, and one more is in flight on the session's
binding to the grant. -/
structure Leased (s : State) (a : Attachment) (demand : Demand) (g : Grant) (next : State)
    (lease : Lease) : Prop where
  frame : next = { s with
    leases := s.leases ++ [lease], bindings := next.bindings, revision := next.revision }
  derived : lease = s.leaseFor a demand g
  bound : exists b, next.binding a.id = some b ∧
    b.Attached a (s.binding a.id) g (inFlightOn (s.binding a.id) + 1)
  others : forall id, id ≠ a.id -> next.binding id = s.binding id

/-- The refusals that a usable selection may meet. -/
inductive Refusal (s : State) (a : Attachment) (selected : Selection) : DomainError -> Prop
  | inFlight {b : Binding} (hb : s.binding a.id = some b) (hmoves : selected.sticky = false)
      (h : b.inFlight ≠ 0) : Refusal s a selected .inFlight
  | exhausted {b : Binding} (hb : s.binding a.id = some b)
      (hmoves : selected.sticky = false) (h : maxU64 <= b.routeGeneration) :
      Refusal s a selected .generationConflict
  | bindingsFull (hb : s.binding a.id = none) (h : maxRecords <= s.bindings.length) :
      Refusal s a selected .tooManyRecords
  | leasesFull (h : maxRecords <= s.leases.length) : Refusal s a selected .tooManyRecords
  | duplicate (h : s.leases.any (fun lease => lease.id == a.handle) = true) :
      Refusal s a selected .duplicateId

/-!
## Expiries
-/

def EndsBy (expires : Int) (expiry : Option Int) : Prop :=
  forall value, expiry = some value -> expires <= value

theorem earliest_le (expires : Int) (expiry : Option Int) :
    earliest expires expiry <= expires ∧ EndsBy (earliest expires expiry) expiry := by
  cases expiry with
  | none => exact ⟨Int.le_refl _, nofun⟩
  | some =>
    refine ⟨Int.min_le_left _ _, fun _ h => ?_⟩
    cases h
    exact Int.min_le_right _ _

theorem lt_earliest {now expires : Int} {expiry : Option Int} (hnow : now < expires)
    (h : unexpired expiry now = true) : now < earliest expires expiry := by
  cases expiry with
  | none => exact hnow
  | some => exact Int.lt_min.mpr ⟨hnow, of_decide_eq_true h⟩

theorem unexpired_of_endsBy {expires : Int} {expiry : Option Int}
    (h : EndsBy expires expiry) : unexpired expiry (expires - 1) = true := by
  cases expiry with
  | none => rfl
  | some value => exact decide_eq_true (Int.sub_one_lt_of_le (h value rfl))

theorem EndsBy.trans {expires other : Int} {expiry : Option Int} (h : EndsBy expires expiry)
    (hle : other <= expires) : EndsBy other expiry :=
  fun value hvalue => Int.le_trans hle (h value hvalue)

theorem foldl_untilSource {g : Grant} {now : Int} (sources : List Source) {expires : Int}
    (hnow : now < expires)
    (hsrcs : forall source, source ∈ sources -> source.id = g.sourceId ->
      unexpired source.authorizedUntil now = true) :
    now < sources.foldl (untilSource g) expires ∧
      sources.foldl (untilSource g) expires <= expires ∧
      forall source, source ∈ sources -> source.id = g.sourceId ->
        EndsBy (sources.foldl (untilSource g) expires) source.authorizedUntil := by
  induction sources generalizing expires with
  | nil => exact ⟨hnow, Int.le_refl _, nofun⟩
  | cons first _ ih =>
    have hfirst : now < untilSource g expires first ∧ untilSource g expires first <= expires ∧
        (first.id = g.sourceId -> EndsBy (untilSource g expires first) first.authorizedUntil) := by
      by_cases hid : first.id = g.sourceId
      · rw [untilSource, if_pos (beq_iff_eq.mpr hid)]
        exact ⟨lt_earliest hnow (hsrcs first List.mem_cons_self hid),
          (earliest_le _ _).1, fun _ => (earliest_le _ _).2⟩
      · rw [untilSource, if_neg (by simpa using hid)]
        exact ⟨hnow, Int.le_refl _, fun h => (hid h).elim⟩
    rcases ih hfirst.1 (fun source h => hsrcs source (List.mem_cons_of_mem _ h)) with
      ⟨hafter, hle, hends⟩
    refine ⟨hafter, Int.le_trans hle hfirst.2.1, ?_⟩
    intro source hsource hid
    rcases List.mem_cons.mp hsource with hsame | hrest
    · rw [hsame] at hid ⊢
      exact (hfirst.2.2 hid).trans hle
    · exact hends source hrest hid

theorem leaseExpiry_spec {s : State} {g : Grant} {now : Int}
    (hprov : unexpired g.providerExpiresAt now = true)
    (hcust : unexpired g.custodyExpiresAt now = true)
    (hsrcs : forall source, source ∈ s.sources -> source.id = g.sourceId ->
      unexpired source.authorizedUntil now = true) :
    (now < s.leaseExpiry g now ∧ s.leaseExpiry g now <= now + 300) ∧
      EndsBy (s.leaseExpiry g now) g.providerExpiresAt ∧
      EndsBy (s.leaseExpiry g now) g.custodyExpiresAt ∧
      forall source, source ∈ s.sources -> source.id = g.sourceId ->
        EndsBy (s.leaseExpiry g now) source.authorizedUntil := by
  have hfirst := earliest_le (now + 300) g.providerExpiresAt
  have hsecond := earliest_le (earliest (now + 300) g.providerExpiresAt) g.custodyExpiresAt
  have hnow : now < earliest (earliest (now + 300) g.providerExpiresAt) g.custodyExpiresAt :=
    lt_earliest (lt_earliest (by omega) hprov) hcust
  rcases foldl_untilSource s.sources hnow hsrcs with ⟨hafter, hle, hends⟩
  have hprovided := Int.le_trans hle hsecond.1
  exact ⟨⟨hafter, Int.le_trans hprovided hfirst.1⟩, hfirst.2.trans hprovided,
    hsecond.2.trans hle, hends⟩

/-!
## Both checks agree
-/

variable {s : State} {a : Attachment} {demand : Demand} {g : Grant}

theorem eligible_inv (h : s.eligible g demand = true) :
    exists owner source, s.account g.accountId = some owner ∧
      s.source g.sourceId = some source ∧ grantAdmits g owner demand = true ∧
      sourceAdmits g owner source demand = true ∧
      s.observations.any (blocks s.observations owner.id demand) = false ∧
      s.capacityAdmits owner demand = true := by
  unfold eligible at h
  cases howner : s.account g.accountId with
  | none => simp [howner] at h
  | some owner =>
    cases hsource : s.source g.sourceId with
    | none => simp [howner, hsource] at h
    | some source =>
      simp only [howner, hsource, bool_iff] at h
      exact ⟨owner, source, rfl, rfl, h.1, h.2.1.1, h.2.1.2, h.2.2⟩

theorem eligible_leaseDemand {owner : Account} (h : s.eligible g demand = true)
    (howner : s.account g.accountId = some owner) :
    s.eligible g (leaseDemand owner g (s.leaseFor a demand g) demand.resource demand.now) =
      true := by
  rcases eligible_inv h with ⟨_, _, hfound, hsource, hgrant, hadmits, hfree, hroom⟩
  rw [howner] at hfound
  cases hfound
  unfold eligible
  simp only [howner, hsource, bool_iff]
  refine ⟨?_, ⟨?_, hfree⟩, ?_⟩
  · simp only [grantAdmits, leaseDemand, leaseFor, bool_iff] at hgrant ⊢
    simp [hgrant]
  · simp only [sourceAdmits, leaseDemand, Bool.and_eq_true] at hadmits ⊢
    rcases hadmits with ⟨⟨⟨⟨⟨⟨⟨⟨hconn, hstart⟩, huntil⟩, _⟩, hrefresh⟩, hbrowser⟩,
      hdetached⟩, _⟩, hscopes⟩
    exact ⟨⟨⟨⟨⟨⟨⟨⟨hconn, hstart⟩, huntil⟩, by simp⟩, hrefresh⟩, hbrowser⟩, hdetached⟩,
      by simp⟩, hscopes⟩
  · have hnewest : newestFor s.observations owner.id
        (leaseDemand owner g (s.leaseFor a demand g) demand.resource demand.now) =
          newestFor s.observations owner.id demand := rfl
    unfold capacityAdmits at hroom ⊢
    rw [hnewest]
    generalize newestFor s.observations owner.id demand = newest at hroom ⊢
    cases newest with
    | none => rfl
    | some observation =>
      cases hstatus : observation.status with
      | unavailable => simp only [hstatus, Bool.false_eq_true] at hroom
      | unknown =>
        simp only [hstatus]
        rfl
      | ready =>
        simp only [hstatus] at hroom ⊢
        exact hroom

theorem validate_of_requireId {value : Bytes} (h : requireId value = .ok ()) :
    validate value = .ok () := by
  simp only [requireId, validId, ok_iff, bool_iff] at h
  exact failIf_eq_ok.mpr (by rw [h.2]; rfl)

theorem grant_ids (h : validateGrant g = .ok ()) :
    validate g.id = .ok () ∧ validate g.accountId = .ok () := by
  simp only [validateGrant, ok_iff] at h
  rcases h with ⟨_, _, _, hid, _, hacct, _⟩
  exact ⟨validate_of_requireId hid, validate_of_requireId hacct⟩

theorem validate_leaseFor (hg : validateGrant g = .ok ())
    (hdemand : validate demand = .ok ()) : validate (s.leaseFor a demand g) = .ok () := by
  have hids := grant_ids hg
  have hparts : (do
      validate demand.provider
      validate demand.issuer
      validate demand.audience
      validate demand.scopes
      validate demand.resource
      validate demand.allowedAccountIds) = (.ok () : Result Unit) := hdemand
  simp only [ok_iff] at hparts
  rcases hparts with ⟨_, _, _, _, _, haud, _, hscopes, _, hres, _⟩
  change (do
    validate a.handle
    validate a.id
    validate a.nativeRef
    validate g.accountId
    validate g.id
    validate demand.audience
    validate demand.scopes
    validate demand.resource) = (.ok () : Result Unit)
  rw [validate_of_requireId a.handleOk, validate_of_requireId a.idOk, a.refOk, hids.1, hids.2,
    haud, hscopes, hres]
  rfl

theorem validate_bindingFor (hg : validateGrant g = .ok ()) (previous : Option Binding) :
    validate (bindingFor a previous g) = .ok () := by
  have hids := grant_ids hg
  change (do
    validate a.id
    validate a.application
    validate a.sessionId
    validate a.nativeRef
    validate g.accountId
    validate g.id) = (.ok () : Result Unit)
  rw [validate_of_requireId a.idOk, validate_of_requireId a.applicationOk,
    validate_of_requireId a.sessionOk, a.refOk, hids.1, hids.2]
  rfl

/-- The state in which the lease begins: the session's binding is on the lease's route. -/
def Bound (s : State) (a : Attachment) (g : Grant) (bound : State) : Prop :=
  exists bindings revision i b, bound = { s with bindings, revision } ∧
    recordEntry Binding.id bindings a.id = some (i, b) ∧
    b.Attached a (s.binding a.id) g (inFlightOn (s.binding a.id)) ∧
    forall id, id ≠ a.id -> recordAt Binding.id bindings id = s.binding id

theorem attached_bindingFor (previous : Option Binding) :
    (bindingFor a previous g).Attached a previous g 0 :=
  ⟨_, rfl⟩

theorem leaseFollows_attached {b : Binding} {inFlight : Nat}
    (h : b.Attached a (s.binding a.id) g inFlight) :
    leaseFollows b (s.leaseFor a demand g) = true := by
  rcases h with ⟨_, rfl⟩
  simp [leaseFollows, bindingFor, leaseFor]

theorem bind_new (hwf : WellFormed s) (hg : g ∈ s.grants) (hentry : s.bindingEntry a.id = none) :
    match s.bind (bindingFor a (s.binding a.id) g) with
    | .error err => err = .tooManyRecords ∧ maxRecords <= s.bindings.length
    | .ok bound => s.Bound a g bound.1 := by
  have hvalid := validate_bindingFor (a := a) (hwf.grants.each g hg).valid (s.binding a.id)
  have hgrant : s.grant g.id = some g := recordAt_of_mem hwf.grants.distinct hg rfl
  have hbinding : s.binding a.id = none := by exact Option.map_eq_none_iff.mpr hentry
  have hbind : s.bind (bindingFor a (s.binding a.id) g) =
      (appendOwned s.bindings (bindingFor a (s.binding a.id) g)).bind (fun bindings =>
        .ok ({ s with bindings }.changed, bindingFor a (s.binding a.id) g)) := by
    unfold bind
    rw [hvalid]
    simp only [bindingFor, a.refOk, a.idOk, a.applicationOk, a.sessionOk, hgrant, hentry,
      orFail_some, bind_ok, hbinding, bne_self_eq_false]
    rfl
  rw [hbind]
  by_cases hfull : maxRecords <= s.bindings.length
  · rw [appendOwned, decide_eq_true hfull]
    exact ⟨rfl, hfull⟩
  · rw [appendOwned_eq_ok.mpr ⟨not_le.mp hfull, hvalid, rfl⟩]
    refine ⟨_, _, s.bindings.length, bindingFor a (s.binding a.id) g, rfl, ?_, ?_, ?_⟩
    · exact firstEntry_append_of_none (firstEntry_eq_none.mp hentry) (by simp [bindingFor])
    · rw [hbinding]
      exact attached_bindingFor _
    · intro id hid
      have hother : (bindingFor a (s.binding a.id) g).id ≠ id := Ne.symm hid
      rw [recordAt_concat, if_neg hother, Option.or_none]
      rfl

theorem bind_moved (hwf : WellFormed s) (hg : g ∈ s.grants)
    (hown : a.Owns s) {i : Nat} {old : Binding} (hentry : s.bindingEntry a.id = some (i, old)) :
    match s.bind (bindingFor a (s.binding a.id) g) with
    | .error err => (err = .inFlight ∧ old.inFlight ≠ 0) ∨
        (err = .generationConflict ∧ maxU64 <= old.routeGeneration)
    | .ok bound => s.Bound a g bound.1 := by
  have hvalid := validate_bindingFor (a := a) (hwf.grants.each g hg).valid (s.binding a.id)
  have hgrant : s.grant g.id = some g := recordAt_of_mem hwf.grants.distinct hg rfl
  have hbinding : s.binding a.id = some old := by exact Option.map_eq_some_iff.mpr ⟨_, hentry, rfl⟩
  rcases hown old hbinding with ⟨happ, hsession, href⟩
  have hrouted := (hwf.bindings.each old (recordEntry_mem hentry)).routed
  have hroute : nextRoute (some old) g ≠ 0 := by
    rw [nextRoute]
    omega
  have hbind : s.bind (bindingFor a (some old) g) =
      (failIf (old.inFlight != 0) DomainError.inFlight).bind (fun _ =>
        (failIf (decide (maxU64 < nextRoute (some old) g)) .generationConflict).bind (fun _ =>
          (replaceOwned s.bindings i (bindingFor a (some old) g)).bind (fun bindings =>
            .ok ({ s with bindings }.changed, bindingFor a (some old) g)))) := by
    have hwritten := hbinding ▸ hvalid
    have href' : Native.sameNativeRef a.nativeRef a.nativeRef = true := by simp
    unfold bind
    rw [hwritten]
    simp only [bindingFor, a.refOk, a.idOk, a.applicationOk, a.sessionOk, hgrant, hentry, bind_ok,
      orFail_some, happ, hsession, href, href', beq_false_of_ne hroute, bne_self_eq_false]
    change (failIf (old.inFlight != 0) DomainError.inFlight).bind (fun _ =>
      (failIf (decide (maxU64 < nextRoute (some old) g) ||
        nextRoute (some old) g != nextRoute (some old) g) .generationConflict).bind _) = _
    rw [bne_self_eq_false, Bool.or_false]
    rfl
  rw [hbinding, hbind]
  by_cases hflight : old.inFlight = 0
  · by_cases hlast : maxU64 < nextRoute (some old) g
    · rw [hflight, decide_eq_true hlast]
      refine Or.inr ⟨rfl, ?_⟩
      rw [nextRoute] at hlast
      split at hlast <;> omega
    · rw [hflight, decide_eq_false hlast, replaceOwned_eq_ok.mpr ⟨hbinding ▸ hvalid, rfl⟩]
      refine ⟨_, _, i, bindingFor a (some old) g, rfl, ?_, ?_, ?_⟩
      · rcases firstEntry_split hentry with ⟨before, _, hsplit, rfl, _, hbefore⟩
        rw [hsplit, set_at_split]
        exact firstEntry_append_of_none hbefore (by simp [bindingFor])
      · rw [hbinding, inFlightOn, Option.elim, hflight]
        exact attached_bindingFor _
      · intro id hid
        rw [recordAt_set hentry rfl, if_neg hid]
        rfl
  · rw [bne_iff_ne.mpr hflight]
    exact Or.inl ⟨rfl, hflight⟩

theorem leaseFor_authority {owner : Account} {source : Source}
    (hgrant : grantAdmits g owner demand = true)
    (hadmits : sourceAdmits g owner source demand = true)
    (hscopes : validateScopes demand.scopes = .ok ())
    (hres : validateResource demand.resource = .ok ())
    (hreq : validRequired demand.required = true) :
    validateLeaseAuthority (s.leaseFor a demand g) g = .ok () ∧
      (!(s.leaseFor a demand g).audience.isEmpty &&
        (s.leaseFor a demand g).audience != g.audience) = false ∧
      (!(s.leaseFor a demand g).scopes.all g.scopes.contains) = false := by
  simp only [grantAdmits, sourceAdmits, Bool.and_eq_true, beq_iff_eq] at hgrant hadmits
  rcases hgrant with ⟨⟨⟨⟨_, haud⟩, hpurpose⟩, _⟩, _⟩
  rcases hadmits with ⟨⟨⟨⟨⟨_, hrefresh⟩, hbrowser⟩, _⟩, _⟩, hcovered⟩
  have haud' : (!List.isEmpty demand.audience && demand.audience != g.audience) = false := by
    simp [haud]
  have hcovered' : (!demand.scopes.all g.scopes.contains) = false := by
    rw [hcovered]
    rfl
  refine ⟨?_, haud', hcovered'⟩
  have hkind : ((g.credentialKind == .browserBound && !demand.allowBrowserBound) ||
      g.credentialKind == .oauthRefresh || !hasPurpose g demand.purpose ||
      (!List.isEmpty demand.audience && demand.audience != g.audience)) = false := by
    simp only [Bool.not_eq_true', Bool.and_eq_false_iff, Bool.or_eq_false_iff] at hbrowser
    rw [haud', hpurpose]
    simp only [bool_iff] at hrefresh
    simp only [Bool.not_true, Bool.or_false, Bool.or_eq_false_iff, Bool.and_eq_false_iff,
      beq_eq_false_iff_ne]
    exact ⟨hbrowser.imp (by simp) (fun h => h.1), hrefresh⟩
  simp [validateLeaseAuthority, leaseFor, hscopes, hreq, hkind, hcovered',
    validateOptionalResource, hres, bind_ok]

theorem leaseExpiry_of_eligible (hwf : WellFormed s) (h : s.eligible g demand = true) :
    (demand.now < s.leaseExpiry g demand.now ∧ s.leaseExpiry g demand.now <= demand.now + 300) ∧
      EndsBy (s.leaseExpiry g demand.now) g.providerExpiresAt ∧
      EndsBy (s.leaseExpiry g demand.now) g.custodyExpiresAt ∧
      forall source, s.source g.sourceId = some source ->
        EndsBy (s.leaseExpiry g demand.now) source.authorizedUntil := by
  rcases eligible_inv h with ⟨_, source, _, hsource, hgrant, hadmits, _⟩
  rcases recordAt_eq_some hsource with ⟨hmem, hid⟩
  simp only [grantAdmits, sourceAdmits, bool_iff] at hgrant hadmits
  rcases hgrant with ⟨⟨_, hprov⟩, hcust⟩
  rcases hadmits with ⟨⟨⟨⟨⟨⟨⟨_, huntil⟩, _⟩, _⟩, _⟩, _⟩, _⟩, _⟩
  have hsrcs : forall other, other ∈ s.sources -> other.id = g.sourceId ->
      unexpired other.authorizedUntil demand.now = true := by
    intro other hother hsame
    rw [List.inj_on_of_nodup_map hwf.sources.distinct hother hmem (hsame.trans hid.symm)]
    exact huntil
  rcases leaseExpiry_spec hprov hcust hsrcs with ⟨hinterval, hends, hcustodyEnds, hall⟩
  refine ⟨hinterval, hends, hcustodyEnds, ?_⟩
  intro found hfound
  rcases recordAt_eq_some hfound with ⟨hfoundMem, hfoundId⟩
  exact hall found hfoundMem hfoundId

theorem beginLease_bound (hwf : WellFormed s) (hg : g ∈ s.grants)
    (helig : s.eligible g demand = true)
    (hdemand : validate demand = .ok () ∧ validateScopes demand.scopes = .ok () ∧
      validateResource demand.resource = .ok () ∧ validRequired demand.required = true)
    {bound : State} (hbound : s.Bound a g bound) :
    match bound.beginLease (s.leaseFor a demand g) demand.now with
    | .error err =>
      (err = .duplicateId ∧ s.leases.any (fun lease => lease.id == a.handle) = true) ∨
        (err = .tooManyRecords ∧ maxRecords <= s.leases.length)
    | .ok (next, lease) => Leased s a demand g next lease := by
  rcases hbound with ⟨bindings, _, i, b, hbound, hentry, hattached, hothers⟩
  have hfol : leaseFollows b (s.leaseFor a demand g) = true := leaseFollows_attached hattached
  rcases eligible_inv helig with ⟨owner, source, howner, hsource, hgrant, hadmits, _⟩
  rcases leaseExpiry_of_eligible hwf helig with ⟨⟨hafter, _⟩, hends, hcust, huntil⟩
  rcases leaseFor_authority (s := s) (a := a) hgrant hadmits hdemand.2.1 hdemand.2.2.1
    hdemand.2.2.2 with ⟨hauth, haud, hscopes⟩
  have hleased := eligible_leaseDemand (a := a) helig howner
  have hvalid := validate_leaseFor (s := s) (a := a) (hwf.grants.each g hg).valid hdemand.1
  have hstored : s.grant g.id = some g := recordAt_of_mem hwf.grants.distinct hg rfl
  set lease := s.leaseFor a demand g with hlease
  have hinterval : (decide (demand.now < lease.startedAt) ||
      decide (lease.expiresAt <= demand.now) || !leaseInterval lease) = false := by
    have hshort : s.leaseExpiry g demand.now - demand.now <= 3600 := by omega
    simp [hlease, leaseFor, leaseInterval, hafter, hshort]
  have hsourceOk : leaseSourceAdmits g source lease demand.now = true := by
    simp only [leaseSourceAdmits, sourceAdmits, bool_iff] at hadmits ⊢
    rcases hadmits with ⟨⟨⟨⟨⟨⟨⟨⟨hstatus, hstart⟩, _⟩, _⟩, _⟩, hbrowser⟩, _⟩, _⟩, _⟩
    refine ⟨⟨⟨hstatus, hstart⟩, unexpired_of_endsBy (huntil source hsource)⟩, ?_⟩
    simp only [bool_iff, Bool.and_eq_false_iff] at hbrowser ⊢
    exact hbrowser.imp id (fun h => h.2)
  have hready : leaseGrantReady owner g lease demand.now = true := by
    simp only [leaseGrantReady, grantAdmits, hlease, leaseFor, bool_iff] at hgrant ⊢
    rcases hgrant with ⟨⟨⟨⟨⟨⟨⟨hactive, _⟩, _⟩, hstatus⟩, _⟩, hpurpose⟩, hprovided⟩, hkept⟩
    exact ⟨⟨⟨⟨⟨hactive, hstatus⟩, trivial⟩, hpurpose⟩, hprovided⟩, hkept⟩
  have hcap : bound.leaseCapacity owner g lease demand.now = .ok () := by
    rw [hbound]
    change (validateResource demand.resource).bind (fun _ => failIf (!s.eligible g
      (leaseDemand owner g lease demand.resource demand.now)) _) = _
    rw [hdemand.2.2.1, hleased]
    rfl
  have hissued : issuedLease g lease = lease := by
    simp only [grantAdmits, bool_iff] at hgrant
    simp [issuedLease, hlease, leaseFor, hgrant.1.1.1.2]
  have hbegin : bound.beginLease lease demand.now =
      (failIf (s.leases.any (fun lease => lease.id == a.handle)) DomainError.duplicateId).bind
        (fun _ => (appendOwned s.leases lease).bind (fun leases => .ok ({ bound with
          leases := leases
          bindings := bindings.set i { b with inFlight := b.inFlight + 1 } }.changed, lease))) := by
    have href : validate lease.nativeRef = .ok () := a.refOk
    have hhandle : requireId lease.id = .ok () := a.handleOk
    have hends' : unexpired g.providerExpiresAt (lease.expiresAt - 1) = true :=
      unexpired_of_endsBy hends
    have hcust' : unexpired g.custodyExpiresAt (lease.expiresAt - 1) = true :=
      unexpired_of_endsBy hcust
    have hentry' : bound.bindingEntry lease.bindingId = some (i, b) := hbound ▸ hentry
    have howner' : bound.account lease.accountId = some owner := hbound ▸ howner
    have hstored' : bound.grant lease.grantId = some g := hbound ▸ hstored
    have hsource' : bound.source g.sourceId = some source := hbound ▸ hsource
    unfold beginLease
    simp only [hvalid, href, hhandle, hinterval, hentry', hfol, howner', hstored', hauth,
      hsource', hsourceOk, hready, hends', hcust', haud, hscopes, hcap, hissued,
      bind_ok, orFail_some]
    rw [hbound]
    rfl
  rw [hbegin]
  by_cases hduplicate : s.leases.any (fun lease => lease.id == a.handle) = true
  · simp only [hduplicate]
    exact Or.inl ⟨rfl, trivial⟩
  · rw [Bool.eq_false_of_not_eq_true hduplicate]
    by_cases hfull : maxRecords <= s.leases.length
    · rw [appendOwned, decide_eq_true hfull]
      exact Or.inr ⟨rfl, hfull⟩
    · rw [appendOwned_eq_ok.mpr ⟨not_le.mp hfull, hvalid, rfl⟩]
      have hid : b.id = a.id := (recordEntry_eq_some hentry).right
      have hset : forall other, recordAt Binding.id
          (bindings.set i { b with inFlight := b.inFlight + 1 }) other =
            if other = a.id then some { b with inFlight := b.inFlight + 1 }
            else recordAt Binding.id bindings other :=
        fun _ => recordAt_set hentry hid
      refine ⟨by rw [hbound]; rfl, rfl, ⟨_, (hset _).trans (if_pos rfl), ?_⟩, ?_⟩
      · rcases hattached with ⟨used, rfl⟩
        exact ⟨used, rfl⟩
      · intro other hother
        exact (hset _).trans ((if_neg hother).trans (hothers other hother))

theorem rebind_bound {selected : Selection} (hwf : WellFormed s)
    (hg : g ∈ s.grants) (hown : a.Owns s)
    (hsticky : selected.sticky = true -> exists b, s.binding a.id = some b ∧
      b.grantId = g.id ∧ b.grantGeneration = g.generation) :
    match s.rebind a selected g with
    | .error err => Refusal s a selected err
    | .ok bound => s.Bound a g bound := by
  unfold rebind
  cases hentry : s.bindingEntry a.id with
  | none =>
    have hbinding : s.binding a.id = none := Option.map_eq_none_iff.mpr hentry
    have hbind := bind_new hwf hg hentry
    rw [if_pos (by simp [hbinding])]
    revert hbind
    cases s.bind (bindingFor a (s.binding a.id) g) with
    | error =>
      rintro ⟨rfl, hfull⟩
      exact .bindingsFull hbinding hfull
    | ok => exact id
  | some entry =>
    rcases entry with ⟨i, old⟩
    have hbinding : s.binding a.id = some old := Option.map_eq_some_iff.mpr ⟨_, hentry, rfl⟩
    cases hmoves : selected.sticky with
    | false =>
      have hbind := bind_moved hwf hg hown hentry
      rw [if_pos (by simp)]
      revert hbind
      cases s.bind (bindingFor a (s.binding a.id) g) with
      | error =>
        rintro (⟨rfl, hflight⟩ | ⟨rfl, hlast⟩)
        · exact .inFlight hbinding hmoves hflight
        · exact .exhausted hbinding hmoves hlast
      | ok => exact id
    | true =>
      rcases hsticky hmoves with ⟨b, hb, hgrant, hgen⟩
      rw [hbinding] at hb
      cases hb
      rw [if_neg (by simp [hbinding])]
      refine ⟨s.bindings, s.revision, i, old, rfl, hentry, ?_, fun _ _ => rfl⟩
      rcases (hwf.bindings.each old (recordEntry_mem hentry)).granted with
        ⟨granted, hmem, hid, hacct, _⟩
      have hsame : granted = g :=
        List.inj_on_of_nodup_map hwf.grants.distinct hmem hg (hid.trans hgrant)
      rw [hsame] at hacct
      rcases hown old hbinding with ⟨happ, hsession, href⟩
      have hroute : nextRoute (some old) g = old.routeGeneration := by
        simp [nextRoute, hgrant, hgen]
      refine ⟨old.lastUsedRevision, ?_⟩
      rw [hbinding, bindingFor, hroute, <- happ, <- hsession, <- href, hacct, <- hgrant,
        <- hgen, <- (recordEntry_eq_some hentry).right]
      rfl

/-- Whatever is selected can be leased, for no longer than its authorities hold; only a
busy or exhausted binding, a full list or a used handle stands in the way. -/
theorem selection_is_usable (s : State) (a : Attachment) (demand : Demand)
    (selected : Selection) (hs : s.Reachable) (hown : a.Owns s)
    (hselect : s.select demand ((s.binding a.id).map (fun _ => a.id)) = .ok selected) :
    exists g, s.grant selected.grantId = some g ∧
      match s.acquire a demand with
      | .error err => Refusal s a selected err
      | .ok (next, lease) => Leased s a demand g next lease ∧
          EndsBy lease.expiresAt g.providerExpiresAt ∧
          EndsBy lease.expiresAt g.custodyExpiresAt ∧
          forall source, s.source g.sourceId = some source ->
            EndsBy lease.expiresAt source.authorizedUntil := by
  have hwf := wellFormed_of_reachable hs
  rcases select_inv hselect with ⟨hdemand, g, hg, helig, hsel, hroute⟩
  have hstored : s.grant g.id = some g := recordAt_of_mem hwf.grants.distinct hg rfl
  have hgrant : s.grant selected.grantId = some g := by
    rw [hsel]
    exact hstored
  have hsticky : selected.sticky = true -> exists b, s.binding a.id = some b ∧
      b.grantId = g.id ∧ b.grantGeneration = g.generation := by
    intro h
    rcases hroute h with ⟨id, b, hid, hb, hrest⟩
    rcases Option.map_eq_some_iff.mp hid with ⟨_, _, rfl⟩
    exact ⟨b, hb, hrest⟩
  refine ⟨g, hgrant, ?_⟩
  have hbound := rebind_bound hwf hg hown hsticky
  simp only [acquire, hselect, bind_ok, hgrant, orFail_some]
  revert hbound
  cases s.rebind a selected g with
  | error => exact id
  | ok bound =>
    intro hbound
    have hlease := beginLease_bound hwf hg helig hdemand hbound
    revert hlease
    rw [bind_ok]
    cases bound.beginLease (s.leaseFor a demand g) demand.now with
    | error =>
      rintro (⟨rfl, hduplicate⟩ | ⟨rfl, hfull⟩)
      · exact .duplicate hduplicate
      · exact .leasesFull hfull
    | ok =>
      intro hlease
      refine ⟨hlease, ?_⟩
      rw [hlease.derived]
      exact (leaseExpiry_of_eligible hwf helig).2

def freshSession : Attachment :=
  { id := [98], application := [99], sessionId := [100], nativeRef := none, handle := [104]
    idOk := rfl, applicationOk := rfl, sessionOk := rfl, refOk := rfl, handleOk := rfl }

theorem freshSession_is_leased :
    exists g next lease, (run step State.init grantedRun).grant [103] = some g ∧
      (run step State.init grantedRun).acquire freshSession bucketDemand = .ok (next, lease) ∧
      Leased (run step State.init grantedRun) freshSession bucketDemand g next lease := by
  have hfresh : (run step State.init grantedRun).binding freshSession.id = none := by decide +kernel
  have hacquired : Succeeds
      ((run step State.init grantedRun).acquire freshSession bucketDemand) := by
    decide +kernel
  rcases hacquired with ⟨⟨next, lease⟩, hacquired⟩
  rcases selection_is_usable _ freshSession bucketDemand
    { accountId := [97], grantId := [103], generation := 1 } ⟨grantedRun, rfl⟩
    (fun b hb => by simp [hfresh] at hb) (by decide +kernel) with ⟨g, hg, hlease⟩
  rw [hacquired] at hlease
  exact ⟨g, next, lease, hg, hacquired, hlease.left⟩

end State

end Omux.Domain
