import Omux.Engine.Inversion
import Omux.Observer.CapacityGrowth

/-!
# Growth of imports

The plan of an import is made when its read is queued and holds when the read
completes.  The texts of the new records are those of the request, those that an
accepted answer can have, and drawn identifiers.
-/

namespace Omux.Engine

open Library Memory
open Admission (Counts)
open Domain
open FloatFormat (digits)
open Observer (Completion)
open Storage (Tables GrantPut)
open Transport (Decoder Response)

/-!
## What a provider proves
-/

structure Proof.Accepted (name : Bytes) (proof : Proof) : Prop where
  issuer : proof.issuer = providerIssuer name
  subject : Plain (if name == codexName then 256 else 20) proof.subject
  tenant : Plain (if name == codexName then 256 else 0) proof.tenant
  kind : Plain (if name == codexName then 64 else 128) proof.kind

theorem githubProof_accepted {identity : Transport.GitHubIdentity}
    (h : Transport.validateGitHubIdentity identity = .ok ()) :
    (githubProof identity).Accepted githubName := by
  simp only [Transport.validateGitHubIdentity, ok_iff, bool_iff, not_lt] at h
  rcases h with ⟨_, ⟨_, hlength⟩, _, _, htype⟩
  have hnumber : identity.id.toNat < 10 ^ 20 :=
    Nat.lt_trans identity.id.toNat_lt (by decide)
  constructor
  · rfl
  · exact plain_decimal (by decide) hnumber
  · exact ⟨rfl, le_rfl⟩
  · exact ⟨all_isPlain (by decide +kernel) htype, hlength⟩

theorem codexProof_accepted {identity : Transport.CodexIdentity}
    (h : Transport.validateCodexIdentity identity = .ok ()) :
    (codexProof identity).Accepted codexName := by
  simp only [Transport.validateCodexIdentity, ok_iff, bool_iff, not_lt] at h
  rcases h with ⟨_, ⟨⟨⟨hacct, huser⟩, _⟩, hlength⟩, hplan⟩
  constructor
  · rfl
  · exact Observer.plain_providerId huser
  · exact Observer.plain_providerId hacct
  · exact ⟨all_isPlain (by decide +kernel) hplan, hlength⟩

variable {pending : PendingImport} {now : Int} {proof : Proof} {s next : State}
  {response : Response} {grantId : Bytes} {platform : Platform}

theorem identityProof_accepted {decoder : Decoder}
    (hprov : pending.provider = codexName ∨ pending.provider = githubName)
    (h : identityProof decoder pending response = .ok proof) : proof.Accepted pending.provider := by
  unfold identityProof at h
  split at h
  · rename_i hgithub
    simp only [ok_iff, mapError_eq_ok] at h
    rcases h with ⟨identity, hident, hproof⟩
    rw [eq_of_beq hgithub, <- hproof]
    exact githubProof_accepted (response.accepted_eq_ok hident)
  · rename_i hother
    simp only [ok_iff, mapError_eq_ok] at h
    rcases h with ⟨identity, hident, _, _, hproof⟩
    rcases hprov with hcodex | hgithub
    · rw [hcodex, <- hproof]
      exact codexProof_accepted (response.accepted_eq_ok hident)
    · rw [hgithub] at hother
      exact absurd rfl hother

theorem handle_plain (handle : Handle) : Plain 64 handle.bytes :=
  ⟨all_isPlain (by decide +kernel) handle.hex, handle.length_eq.le⟩

theorem importEnrollment_accepted (h : proof.Accepted pending.provider) (handle : Handle) :
    (importEnrollment pending proof handle.bytes).Accepted pending.provider pending.sourceId
      pending.label where
  accountId := handle_plain handle
  identity := ⟨rfl, h.issuer, h.subject, h.tenant, rfl⟩
  source := rfl
  label := rfl
  accountType := h.kind

/-!
## Reads that were queued
-/

/-- What the checks of `queueImportMode` leave on a read. -/
structure PendingImport.Checked (pending : PendingImport) : Prop where
  provider : pending.provider = codexName ∨ pending.provider = githubName
  kind : pending.credentialKind = .oauthAccess ∨ pending.credentialKind = .apiKey

theorem checked_of_checkImport {request : ImportRequest} (h : checkImport request now = .ok ()) :
    (request.provider = codexName ∨ request.provider = githubName) ∧
      (request.credentialKind = .oauthAccess ∨ request.credentialKind = .apiKey) := by
  simp only [checkImport, ok_iff, Bool.and_eq_false_iff, bool_iff] at h
  rcases h with ⟨_, hprov, _, hkind, _⟩
  exact ⟨hprov.symm, hkind⟩

/-!
## Completions
-/

theorem permitted_gains {format : FloatFormat}
    (h : permitted s pending proof now = .ok next) : Gains format s next 0 Counts.zero := by
  unfold permitted at h
  split at h
  · exact permit_gains h
  · rw [<- Except.ok.inj h]
    exact Gains.refl s

theorem wellFormed_permitted (hs : WellFormed s)
    (h : permitted s pending proof now = .ok next) : WellFormed next := by
  unfold permitted at h
  split at h
  · exact State.wellFormed_permitReenrollment hs h
  · rw [<- Except.ok.inj h]
    exact hs

theorem nextGeneration_le {custody : Tables} {key : Storage.GrantKey} {generation : Nat}
    (h : custody.nextGeneration key = .ok generation) : generation <= maxU64 := by
  unfold Tables.nextGeneration at h
  split at h
  · rw [<- Except.ok.inj h]
    decide
  · simp only [ok_iff, bool_iff, not_le] at h
    rcases h with ⟨_, hlt, rfl⟩
    exact hlt.trans (by decide)

theorem importGrant_accepted {accountId : Bytes} {generation : Nat} {out : Grant}
    (hchecked : pending.Checked) (hproof : proof.Accepted pending.provider)
    (hprov : forall time, pending.expiresAt = some time -> TypedTime time)
    (hcust : forall time, pending.custodyExpiresAt = some time -> TypedTime time)
    (hgen : generation <= maxU64)
    (h : s.addGrant (importGrant pending proof accountId grantId generation) = .ok (next, out)) :
    (importGrant pending proof accountId grantId generation).Accepted pending.provider
      pending.sourceId where
  valid := (State.addGrant_inv h).1
  sourceId := rfl
  kind := hchecked.kind
  ownership := rfl
  purposes := rfl
  audience := hproof.issuer
  scopes := rfl
  generation := hgen
  ready := rfl
  providerExpiresAt := hprov
  custodyExpiresAt := hcust

theorem observeImport_gains {observations : OutcomeGrowth} (hfloats : platform.format.Decimal)
    (hs : WellFormed s) (hnow : TypedTime now)
    (hplan : importObservations platform.format pending.provider = .ok observations)
    (h : observeImport platform s pending grantId response now = .ok next) :
    Gains platform.format s next observations.bytes
        (observationCounts observations.observations).counts ∧
      (next.revision = s.revision ∨ next.revision <= maxU64) := by
  have hkept : next = s -> Gains platform.format s next observations.bytes
      (observationCounts observations.observations).counts ∧
        (next.revision = s.revision ∨ next.revision <= maxU64) := by
    intro hnext
    rw [hnext]
    exact ⟨Gains.refl s, .inl rfl⟩
  unfold observeImport at h
  split at h
  · rename_i hcodex
    rw [importObservations, if_pos hcodex, eq_of_beq hcodex] at hplan
    split at h
    · rename_i grant hgrant
      have hin := (recordAt_eq_some hgrant).1
      have htext := (validText_of_validateGrant (hs.grants.each grant hin).valid).2
      have hwidth := @length_codexObservation_mono platform.format _ _ (length_canonical_le htext)
      rcases Observer.observeCodexUsage_gains hfloats (Nat.add_le_add_right hwidth 1) hnow h
        with ⟨hgains, hrev⟩
      rw [observationGrowth_codex hplan]
      exact ⟨hgains.mono (Nat.le_add_left _ _) (fun _ => le_rfl), hrev⟩
    · exact hkept (Except.ok.inj h).symm
  · exact hkept (Except.ok.inj h).symm

theorem wellFormed_observeImport (hs : WellFormed s)
    (h : observeImport platform s pending grantId response now = .ok next) :
    WellFormed next := by
  have hkept : next = s -> WellFormed next := by
    intro hnext
    rw [hnext]
    exact hs
  unfold observeImport at h
  split at h
  · split at h
    · rcases Observer.observeCodexUsage_inv h with hnext | ⟨_, _, _, _, hbatch⟩
      · exact hkept hnext
      · exact State.wellFormed_observeBatch hs hbatch
    · exact hkept (Except.ok.inj h).symm
  · exact hkept (Except.ok.inj h).symm

theorem endJob_changes (pending : PendingImport) (job : Job) :
    endJob pending .completed job = job ∨
      job.id = pending.jobId ∧ job.status = .running ∧
        endJob pending .completed job = { job with status := .completed } := by
  unfold endJob
  split
  · rename_i hruns
    simp only [Memory.PendingImport.runs, bool_iff] at hruns
    exact Or.inr ⟨hruns.1.1, hruns.2, rfl⟩
  · exact Or.inl rfl

theorem finishImport_grows_within {custody : Tables} {m next : Memory} {completion : Completion}
    {identifiers : Identifiers} {times : Times} {put : GrantPut} {plan : OutcomeGrowth}
    (hfloats : platform.format.Decimal) (hs : WellFormed m.state)
    (hnow : TypedTime times.observed) (hchecked : pending.Checked)
    (hprov : forall time, pending.expiresAt = some time -> TypedTime time)
    (hcust : forall time, pending.custodyExpiresAt = some time -> TypedTime time)
    (hplan : importGrowth platform.format pending.provider pending.sourceId pending.label =
      .ok plan) (h : m.finishImport platform custody pending completion identifiers times =
      .ok (next, put)) : GrowsWithin platform.format plan m.state next.state := by
  rcases finishImport_inv h with ⟨_, _, allowed, enrolled, _,
    _, _, _, _, _, observed, _, hproof, hallowed, henrolled,
    _, hgen, _, hgranted, hobserved, hreleased, _⟩
  rcases importGrowth_inv hplan with ⟨_, hobs, _, hcounts⟩
  have hacc := identityProof_accepted hchecked.provider hproof
  have hinput := importEnrollment_accepted hacc identifiers.account
  have hgrant := importGrant_accepted hchecked hacc hprov hcust
    (nextGeneration_le hgen) hgranted
  have hallowedOk := wellFormed_permitted hs hallowed
  have henrolledOk := State.wellFormed_enroll hallowedOk henrolled
  have hgrantedOk := State.wellFormed_addGrant henrolledOk hgranted
  have hfirst := @permitted_gains _ _ _ _ _ platform.format hallowed
  have hsecond : Gains platform.format allowed enrolled
      ((accountShape.json (widestAccount pending.provider pending.sourceId pending.label)).length +
        1 + ((jsonSlice pending.sourceId).length + 1) + ((quarantinedImportShape.json
        (widestQuarantine pending.provider pending.sourceId)).length + 1))
      enrollCounts.counts :=
    enroll_gains
      ((Nat.add_le_add_right (Nat.add_le_add_right
        (length_account_accepted hinput) 1) _).trans (Nat.le_add_right _ _))
      (fun reason => (Nat.add_le_add_right
        (length_quarantine_accepted hinput reason) 1).trans (Nat.le_add_left _ _)) henrolled
  have hthird := (@addGrant_gains platform.format _ _ _ _ hgranted).mono
    (Nat.add_le_add_right (length_grant_accepted hgrant) 1) (fun _ => le_rfl)
  rcases observeImport_gains hfloats hgrantedOk hnow hobs hobserved with
    ⟨hfourth, hrev⟩
  have hobservedOk : WellFormed observed :=
    wellFormed_observeImport hgrantedOk hobserved
  have hfifth := @complete_gains platform.format _ _ hobservedOk pending.jobId
    (endJob_changes pending)
  have hstate : next.state = { observed with
      jobs := observed.jobs.map (endJob pending .completed) } := by
    rw [releaseOutcome_frame hreleased]
    rfl
  have htyped : next.state.revision = m.state.revision ∨ next.state.revision <= maxU64 := by
    have hadded := addGrant_revision hgranted
    rw [hstate]
    rcases hrev with hsame | hle
    · exact Or.inr ((hsame.le).trans hadded)
    · exact Or.inr hle
  rw [hstate] at htyped ⊢
  refine growsWithin_of_gains
    ((((hfirst.trans hsecond).trans hthird).trans hfourth).trans hfifth) htyped ?_ ?_
  · omega
  · intro part
    have hpart := hcounts part
    simp only [Counts.zero]
    omega

/-!
## The plans are sound
-/

/-- A read has passed the checks of its request; every queued one has. -/
theorem provider_completion_plans_sound {platform : Platform}
    (hfloats : platform.format.Decimal) :
    (forall (request : ImportRequest) (earlier : Int)
        (networkId sourceGeneration jobGeneration forgetEpoch : Nat) (custody : Tables)
        (m next : Memory) (completion : Completion) (identifiers : Identifiers) (times : Times)
        (put : GrantPut) (plan : OutcomeGrowth),
      checkImport request earlier = .ok () ->
      (forall time, request.expiresAt = some time -> TypedTime time) ->
      (forall time, request.custodyExpiresAt = some time -> TypedTime time) ->
      TypedTime times.observed -> m.state.Reachable ->
      importGrowth platform.format request.provider request.sourceId request.label = .ok plan ->
      m.finishImport platform custody
        { newPending platform request sourceGeneration jobGeneration forgetEpoch with
          networkId } completion identifiers times = .ok (next, put) ->
      GrowsWithin platform.format plan m.state next.state) ∧
    (forall (self : Observer.Coordinator) (completion : Completion) (i : Nat)
        (pending : Observer.Pending) (s next : State) (now : Int) (found : Bool)
        (plan : OutcomeGrowth),
      self.pendingIndex completion.id = some (i, pending) -> TypedTime now -> s.Reachable ->
      observationGrowth platform.format pending.provider.name pending.accountId = .ok plan ->
      (self.take platform.decoder completion s now).2 = .ok (next, found) ->
      GrowsWithin platform.format plan s next) := by
  constructor
  · intro request earlier networkId sourceGeneration jobGeneration forgetEpoch custody m next
      completion identifiers times put plan hcheck hprov hcust hnow hs hplan hfin
    have hchecked := checked_of_checkImport hcheck
    have hpend : ({ newPending platform request sourceGeneration jobGeneration
        forgetEpoch with networkId := networkId } : PendingImport).Checked :=
      ⟨hchecked.1, hchecked.2⟩
    exact finishImport_grows_within hfloats (State.wellFormed_of_reachable hs) hnow hpend
      hprov hcust hplan hfin
  · intro self completion i pending s next now found plan hpend hnow _ hplan htaken
    exact Observer.take_grows_within hfloats hnow hpend hplan htaken

/-!
### An import and a poll
-/

def octoIdentity : Bytes :=
  ascii "\x7b\"id\":7,\"login\":\"octo\",\"type\":\"User\"\x7d"

def octoLimits : Bytes :=
  ascii ("\x7b\"resources\":\x7b\"core\":\x7b\"limit\":5000,\"remaining\":4321,\"used\":679," ++
    "\"reset\":7200\x7d\x7d\x7d")

def octoDecoder : Decoder where
  githubIdentity body :=
    if body = octoIdentity then some { id := 7, login := ascii "octo", type := ascii "User" }
    else none
  githubCapacity body :=
    if body = octoLimits then some { limit := 5000, remaining := 4321, reset := 7200, used := 679 }
    else none
  codexIdentity _ := none
  codexUsage _ := none

def octoPlatform : Platform where
  sha256 _ := Vector.replicate 32 1
  parseJson _ := none
  decoder := octoDecoder
  format := digits
  rootId := ascii "root"

def octoSource : Source :=
  { id := ascii "gh", provider := githubName, kind := .explicit }

def octoRequest : ImportRequest where
  sourceId := ascii "gh"
  provider := githubName
  token := ascii "token"
  credentialKind := .oauthAccess

def octoPending : PendingImport :=
  { newPending octoPlatform octoRequest 1 1 0 with networkId := 1 }

def octoJob : Job :=
  { id := importJobId (ascii "gh"), kind := .enrollment, status := .running }

def octoMemory : Memory :=
  { state := run State.step State.init [.connectSource octoSource, .putJob octoJob]
    admission := { credits := [{ key := octoPending.creditKey, bytes := 1 }] }
    outcomeIntents := [{ key := octoPending.creditKey
                         ownerId := octoPending.jobId
                         planBytes := 1 }]
    importSources := [{ sourceId := ascii "gh" }] }

def octoHandle : Handle where
  bytes := List.replicate 64 0x61
  length_eq := by decide
  hex := by decide

def octoCompletion (body : Bytes) : Completion :=
  { id := 1, response := some { status := 200, body } }

def octoTimes : Times :=
  { checked := 100, permitted := 101, enrolled := 101, observed := 102 }

def octoImport : Result (Memory × GrantPut) :=
  octoMemory.finishImport octoPlatform {} octoPending (octoCompletion octoIdentity)
    { account := octoHandle, grant := octoHandle } octoTimes

theorem length_octoGrant_le {g : Grant}
    (h : g = widestGrant githubName (ascii "gh") ∨ g = narrowGrant githubName (ascii "gh") ∨
      g = (narrowGrant githubName (ascii "gh")).widest) : (grantShape.json g).length <= 2 ^ 19 := by
  rcases h with rfl | rfl | rfl
  all_goals
    change (Shape.membersJson _ _).length <= _
    rw [Shape.length_membersJson]
    simp only [List.map_cons, List.map_nil, List.sum_cons, List.sum_nil, List.length_cons,
      List.length_nil]
    simp only [text, texts, scalar, field, Shape.comap, Shape.ofScalar, Shape.rigid,
      widestGrant, narrowGrant, Grant.widest, length_canonical]
    decide +kernel

theorem octoPlan_succeeds :
    Succeeds (importGrowth digits githubName (ascii "gh") []) := by
  have hacct : Succeeds (recordGrowth (accountShape.json
      (widestAccount githubName (ascii "gh") []))) := by
    decide +kernel
  have hquar : Succeeds (recordGrowth (quarantinedImportShape.json
      (widestQuarantine githubName (ascii "gh")))) := by
    decide +kernel
  have hlink : Succeeds (recordGrowth (jsonSlice (ascii "gh"))) := by
    decide +kernel
  have hwidest : Succeeds (recordGrowth (accountShape.json
      (widestAccount githubName (ascii "gh") []).widest)) := by
    decide +kernel
  rcases hacct with ⟨_, hacct⟩
  rcases hquar with ⟨_, hquar⟩
  rcases hlink with ⟨_, hlink⟩
  rcases hwidest with ⟨_, hwidest⟩
  have hgrant := recordGrowth_of_le (length_octoGrant_le (.inl rfl))
  have hnarrow := recordGrowth_of_le (length_octoGrant_le (.inr (.inl rfl)))
  have hwide := recordGrowth_of_le (length_octoGrant_le (.inr (.inr rfl)))
  have hsource : (requireId (ascii "gh")).mapError GrowthError.domain = .ok () := by
    rfl
  have hlabel : (validate ([] : Bytes)).mapError GrowthError.domain = .ok () := by
    rfl
  have hknown : (githubName != codexName && githubName != githubName) = false := by
    decide
  have hobs : importObservations digits githubName = .ok {} := by
    rfl
  simp only [importGrowth, maintenanceGrowth, wideningAll, wideningGrowth, List.foldlM_cons,
    List.foldlM_nil, hsource, hlabel, hknown, hacct, hquar, hlink, hwidest, hgrant,
    hnarrow, hwide, hobs, failIf_false, bind_ok, pure_bind]
  exact ⟨_, rfl⟩

def octoPolled : State :=
  run State.step State.init
    [.connectSource octoSource,
      .enroll { accountId := ascii "octo", sourceId := ascii "gh",
                identity := { provider := githubName, issuer := githubIssuer,
                              subject := ascii "7", verified := true },
                label := ascii "octo", accountType := ascii "User" } 10,
      .addGrant { id := ascii "grant", accountId := ascii "octo", sourceId := ascii "gh",
                  credentialKind := .oauthAccess, purposes := [.accountRead],
                  audience := githubIssuer }]

def octoPoll : Observer.Pending :=
  { id := 1, accountId := ascii "octo", grantId := ascii "grant", generation := 1 }

def octoCoordinator : Observer.Coordinator :=
  { pending := [some octoPoll] }

def octoTaken : Domain.Result (State × Bool) :=
  (octoCoordinator.take octoDecoder (octoCompletion octoLimits) octoPolled 4000).2

theorem provider_completion_plans_of_octo :
    (exists plan next put, importGrowth digits githubName (ascii "gh") [] = .ok plan ∧
      octoImport = .ok (next, put) ∧ next.state.grants.length = 1 ∧
      GrowsWithin digits plan octoMemory.state next.state) ∧
    (exists plan next, observationGrowth digits githubName (ascii "octo") = .ok plan ∧
      octoTaken = .ok (next, true) ∧ next.observations.length = 1 ∧
      GrowsWithin digits plan octoPolled next) := by
  rcases @provider_completion_plans_sound octoPlatform FloatFormat.decimal_digits with
    ⟨himport, htake⟩
  constructor
  · have hfin : Succeeds (octoImport >>= fun result =>
        failIf (result.1.state.grants.length != 1) .serviceBusy) := by
      decide +kernel
    rcases octoPlan_succeeds with ⟨plan, hplan⟩
    rcases hfin with ⟨_, hfin⟩
    rcases bind_eq_ok.mp hfin with ⟨⟨next, put⟩, himported, hgrants⟩
    rw [failIf_eq_ok, bne_eq_false_iff_eq] at hgrants
    have hreach : octoMemory.state.Reachable := ⟨_, rfl⟩
    refine ⟨plan, next, put, hplan, himported, hgrants, ?_⟩
    exact himport octoRequest 100 1 1 1 0 {} octoMemory next (octoCompletion octoIdentity) _
      octoTimes put plan (by decide) nofun nofun (by decide) hreach hplan himported
  · have hplan : Succeeds (observationGrowth digits githubName (ascii "octo")) := by
      decide +kernel
    have htaken : Succeeds (octoTaken >>= fun result =>
        failIf (!result.2 || result.1.observations.length != 1) .notFound) := by
      decide +kernel
    rcases hplan with ⟨plan, hplan⟩
    rcases htaken with ⟨_, htaken⟩
    rcases bind_eq_ok.mp htaken with ⟨⟨next, found⟩, htaken, hfound⟩
    rw [failIf_eq_ok, Bool.or_eq_false_iff, bne_eq_false_iff_eq, Bool.not_eq_false'] at hfound
    have hfoundTrue : found = true := hfound.1
    subst hfoundTrue
    have hpend : octoCoordinator.pendingIndex (octoCompletion octoLimits).id =
        some (0, octoPoll) := by
      decide
    have hreach : octoPolled.Reachable := ⟨_, rfl⟩
    refine ⟨plan, next, hplan, htaken, hfound.2, ?_⟩
    exact htake octoCoordinator (octoCompletion octoLimits) 0 octoPoll octoPolled next 4000 true
      plan hpend (by decide) hreach hplan htaken

end Omux.Engine
