import Omux.Domain.ObservationReplay

/-!
# A stored rejection keeps its account out

An explicit failure blocks every route of its account for its resource until its
cooldown ends or a newer provider or native success is stored.
-/

namespace Omux.Domain

open Library List

def isInconclusive (sample : Observation) : Bool :=
  sample.status == .unknown || (sample.status == .ready && !isAuthoritative sample.provenance)

def sameSubject (sample rejection : Observation) : Bool :=
  sample.accountId == rejection.accountId && sameResource sample.resource rejection.resource

def replaces (rejection sample : Observation) : Bool :=
  supersedes rejection sample && decide (rejection.observedAt <= sample.observedAt) &&
    !ignoredUnknown rejection sample

def clears (rejection ready : Observation) : Bool :=
  sameSubject ready rejection && ready.status == .ready && isAuthoritative ready.provenance &&
    decide (rejection.observedAt < ready.observedAt)

def quietSample (rejection sample : Observation) : Bool :=
  !sameSubject sample rejection || (isInconclusive sample && !replaces rejection sample)

theorem sameResource_comm (a b : Resource) : sameResource a b = sameResource b a := by
  rw [Bool.eq_iff_iff, sameResource_eq_true, sameResource_eq_true]
  exact eq_comm

variable {rejection sample : Observation}

theorem sameSubject_of_replaces (h : replaces rejection sample = true) :
    sameSubject sample rejection = true := by
  simp only [replaces, supersedes, sameBucketResource, bool_iff] at h
  rcases h with ⟨⟨⟨⟨⟨hacct, _⟩, hres⟩, _⟩, _⟩, _⟩
  rw [sameSubject, hacct, sameResource_comm, hres]
  simp

section

variable (h : quietSample rejection sample = true)
include h

theorem replaces_of_quiet : replaces rejection sample = false := by
  rw [<- Bool.not_eq_true]
  intro hreplaces
  simp [quietSample, sameSubject_of_replaces hreplaces, hreplaces] at h

theorem clears_of_quiet : clears rejection sample = false := by
  rw [<- Bool.not_eq_true]
  intro hclears
  simp only [clears, bool_iff] at hclears
  rcases hclears with ⟨⟨⟨hsubject, hready⟩, hauthoritative⟩, _⟩
  simp [quietSample, hsubject, isInconclusive, hready, hauthoritative] at h

theorem retires_of_quiet : retires sample rejection = false := by
  have hclears := clears_of_quiet h
  rw [<- Bool.not_eq_true] at hclears ⊢
  intro hretires
  apply hclears
  simp only [retires, provesRecovery, bool_iff] at hretires
  rcases hretires with ⟨⟨⟨⟨⟨⟨⟨⟨hready, _⟩, _⟩, _⟩, hauthoritative⟩, hacct⟩, hres⟩, hnewer⟩, _⟩
  simp [clears, sameSubject, hready, hauthoritative, hacct, hnewer, sameResource_comm, hres]

end

/-!
## The rejection stays
-/

/-- The rejection is stored and no stored success is newer. -/
structure Rejected (observations : List Observation) (rejection : Observation) :
    Prop where
  stored : rejection ∈ observations
  uncleared : forall ready, ready ∈ observations -> clears rejection ready = false

theorem pruneLoop_keeps {now : Int} (hlive : isOver rejection now = false)
    {kept todo : List Observation} (h : rejection ∈ kept ++ todo) :
    rejection ∈ pruneLoop now kept todo := by
  induction todo generalizing kept with
  | nil => simpa [pruneLoop] using h
  | cons o _ ih =>
    unfold pruneLoop
    split
    · rename_i hprunable
      apply ih
      rcases mem_append.mp h with hkept | htodo
      · exact mem_append_left _ hkept
      · rcases mem_cons.mp htodo with hsame | hrest
        · rw [hsame] at hlive
          simp [prunable, hlive] at hprunable
        · exact mem_append_right _ hrest
    · apply ih
      simpa using h

namespace State

variable {s next : State}

section

variable (h : Rejected s.observations rejection)
include h

theorem rejected_observe {input : Observation}
    (hquiet : quietSample rejection input = true) (hobserve : s.observe input = .ok next) :
    Rejected next.observations rejection := by
  have hstays : (!retires input rejection) = true := by
    rw [retires_of_quiet hquiet]
    rfl
  rcases observe_inv hobserve with ⟨_, _, hmatched | hnew⟩
  · rcases hmatched with ⟨i, existing, hentry, hobs, hignored | hrepl⟩
    · rw [hignored.right]
      exact h
    · rcases firstEntry_eq_some hentry with ⟨hget, hsupersedes⟩
      have hother : rejection ≠ existing := by
        intro hsame
        have hreplaces := replaces_of_quiet hquiet
        rw [hsame] at hreplaces
        simp [replaces, hsupersedes, hobs, hrepl.left] at hreplaces
      rw [hrepl.right]
      refine ⟨mem_filter.mpr ⟨mem_set_of_ne hget h.stored hother, hstays⟩, ?_⟩
      intro ready hready
      exact forall_mem_set h.uncleared (clears_of_quiet hquiet) ready (mem_filter.mp hready).left
  · rw [hnew.right.right]
    refine ⟨mem_filter.mpr ⟨mem_append_left _ h.stored, hstays⟩, ?_⟩
    intro ready hready
    exact forall_mem_concat h.uncleared (clears_of_quiet hquiet) ready (mem_filter.mp hready).left

theorem rejected_batch {input : List Observation}
    (hquiet : input.all (quietSample rejection) = true)
    (hfold : input.foldlM observe s = .ok next) : Rejected next.observations rejection := by
  apply foldlM_invariant (P := fun mid : State =>
    Rejected mid.observations rejection) ?_ h hfold
  intro mid _ o ho hmid hobserve
  exact rejected_observe hmid (all_eq_true.mp hquiet o ho) hobserve

/--
The operation does not forget the account, does not prune past the rejection,
and every sample that it accepts for the same account and resource proves nothing
and is not written over the rejection.
-/
def quietOp (rejection : Observation) (s : State) : Op -> Bool
  | .observe input =>
    match s.observe input with
    | .ok _ => quietSample rejection input
    | .error _ => true
  | .observeBatch input =>
    match s.observeBatch input with
    | .ok _ => input.all (quietSample rejection)
    | .error _ => true
  | .pruneObservations now => !isOver rejection now
  | .forget accountId =>
    match s.forget accountId with
    | .ok _ => accountId != rejection.accountId
    | .error _ => true
  | _ => true

theorem rejected_attempt {op : Op}
    (hquiet : s.quietOp rejection op = true) (hatt : s.attempt op = .ok next) :
    Rejected next.observations rejection := by
  cases attempt_observations hatt with
  | inr hsame =>
    rw [hsame]
    exact h
  | inl hchange =>
    cases hchange with
    | observe hobserve =>
      simp only [quietOp, hobserve] at hquiet
      exact rejected_observe h hquiet hobserve
    | observeBatch hbatch =>
      simp only [quietOp, hbatch] at hquiet
      rcases observeBatch_inv hbatch with rfl | hstaged
      · exact h
      · rcases hstaged with ⟨_, hfold, hnext⟩
        have hstart : Rejected s.staging.observations rejection := h
        have hkept := rejected_batch hstart hquiet hfold
        rw [hnext]
        exact hkept
    | @prune now hprune =>
      have hlive : isOver rejection now = false := by simpa [quietOp] using hquiet
      rcases pruneObservations_inv hprune with rfl | rfl
      · exact h
      · refine ⟨pruneLoop_keeps hlive h.stored, ?_⟩
        intro ready hready
        exact h.uncleared ready ((pruneLoop_sublist now [] s.observations).subset hready)
    | forget hforget =>
      simp only [quietOp, hforget] at hquiet
      rcases forget_inv hforget with ⟨_, owner, hentry, _, _, hnext⟩
      have hid := (recordEntry_eq_some hentry).right
      have hstored : rejection ∈ s.observations.filter (fun o => o.accountId != owner.id) := by
        apply mem_filter.mpr
        refine ⟨h.stored, ?_⟩
        rw [hid, bne_comm]
        exact hquiet
      rw [hnext]
      exact ⟨hstored, fun ready hready =>
        h.uncleared ready (mem_filter.mp hready).left⟩

theorem rejected_run {ops : List Op}
    (hquiet : AllSteps step (fun mid op => mid.quietOp rejection op = true) s ops) :
    Rejected (run step s ops).observations rejection := by
  apply run_invariant_of (P := fun mid : State =>
    Rejected mid.observations rejection) ?_ hquiet h
  intro mid op hop hmid
  unfold step
  cases hatt : mid.attempt op with
  | ok => exact rejected_attempt hmid hop hatt
  | error => exact hmid

end

/-!
## No route through the rejection
-/

/-- The selection names an eligible grant; a sticky one is the grant of the binding. -/
def Routed (s : State) (demand : Demand) (bindingId : Option Bytes)
    (selection : Selection) : Prop :=
  exists g, g ∈ s.grants ∧ s.eligible g demand = true ∧
    selection = selectionOf g selection.sticky ∧
    (selection.sticky = true -> exists id b, bindingId = some id ∧
      s.binding id = some b ∧ b.grantId = g.id ∧ b.grantGeneration = g.generation)

variable {demand : Demand} {selection : Selection}

theorem routed_firstRoute (bindingId : Option Bytes) (h : s.firstRoute demand = .ok selection) :
    s.Routed demand bindingId selection := by
  unfold firstRoute at h
  split at h
  · rename_i g hfound
    rw [<- Except.ok.inj h]
    refine ⟨g, mem_of_find?_eq_some hfound, by simpa using List.find?_some hfound, rfl, ?_⟩
    nofun
  · cases h

theorem routed_stickyRoute {id : Bytes} {b : Binding} (hb : s.binding id = some b)
    (h : s.stickyRoute demand b = some selection) : s.Routed demand (some id) selection := by
  unfold stickyRoute at h
  split at h
  · rename_i g hgrant
    rcases recordAt_eq_some hgrant with ⟨hg, hid⟩
    split at h
    · rename_i helig
      rw [Bool.and_eq_true, beq_iff_eq] at helig
      rw [<- Option.some.inj h]
      exact ⟨g, hg, helig.2, rfl, fun _ => ⟨id, b, rfl, hb, hid.symm, helig.1.symm⟩⟩
    · cases h
  · cases h

theorem select_inv {bindingId : Option Bytes} (h : s.select demand bindingId = .ok selection) :
    (validate demand = .ok () ∧ validateScopes demand.scopes = .ok () ∧
      validateResource demand.resource = .ok () ∧ validRequired demand.required = true) ∧
    s.Routed demand bindingId selection := by
  simp only [select, ok_iff, bool_iff] at h
  rcases h with ⟨_, hvalid, _, hscopes, _, _, _, _, _, hres, _, hreq, h⟩
  refine ⟨⟨hvalid, hscopes, hres, hreq⟩, ?_⟩
  cases bindingId with
  | none => exact routed_firstRoute none h
  | some _ =>
    simp only [ok_iff] at h
    rcases h with ⟨b, hb, h⟩
    split at h
    · rename_i route hroute
      rw [<- Except.ok.inj h]
      exact routed_stickyRoute hb hroute
    · exact routed_firstRoute _ h

theorem select_eligible {bindingId : Option Bytes} (h : s.select demand bindingId = .ok selection)
    : exists g, s.eligible g demand = true ∧ g.accountId = selection.accountId := by
  rcases select_inv h with ⟨_, g, _, helig, hselection, _⟩
  exact ⟨g, helig, by rw [hselection]; rfl⟩

theorem eligible_unblocked {g : Grant} (h : s.eligible g demand = true) :
    s.observations.any (blocks s.observations g.accountId demand) = false := by
  unfold eligible at h
  split at h
  · cases h
  · rename_i owner howner
    have hid := (recordAt_eq_some howner).right
    rw [Bool.and_eq_true] at h
    rcases h with ⟨_, h⟩
    split at h
    · cases h
    · rw [Bool.and_eq_true, Bool.and_eq_true, Bool.not_eq_true', hid] at h
      exact h.left.right

theorem blocks_of_rejected {observations : List Observation} (h : Rejected observations rejection)
    (hstatus : rejection.status = .unavailable)
    (hres : sameResource rejection.resource demand.resource = true)
    (hfresh : freshForDemand rejection demand = true) :
    blocks observations rejection.accountId demand rejection = true := by
  have hrecovers : observations.any (fun ready =>
      recovers ready rejection rejection.accountId demand) = false := by
    rw [any_eq_false]
    intro ready hready hrecovers
    simp only [recovers, Bool.and_eq_true] at hrecovers
    rcases hrecovers with ⟨⟨⟨⟨⟨⟨hacct, hsame⟩, _⟩, hnewer⟩, hok⟩, _⟩, hauthoritative⟩
    have hsubject : sameResource ready.resource rejection.resource = true := by
      rw [sameResource_eq_true] at hsame hres ⊢
      rw [hsame, hres]
    have hclears : clears rejection ready = true := by
      simp [clears, sameSubject, hacct, hsubject, hok, hauthoritative, of_decide_eq_true hnewer]
    rw [h.uncleared ready hready] at hclears
    cases hclears
  simp [blocks, hres, hfresh, isNegative, hstatus, hrecovers]

theorem observe_stores {input : Observation} (hstatus : input.status ≠ .unknown)
    (h : s.observe input = .ok next) : input ∈ next.observations := by
  have hstays : (!retires input input) = true := by
    rw [retires_self]
    rfl
  rcases observe_inv h with ⟨_, _, hmatched | hnew⟩
  · rcases hmatched with ⟨i, _, hentry, _, hignored | hrepl⟩
    · have hunknown := hignored.left
      simp only [ignoredUnknown, bool_iff] at hunknown
      exact absurd hunknown.left.left hstatus
    · rw [hrepl.right]
      exact mem_filter.mpr ⟨mem_set_self (firstEntry_eq_some hentry).left, hstays⟩
  · rw [hnew.right.right]
    exact mem_filter.mpr ⟨by simp, hstays⟩

/--
A rejection that arrives when no newer success is stored keeps its account out of
every selection for its resource while it is fresh, whatever quiet run follows.
-/
theorem select_avoids_rejected (s stored : State) (rejection : Observation)
    (ops : List Op) (demand : Demand) (bindingId : Option Bytes)
    (selection : Selection) (hstore : s.observe rejection = .ok stored)
    (hstatus : rejection.status = .unavailable) (hnewest : stored.observations.all (fun ready =>
      !clears rejection ready) = true)
    (hquiet : AllSteps step (fun mid op => mid.quietOp rejection op = true) stored ops)
    (hres : sameResource rejection.resource demand.resource = true)
    (hfresh : freshForDemand rejection demand = true)
    (hselect : (run step stored ops).select demand bindingId = .ok selection) :
    selection.accountId ≠ rejection.accountId := by
  intro hacct
  have hrej : Rejected stored.observations rejection := by
    refine ⟨observe_stores (by rw [hstatus]; decide) hstore, ?_⟩
    intro ready hready
    simpa using all_eq_true.mp hnewest ready hready
  have hkept := rejected_run hrej hquiet
  rcases select_eligible hselect with ⟨g, helig, hg⟩
  have hfree := eligible_unblocked helig
  rw [hg, hacct, any_eq_false] at hfree
  exact hfree rejection hkept.stored (blocks_of_rejected hkept hstatus hres hfresh)

def grantedRun : List Op :=
  enrolledRun ++ [.addGrant
      { id := [103], accountId := [97], sourceId := [115],
        credentialKind := .oauthAccess, purposes := [.request], audience := [117] }]

def pairedRun : List Op :=
  grantedRun ++ [.enroll
      { accountId := [98], sourceId := [115], identity :=
          { provider := [112], issuer := [105], subject := [118], verified := true } } 0,
      .addGrant
        { id := [104], accountId := [98], sourceId := [115],
          credentialKind := .oauthAccess, purposes := [.request], audience := [117] }]

def bucketRejection (observedAt : Int) : Observation :=
  { bucketSample 0 100 observedAt 1000 with
    remaining := F64.zero, status := .unavailable }

def bucketDemand : Demand :=
  { provider := [112], audience := [117], resource := { kind := [99] }, now := 30 }

def inconclusiveRun : List Op :=
  [.observe { bucketSample 0 100 15 1000 with status := .unknown },
    .observe { bucketSample 0 90 20 1000 with provenance := .userDeclared },
    .pruneObservations 25]

def rejectedState : State :=
  (run step State.init pairedRun).step (.observe (bucketRejection 10))

theorem select_avoids_rejected_account :
    exists selection, (run step rejectedState inconclusiveRun).select bucketDemand none =
          .ok selection ∧
        selection.accountId ≠ (bucketRejection 10).accountId := by
  refine ⟨{ accountId := [98], grantId := [104], generation := 1 }, by decide +kernel, ?_⟩
  exact select_avoids_rejected (run step State.init pairedRun) rejectedState
    (bucketRejection 10) inconclusiveRun bucketDemand none _
    (by decide +kernel) rfl (by decide +kernel) (by decide +kernel)
    (by decide +kernel) (by decide +kernel) (by decide +kernel)

def recoveredRun : List Op :=
  grantedRun ++ [.observe { bucketSample 0 100 20 1000 with bucketId := [100] }]

def declaredRun : List Op :=
  [.observe { bucketSample 0 100 20 1000 with provenance := .userDeclared }]

/-- The rejection is stored and fresh for the demand; after the run its account is selected. -/
def SelectsRejected (before after : List Op) : Prop :=
  let s := run step State.init before
  let stored := s.step (.observe (bucketRejection 10))
  s.observe (bucketRejection 10) = .ok stored ∧ bucketRejection 10 ∈ stored.observations ∧
    freshForDemand (bucketRejection 10) bucketDemand = true ∧
    (run step stored after).select bucketDemand none =
      .ok { accountId := [97], grantId := [103], generation := 1 }

theorem rejected_account_selected :
    SelectsRejected recoveredRun [] ∧ SelectsRejected grantedRun declaredRun ∧
      SelectsRejected grantedRun
        [.observe { bucketSample 0 200 20 1000 with provenance := .userDeclared },
          .pruneObservations 150] ∧
      SelectsRejected grantedRun
        [.observe { bucketSample 100 200 150 1000 with provenance := .userDeclared }] := by
  simp only [SelectsRejected]
  decide +kernel

end State

end Omux.Domain
