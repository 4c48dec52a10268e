import Omux.Domain.Rejection

/-!
# What pruning loses

Pruning removes only observations that are over, so it changes no route that is selected
later.  It loses the latest sample of a bucket where a newer native rejection of the same
bucket is still in the list when the sample is looked at.
-/

namespace Omux.Domain

open Library List

def isNativeRejection (o : Observation) : Bool :=
  o.provenance == .nativeApplication && o.status == .unavailable

def isLive (now : Int) (o : Observation) : Bool :=
  !isOver o now

/-!
## The loop
-/

def keptBefore (now : Int) (rest : List Observation) :
    List Observation -> List Observation -> List Observation
  | kept, [] => kept
  | kept, o :: before =>
    if prunable now (kept ++ o :: (before ++ rest)) o then
      keptBefore now rest kept before
    else
      keptBefore now rest (kept ++ [o]) before

theorem filter_pruneLoop (now : Int) (kept todo : List Observation) :
    (pruneLoop now kept todo).filter (isLive now) = (kept ++ todo).filter (isLive now) := by
  induction todo generalizing kept with
  | nil => simp [pruneLoop]
  | cons o _ ih =>
    unfold pruneLoop
    split
    · rename_i hprunable
      have hover : isLive now o = false := by
        simp only [prunable, bool_iff] at hprunable
        simp [isLive, hprunable.1]
      rw [ih, filter_append, filter_append, filter_cons, hover]
      rfl
    · rw [ih, append_assoc]
      rfl

variable {now : Int} {o : Observation} {kept : List Observation}

theorem mem_pruneLoop {todo : List Observation} :
    o ∈ pruneLoop now kept todo ↔ o ∈ kept ∨ exists before after, todo = before ++ o :: after ∧
        prunable now (keptBefore now (o :: after) kept before ++ o :: after) o = false := by
  induction todo generalizing kept with
  | nil => simp [pruneLoop]
  | cons first rest ih =>
    constructor
    · intro h
      unfold pruneLoop at h
      split_ifs at h with hprunable
      · rw [ih] at h
        rcases h with hkept | ⟨before, after, hrest, hturn⟩
        · exact Or.inl hkept
        · refine Or.inr ⟨first :: before, after, by rw [hrest]; rfl, ?_⟩
          rw [hrest] at hprunable
          rwa [keptBefore, if_pos hprunable]
      · rw [ih] at h
        rcases h with hkept | ⟨before, after, hrest, hturn⟩
        · rcases mem_append.mp hkept with hkept | hsame
          · exact Or.inl hkept
          · rw [mem_singleton] at hsame
            refine Or.inr ⟨[], rest, by rw [hsame]; rfl, ?_⟩
            rw [hsame]
            exact Bool.eq_false_of_not_eq_true hprunable
        · refine Or.inr ⟨first :: before, after, by rw [hrest]; rfl, ?_⟩
          rw [hrest] at hprunable
          rwa [keptBefore, if_neg hprunable]
    · intro h
      unfold pruneLoop
      split_ifs with hprunable
      · rw [ih]
        rcases h with hkept | ⟨before, after, hsplit, hturn⟩
        · exact Or.inl hkept
        · cases before with
          | nil =>
            cases hsplit
            rw [keptBefore, hprunable] at hturn
            cases hturn
          | cons head before =>
            rw [cons_append, List.cons.injEq] at hsplit
            rcases hsplit with ⟨hhead, hrest⟩
            subst hhead hrest
            rw [keptBefore, if_pos hprunable] at hturn
            exact Or.inr ⟨before, after, rfl, hturn⟩
      · rw [ih]
        rcases h with hkept | ⟨before, after, hsplit, hturn⟩
        · exact Or.inl (mem_append_left _ hkept)
        · cases before with
          | nil =>
            cases hsplit
            exact Or.inl (mem_append_right _ (mem_singleton_self _))
          | cons head before =>
            rw [cons_append, List.cons.injEq] at hsplit
            rcases hsplit with ⟨hhead, hrest⟩
            subst hhead hrest
            rw [keptBefore, if_neg hprunable] at hturn
            exact Or.inr ⟨before, after, rfl, hturn⟩

theorem mem_of_keptBefore {rest before : List Observation}
    (h : o ∈ keptBefore now rest kept before) : o ∈ kept ∨ o ∈ before := by
  induction before generalizing kept with
  | nil => exact Or.inl h
  | cons _ before ih =>
    unfold keptBefore at h
    split at h
    · rcases ih h with hkept | hbefore
      · exact Or.inl hkept
      · exact Or.inr (mem_cons_of_mem _ hbefore)
    · rcases ih h with hkept | hbefore
      · rcases mem_append.mp hkept with hkept | hsame
        · exact Or.inl hkept
        · exact Or.inr (mem_cons.mpr (.inl (mem_singleton.mp hsame)))
      · exact Or.inr (mem_cons_of_mem _ hbefore)

theorem prunable_rejection {current : List Observation} (h : isNativeRejection o = true) :
    prunable now current o = isOver o now := by
  rw [isNativeRejection] at h
  rw [prunable, h, Bool.true_or, Bool.and_true]

theorem mem_keptBefore_rejection {rest before : List Observation} (h : isNativeRejection o = true)
    : o ∈ keptBefore now rest kept before ↔ o ∈ kept ∨ (o ∈ before ∧ isOver o now = false) := by
  induction before generalizing kept with
  | nil => simp [keptBefore]
  | cons first before ih =>
    unfold keptBefore
    by_cases hsame : o = first
    · subst hsame
      rw [prunable_rejection h]
      split_ifs with hover
      · rw [ih]
        simp [hover]
      · rw [ih]
        simp [hover]
    · split
      · rw [ih]
        simp [hsame]
      · rw [ih]
        simp [hsame]

/-!
## The latest sample
-/

def sampleOf (accountId : Bytes) (resource : Resource) (bucketId : Bytes)
    (o : Observation) : Bool :=
  o.accountId == accountId && sameResource o.resource resource &&
    o.bucketId == bucketId && !isNativeRejection o

section Sample

variable {accountId bucketId : Bytes} {resource : Resource}

def LatestSample (accountId : Bytes) (resource : Resource) (bucketId : Bytes)
    (observations : List Observation) (o : Observation) : Prop :=
  sampleOf accountId resource bucketId o = true ∧
    forall other, other ∈ observations ->
      sampleOf accountId resource bucketId other = true -> other.observedAt <= o.observedAt

/-- Only a native rejection is newer than the latest sample of its bucket. -/
theorem rejection_of_newer {observations : List Observation} {o newer : Observation}
    (ho : LatestSample accountId resource bucketId observations o)
    (hmem : newer ∈ observations) (hnewer : newerInBucket o newer = true) :
    isNativeRejection newer = true := by
  by_contra hsample
  have hkey := ho.1
  simp only [sampleOf, newerInBucket, bool_iff, sameResource_eq_true] at hkey hnewer
  have hother : sampleOf accountId resource bucketId newer = true := by
    simp only [sampleOf, bool_iff, sameResource_eq_true]
    refine ⟨⟨⟨?_, ?_⟩, ?_⟩, by simp [hsample]⟩
    · rw [<- hnewer.1.1.1, hkey.1.1.1]
    · rw [<- hnewer.1.1.2, hkey.1.1.2]
    · rw [<- hnewer.1.2, hkey.1.2]
  have hle := ho.2 newer hmem hother
  omega

/-- The latest sample at its place is live, or every newer rejection is over and was
looked at before it. -/
def Unshadowed (now : Int) (before : List Observation) (o : Observation)
    (after : List Observation) : Prop :=
  isOver o now = true ->
    (forall newer, newer ∈ before -> newerInBucket o newer = true -> isOver newer now = true) ∧
    forall newer, newer ∈ after -> newerInBucket o newer = false

/-- In its turn the latest sample is kept exactly where it is unshadowed. -/
theorem prunable_latest {now : Int} {before after : List Observation} {o : Observation}
    (ho : LatestSample accountId resource bucketId (before ++ o :: after) o) :
    prunable now (keptBefore now (o :: after) [] before ++ o :: after) o = false ↔
      Unshadowed now before o after := by
  have hself : newerInBucket o o = false := by simp [newerInBucket]
  have hsample : (o.provenance == .nativeApplication && o.status == .unavailable) = false := by
    have hkey := ho.1
    simp only [sampleOf, bool_iff] at hkey
    exact hkey.2
  rw [prunable, hsample, Bool.false_or, Bool.and_eq_false_iff]
  constructor
  · rintro (hlive | hnone) hover
    · rw [hover] at hlive
      cases hlive
    · rw [any_eq_false] at hnone
      constructor
      · intro newer hmem hnewer
        have hreject := rejection_of_newer ho (mem_append_left _ hmem) hnewer
        by_contra hlive
        apply hnone newer _ hnewer
        rw [mem_append, mem_keptBefore_rejection hreject]
        exact Or.inl (.inr ⟨hmem, Bool.eq_false_of_not_eq_true hlive⟩)
      · intro newer hmem
        apply Bool.eq_false_of_not_eq_true
        exact hnone newer (mem_append_right _ (mem_cons_of_mem _ hmem))
  · intro h
    by_cases hover : isOver o now = true
    · right
      rcases h hover with ⟨hbefore, hafter⟩
      rw [any_eq_false]
      intro newer hmem hnewer
      rw [mem_append, mem_cons] at hmem
      rcases hmem with hkept | hsame | hmem
      · rcases mem_of_keptBefore hkept with hnil | hmem
        · cases hnil
        · have hreject := rejection_of_newer ho (mem_append_left _ hmem) hnewer
          rw [mem_keptBefore_rejection hreject, hbefore newer hmem hnewer] at hkept
          simp at hkept
      · rw [hsame, hself] at hnewer
        cases hnewer
      · rw [hafter newer hmem] at hnewer
        cases hnewer
    · exact Or.inl (Bool.eq_false_of_not_eq_true hover)

end Sample

namespace State

theorem observations_pruneObservations (s : State) (now : Int) :
    (s.pruneObservations now).fst.observations = pruneLoop now [] s.observations := by
  have hsub := pruneLoop_sublist now [] s.observations
  rw [nil_append] at hsub
  unfold pruneObservations
  simp only
  split
  · have hlength := hsub.length_le
    exact (hsub.eq_of_length (by omega)).symm
  · rfl

/-- After pruning, every bucket that had a sample still has its latest one, and every
live observation is there. -/
def KeepsLatest (s : State) (now : Int) : Prop :=
  (forall accountId resource bucketId,
    s.observations.any (sampleOf accountId resource bucketId) = true ->
    exists o, o ∈ (s.pruneObservations now).fst.observations ∧
      LatestSample accountId resource bucketId s.observations o) ∧
  (s.pruneObservations now).fst.observations.filter (isLive now) =
    s.observations.filter (isLive now)

/-- In every bucket with a sample, some latest sample is unshadowed. -/
def LatestUnshadowed (s : State) (now : Int) : Prop :=
  forall accountId resource bucketId,
    s.observations.any (sampleOf accountId resource bucketId) = true ->
    exists before o after, s.observations = before ++ o :: after ∧
      LatestSample accountId resource bucketId s.observations o ∧
      Unshadowed now before o after

theorem pruneObservations_keeps_latest_iff (s : State) (now : Int) :
    s.KeepsLatest now ↔ s.LatestUnshadowed now := by
  have hlive : (s.pruneObservations now).fst.observations.filter (isLive now) =
      s.observations.filter (isLive now) := by
    rw [observations_pruneObservations, filter_pruneLoop, nil_append]
  constructor
  · intro h accountId resource bucketId hany
    rcases h.1 accountId resource bucketId hany with ⟨o, hmem, ho⟩
    rw [observations_pruneObservations, mem_pruneLoop] at hmem
    rcases hmem with hnil | ⟨before, after, hsplit, hturn⟩
    · cases hnil
    · refine ⟨before, o, after, hsplit, ho, ?_⟩
      rw [hsplit] at ho
      exact (prunable_latest ho).mp hturn
  · intro h
    refine ⟨?_, hlive⟩
    intro accountId resource bucketId hany
    rcases h accountId resource bucketId hany with ⟨before, o, after, hsplit, ho, hfree⟩
    refine ⟨o, ?_, ho⟩
    rw [observations_pruneObservations, mem_pruneLoop]
    rw [hsplit] at ho
    exact Or.inr ⟨before, after, hsplit, (prunable_latest ho).mpr hfree⟩

/-- A provider sample, and a native rejection of its bucket before the sample is over. -/
def cooledRun : List Op :=
  enrolledRun ++ [.observe (bucketSample 0 100 10 50), .observe { bucketSample 20 40 20 40 with
        remaining := F64.zero, status := .unavailable, provenance := .nativeApplication }]

theorem pruneObservations_loses_latest_sample : (run step State.init cooledRun).Reachable ∧
      (run step State.init cooledRun).observations.any
        (sampleOf [97] { kind := [99] } [98]) = true ∧
      ((run step State.init cooledRun).pruneObservations 100).fst.observations = [] ∧
      ¬ (run step State.init cooledRun).KeepsLatest 100 := by
  have hsample : (run step State.init cooledRun).observations.any
      (sampleOf [97] { kind := [99] } [98]) = true := by decide +kernel
  have hempty : ((run step State.init cooledRun).pruneObservations 100).fst.observations =
      [] := by decide +kernel
  refine ⟨⟨cooledRun, rfl⟩, hsample, hempty, ?_⟩
  intro h
  rcases h.1 _ _ _ hsample with ⟨o, hmem, _⟩
  cases hmem

/-!
## Routes
-/

theorem any_filter_of_imp {α : Type} {p q : α -> Bool} (xs : List α)
    (h : forall x, x ∈ xs -> p x = true -> q x = true) : (xs.filter q).any p = xs.any p := by
  rw [Bool.eq_iff_iff, any_eq_true, any_eq_true]
  constructor
  · rintro ⟨x, hx, hp⟩
    exact ⟨x, (mem_filter.mp hx).1, hp⟩
  · rintro ⟨x, hx, hp⟩
    exact ⟨x, mem_filter.mpr ⟨hx, h x hx hp⟩, hp⟩

variable {demand : Demand}

theorem isLive_of_fresh (hnow : now <= demand.now) {o : Observation}
    (h : freshForDemand o demand = true) : isLive now o = true := by
  simp only [freshForDemand, bool_iff] at h
  simp only [isLive, isOver, bool_iff]
  omega

theorem newestFor_live (hnow : now <= demand.now) (observations : List Observation) (owner : Bytes)
    : newestFor (observations.filter (isLive now)) owner demand =
      newestFor observations owner demand := by
  unfold newestFor
  generalize (none : Option Observation) = newest
  induction observations generalizing newest with
  | nil => rfl
  | cons o _ ih =>
    by_cases hlive : isLive now o = true
    · rw [filter_cons_of_pos hlive, foldl_cons, foldl_cons, ih]
    · have hstale : freshForDemand o demand = false :=
        Bool.eq_false_of_not_eq_true (fun hfresh => hlive (isLive_of_fresh hnow hfresh))
      rw [filter_cons_of_neg hlive, ih, foldl_cons, hstale, Bool.and_false]
      rfl

theorem blocks_live (hnow : now <= demand.now) (observations : List Observation) (owner : Bytes) :
    (observations.filter (isLive now)).any
        (blocks (observations.filter (isLive now)) owner demand) =
      observations.any (blocks observations owner demand) := by
  have hsame : blocks (observations.filter (isLive now)) owner demand =
      blocks observations owner demand := by
    funext negative
    rw [blocks, blocks, any_filter_of_imp]
    intro _ _ hready
    simp only [recovers, bool_iff] at hready
    exact isLive_of_fresh hnow hready.1.1.1.1.2
  rw [hsame, any_filter_of_imp]
  intro negative _ hblocks
  simp only [blocks, bool_iff] at hblocks
  exact isLive_of_fresh hnow hblocks.1.1.2

theorem newestFor_fresh {observations : List Observation} {owner : Bytes} {o : Observation}
    (h : newestFor observations owner demand = some o) : freshForDemand o demand = true := by
  have hfold : forall held, newestFor observations owner demand = some held ->
      freshForDemand held demand = true := by
    refine List.foldlRecOn (motive := fun newest => forall held, newest = some held ->
      freshForDemand held demand = true) observations _ ?_ ?_
    · nofun
    · intro newest hnewest _ _ held hheld
      split at hheld
      · rename_i hfirst
        simp only [bool_iff] at hfirst
        cases newest with
        | none =>
          cases hheld
          exact hfirst.2
        | some =>
          simp only at hheld
          split at hheld
          · cases hheld
            exact hfirst.2
          · exact hnewest held hheld
      · exact hnewest held hheld
  exact hfold o h

/-- Two states that differ in their revision and in observations that are over. -/
structure SameLive (now : Int) (s t : State) : Prop where
  sources : t.sources = s.sources
  accounts : t.accounts = s.accounts
  grants : t.grants = s.grants
  bindings : t.bindings = s.bindings
  live : t.observations.filter (isLive now) = s.observations.filter (isLive now)

section SameLive

variable {s t : State}

theorem SameLive.sameBucket (h : SameLive now s t) (a b : Observation) :
    t.sameBucket a b = s.sameBucket a b := by
  simp [State.sameBucket, State.account, h.accounts]

theorem shared_live (hnow : now <= demand.now) {shared o : Observation}
    (ho : freshForDemand o demand = true) (hbucket : s.sameBucket shared o = true)
    (hends : demand.now < shared.expiresAt) : isLive now shared = true := by
  simp only [freshForDemand, bool_iff] at ho
  simp only [State.sameBucket, bool_iff] at hbucket
  simp only [isLive, isOver, bool_iff]
  omega

section

variable (h : SameLive now s t) (hnow : now <= demand.now)
include h hnow

theorem SameLive.newestFor (owner : Bytes) :
    newestFor t.observations owner demand = newestFor s.observations owner demand := by
  rw [<- newestFor_live hnow t.observations, h.live, newestFor_live hnow]

theorem SameLive.blocks (owner : Bytes) :
    t.observations.any (blocks t.observations owner demand) =
      s.observations.any (blocks s.observations owner demand) := by
  rw [<- blocks_live hnow t.observations, h.live, blocks_live hnow]

theorem SameLive.capacityAdmits
    (owner : Account) : t.capacityAdmits owner demand = s.capacityAdmits owner demand := by
  unfold State.capacityAdmits
  rw [h.newestFor hnow]
  cases hnewest : Domain.newestFor s.observations owner.id demand with
  | none => rfl
  | some o =>
    have hfresh := newestFor_fresh hnewest
    have hshared : forall u : State, (u.observations.filter (isLive now)).any
        (fun shared => s.sameBucket shared o && decide (demand.now < shared.expiresAt) &&
          decide (shared.observedAt <= demand.now) &&
          (shared.status != .ready || shared.remaining.lt demand.required)) = u.observations.any
        (fun shared => s.sameBucket shared o && decide (demand.now < shared.expiresAt) &&
          decide (shared.observedAt <= demand.now) &&
          (shared.status != .ready || shared.remaining.lt demand.required)) := by
      intro u
      apply any_filter_of_imp
      intro shared _ htest
      simp only [bool_iff] at htest
      exact shared_live hnow hfresh htest.1.1.1 htest.1.1.2
    simp only [h.sameBucket]
    rw [<- hshared t, h.live, hshared s]

theorem SameLive.eligible (g : Grant) : t.eligible g demand = s.eligible g demand := by
  have hcap := h.capacityAdmits hnow
  have hblocks := h.blocks hnow
  unfold State.eligible State.account State.source
  rw [h.accounts, h.sources]
  simp [hcap, hblocks]

theorem SameLive.select
    (bindingId : Option Bytes) : t.select demand bindingId = s.select demand bindingId := by
  have helig := h.eligible hnow
  have hfirst : t.firstRoute demand = s.firstRoute demand := by
    simp [State.firstRoute, h.grants, helig]
  have hsticky : forall b, t.stickyRoute demand b = s.stickyRoute demand b := by
    intro b
    simp [State.stickyRoute, State.grant, h.grants, helig]
  simp [State.select, State.binding, h.bindings, hfirst, hsticky]

end

theorem sameLive_pruneObservations (s : State) (now : Int) :
    SameLive now s (s.pruneObservations now).fst := by
  have hlive : (s.pruneObservations now).fst.observations.filter (isLive now) =
      s.observations.filter (isLive now) := by
    rw [observations_pruneObservations, filter_pruneLoop, nil_append]
  have hcases : (s.pruneObservations now).fst = s ∨ (s.pruneObservations now).fst =
      { s with observations := pruneLoop now [] s.observations }.changed :=
    pruneObservations_inv rfl
  rcases hcases with hsame | hpruned
  · rw [hsame]
    exact ⟨rfl, rfl, rfl, rfl, rfl⟩
  · rw [hpruned] at hlive ⊢
    exact ⟨rfl, rfl, rfl, rfl, hlive⟩

end SameLive

/-- A later selection is the same before and after pruning. -/
theorem select_pruneObservations (s : State) (now : Int) (demand : Demand)
    (bindingId : Option Bytes) (hnow : now <= demand.now) :
    (s.pruneObservations now).fst.select demand bindingId = s.select demand bindingId :=
  (sameLive_pruneObservations s now).select hnow bindingId

/-- A sample of a window that is over, and one of the next window. -/
def turnedRun : List Op :=
  grantedRun ++ [.observe (bucketSample 0 100 10 50), .observe (bucketSample 100 200 20 1000)]

theorem select_pruned_turnedRun :
    ((run step State.init turnedRun).pruneObservations 120).snd = 1 ∧
      ((run step State.init turnedRun).pruneObservations 120).fst.select
          { bucketDemand with now := 150 } none =
        (run step State.init turnedRun).select { bucketDemand with now := 150 } none ∧
      (run step State.init turnedRun).select { bucketDemand with now := 150 } none =
        .ok { accountId := [97], grantId := [103], generation := 1 } :=
  ⟨by decide +kernel, select_pruneObservations _ 120 _ none (by decide), by decide +kernel⟩

end State

end Omux.Domain
