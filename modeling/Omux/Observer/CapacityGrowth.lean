import Omux.Domain.ProviderGrowthSound
import Omux.Observer.Capacity

/-!
# Growth of capacity polls

An accepted answer leads to at most a hundred observations, and none of them is wider than
the record that its plan was measured on.
-/

namespace Omux.Observer

open Library List
open Domain
open Transport (Decoder Response CodexUsage GitHubCapacity validProviderId isProviderByte)

variable {format : FloatFormat} {s next : State}

/-!
## Codex observations
-/

structure CodexResource (resource : Resource) : Prop where
  kind : Plain 18 resource.kind
  target : Plain 256 resource.target
  unit : resource.unit = .custom
  unitName : Plain 17 resource.unitName
  scope : Plain 300 resource.scope

structure CodexRecord (account : Bytes) (o : Observation) : Prop where
  accountId : o.accountId = account
  resource : CodexResource o.resource
  bucketId : o.bucketId = []
  remaining : exists n, n <= 100 ∧ o.remaining = F64.ofNat n
  limit : exists n, n <= 100 ∧ o.limit = some (F64.ofNat n)
  windowStart : TypedTime o.windowStart
  windowEnd : TypedTime o.windowEnd
  observedAt : TypedTime o.observedAt
  expiresAt : TypedTime o.expiresAt
  provenance : o.provenance = .providerApi

theorem length_codexResource_le {resource : Resource} (h : CodexResource resource)
    (account : Bytes) : (resourceShape.json resource).length <=
      (resourceShape.json (widestCodexObservation account).resource).length := by
  have hkind : (jsonSlice (List.replicate 18 0x61)).length <=
      (jsonSlice (ascii "subscription-usage")).length := by
    decide +kernel
  have hunitName : (jsonSlice (List.replicate 17 0x61)).length <=
      (jsonSlice (ascii "percent-of-window")).length := by
    decide +kernel
  exact Shape.length_record_le ⟨(length_plain_le h.kind).trans hkind, length_plain_le h.target,
    (congrArg (fun unit => (measureUnit.json unit).length) h.unit).le,
    (length_plain_le h.unitName).trans hunitName, length_plain_le h.scope, trivial⟩

theorem length_codexRecord_le (hfloats : format.Decimal) {account : Bytes} {o : Observation}
    (h : CodexRecord account o) : ((observationShape format).json o).length <=
      ((observationShape format).json (widestCodexObservation account)).length := by
  rcases h.remaining with ⟨_, hremaining, hremainingEq⟩
  rcases h.limit with ⟨_, hlimit, hlimitEq⟩
  refine Shape.length_record_le ⟨ (congrArg (fun text => (jsonSlice text).length) h.accountId).le,
    length_codexResource_le h.resource account,
    (congrArg (fun text => (jsonSlice text).length) h.bucketId).le, ?_, ?_,
    length_time_le h.windowStart, length_time_le h.windowEnd, length_time_le h.observedAt,
    length_time_le h.expiresAt, ?_,
    (congrArg (fun provenance => (observationProvenance.json provenance).length) h.provenance).le,
    trivial⟩
  · change (format.write o.remaining).length <= (format.write (F64.ofNat 100)).length
    rw [hremainingEq]
    exact hfloats.percent hremaining
  · change (jsonOption format.write o.limit).length <= (format.write (F64.ofNat 100)).length
    rw [hlimitEq]
    exact hfloats.percent hlimit
  · change (jsonString o.status.name).length <=
      (jsonString ObservationStatus.unavailable.name).length
    cases o.status <;> decide

/-!
## From a usage to its records
-/

theorem plain_providerId {value : Bytes} (h : validProviderId value = true) : Plain 256 value := by
  simp only [validProviderId, bool_iff] at h
  exact ⟨all_isPlain (by decide +kernel) h.2, h.1.2⟩

theorem plain_seconds {n : Int} (hlow : 0 < n) (hhigh : n < 2 ^ 31) : Plain 10 (decimalInt n) := by
  have hnat : n.natAbs < 10 ^ 10 := by omega
  rw [decimalInt, if_neg (Int.not_lt.mpr (Int.le_of_lt hlow))]
  exact plain_decimal (by decide) hnat

theorem plain_windowScope {feature name : Bytes} {seconds : Int} (ordinary : Bool)
    (hfeature : Plain 256 feature) (hname : Plain 9 name) (hlow : 0 < seconds)
    (hhigh : seconds < 2 ^ 31) : Plain 300 (windowScope feature ordinary name seconds) := by
  have hseconds := plain_seconds hlow hhigh
  have hcolon : Plain 1 (ascii ":") := ⟨by decide, by decide⟩
  have hunit : Plain 1 (ascii "s") := ⟨by decide, by decide⟩
  have hopening : Plain 271 (if ordinary then ascii "codex:ordinary-included:"
      else ascii "codex:feature:" ++ feature ++ ascii ":") := by
    have hordinary : Plain 24 (ascii "codex:ordinary-included:") := ⟨by decide, by decide⟩
    have hothers : Plain 14 (ascii "codex:feature:") := ⟨by decide, by decide⟩
    split
    · exact hordinary.mono (by decide)
    · exact (hothers.append hfeature).append hcolon
  exact ((((hopening.append hname).append hcolon).append hseconds).append hunit).mono (by decide)

theorem codexResource_ordinaryAccess : CodexResource codexOrdinaryAccess :=
  ⟨⟨by decide, by decide⟩, ⟨by decide, by decide⟩, rfl, ⟨by decide, by decide⟩,
    ⟨by decide, by decide⟩⟩

theorem codexResource_spendControl : CodexResource spendControl :=
  ⟨⟨by decide, by decide⟩, ⟨by decide, by decide⟩, rfl, ⟨by decide, by decide⟩,
    ⟨by decide, by decide⟩⟩

theorem codexResource_featureAccess {feature : Bytes} (h : Plain 256 feature) :
    CodexResource (featureAccess feature) := by
  have hkind : Plain 18 (ascii "usage-access") := ⟨by decide, by decide⟩
  have hunitName : Plain 17 (ascii "provider-decision") := ⟨by decide, by decide⟩
  have hscope : Plain 14 (ascii "codex:feature:") := ⟨by decide, by decide⟩
  exact ⟨hkind, h, rfl, hunitName, (hscope.append h).mono (by decide)⟩

theorem codexRecord_decision {resource : Resource} {now expires : Int}
    (hres : CodexResource resource) (hnow : TypedTime now) (hends : TypedTime expires)
    (account : Bytes) (allowed : Bool) :
    CodexRecord account (decisionObservation account resource allowed now expires) where
  accountId := rfl
  resource := hres
  bucketId := rfl
  remaining := ⟨if allowed then 1 else 0, by cases allowed <;> decide, rfl⟩
  limit := ⟨1, by decide, rfl⟩
  windowStart := hnow
  windowEnd := hends
  observedAt := hnow
  expiresAt := hends
  provenance := rfl

theorem typedTime_int64 (n : Int64) : TypedTime n.toInt :=
  ⟨n.le_toInt, Int.le_of_lt_add_one n.toInt_lt⟩

theorem codexRecord_window {feature name : Bytes} {window : CodexUsage.Window}
    {start now expires : Int} (hfeature : Plain 256 feature) (hname : Plain 9 name)
    (hwindow : CodexUsage.validWindow window = true) (hstart : minI64 <= start)
    (hopen : start <= now) (hnow : TypedTime now) (hends : TypedTime expires)
    (account : Bytes) (ordinary : Bool) : CodexRecord account
      (windowObservation account feature ordinary name window start now expires) := by
  simp only [CodexUsage.validWindow, bool_iff, Int.not_le] at hwindow
  rcases hwindow with ⟨⟨⟨⟨_, _⟩, hseconds⟩, _⟩, _⟩
  have hend := typedTime_int64 window.resetAt
  have hkind : Plain 18 (ascii "subscription-usage") := ⟨by decide, by decide⟩
  have hunitName : Plain 17 (ascii "percent-of-window") := ⟨by decide, by decide⟩
  have hscope := plain_windowScope ordinary hfeature hname hseconds
    window.limitWindowSeconds.toInt_lt
  constructor
  · rfl
  · exact ⟨hkind, hfeature, rfl, hunitName, hscope⟩
  · rfl
  · exact ⟨(100 - window.usedPercent.toInt).toNat, by omega, rfl⟩
  · exact ⟨100, le_rfl, rfl⟩
  · exact ⟨hstart, Int.le_trans hopen hnow.2⟩
  · exact hend
  · exact hnow
  · exact ⟨Int.le_min.mpr ⟨hends.1, hend.1⟩, Int.le_trans (Int.min_le_left _ _) hends.2⟩
  · rfl

structure CodexRecords (account : Bytes) (count : Nat) (records : List Observation) :
    Prop where
  each : forall o, o ∈ records -> CodexRecord account o
  length : records.length <= count

theorem codexRecords_nil (account : Bytes) (count : Nat) : CodexRecords account count [] :=
  ⟨fun _ h => absurd h not_mem_nil, Nat.zero_le _⟩

theorem codexRecords_singleton {account : Bytes} {o : Observation}
    (h : CodexRecord account o) : CodexRecords account 1 [o] where
  each other hother := by
    rw [mem_singleton.mp hother]
    exact h
  length := le_rfl

theorem CodexRecords.append {account : Bytes} {count others : Nat}
    {records more : List Observation} (h : CodexRecords account count records)
    (hmore : CodexRecords account others more) :
    CodexRecords account (count + others) (records ++ more) where
  each o ho := by
    rcases mem_append.mp ho with hin | hin
    · exact h.each o hin
    · exact hmore.each o hin
  length := by
    rw [length_append]
    exact Nat.add_le_add h.length hmore.length

theorem codexRecords_flatMap {α : Type} {account : Bytes} {count : Nat} {entries : List α}
    {records : α -> List Observation}
    (h : forall entry, entry ∈ entries -> CodexRecords account count (records entry)) :
    CodexRecords account (entries.length * count) (entries.flatMap records) := by
  induction entries with
  | nil => exact codexRecords_nil _ _
  | cons entry _ ih =>
    have hfirst := h entry mem_cons_self
    have hrest := ih (fun other hother => h other (mem_cons_of_mem entry hother))
    rw [length_cons, Nat.add_mul, Nat.one_mul, Nat.add_comm]
    exact hfirst.append hrest

section Usage

variable {account feature : Bytes} {now expires : Int}

theorem codexRecords_addWindow {name : Bytes} {window : Option CodexUsage.Window}
    (hfeature : Plain 256 feature) (hname : Plain 9 name)
    (hwindow : window.all CodexUsage.validWindow = true) (hnow : TypedTime now)
    (hends : TypedTime expires) (ordinary : Bool) :
    CodexRecords account 1 (addWindow account feature ordinary name window now expires) := by
  cases window with
  | none => exact codexRecords_nil _ _
  | some _ =>
    simp only [addWindow]
    split
    · exact codexRecords_nil _ _
    · rename_i hopen
      simp only [not_or, Int.not_lt] at hopen
      exact codexRecords_singleton (codexRecord_window hfeature hname hwindow hopen.1
        hopen.2.1 hnow hends account ordinary)

theorem codexRecords_addCodexLimit {limit : CodexUsage.RateLimit}
    (hfeature : Plain 256 feature) (hlimit : CodexUsage.validateRateLimit limit = .ok ())
    (hnow : TypedTime now) (hends : TypedTime expires) (ordinary : Bool) :
    CodexRecords account 3 (addCodexLimit account feature limit ordinary now expires) := by
  simp only [CodexUsage.validateRateLimit, ok_iff, bool_iff] at hlimit
  rcases hlimit with ⟨_, hprimary, hsecondary⟩
  have haccess : CodexResource
      (if ordinary then codexOrdinaryAccess else featureAccess feature) := by
    split
    · exact codexResource_ordinaryAccess
    · exact codexResource_featureAccess hfeature
  have hdecision := codexRecords_singleton
    (codexRecord_decision haccess hnow hends account limit.allowed)
  have hfirst : CodexRecords account 1 (addWindow account feature ordinary (ascii "primary")
      limit.primaryWindow now expires) :=
    codexRecords_addWindow hfeature ⟨by decide, by decide⟩ hprimary hnow hends ordinary
  have hsecond : CodexRecords account 1 (addWindow account feature ordinary
      (ascii "secondary") limit.secondaryWindow now expires) :=
    codexRecords_addWindow hfeature ⟨by decide, by decide⟩ hsecondary hnow hends ordinary
  exact hdecision.append (hfirst.append hsecond)

theorem validateAdditional_inv {previous entries : List CodexUsage.Additional}
    (h : CodexUsage.validateAdditional previous entries = .ok ()) :
    forall entry, entry ∈ entries -> validProviderId entry.meteredFeature = true ∧
      CodexUsage.validateOptionalLimit entry.rateLimit = .ok () := by
  induction entries generalizing previous with
  | nil => nofun
  | cons _ _ ih =>
    simp only [CodexUsage.validateAdditional, ok_iff, bool_iff] at h
    rcases h with ⟨_, ⟨hfeature, _⟩, _, _, _, _, _, hlimit, hrest⟩
    intro entry hentry
    rcases mem_cons.mp hentry with rfl | hin
    · exact ⟨hfeature, hlimit⟩
    · exact ih hrest entry hin

theorem codexRecords_additional {entry : CodexUsage.Additional}
    (hfeature : validProviderId entry.meteredFeature = true)
    (hlimit : CodexUsage.validateOptionalLimit entry.rateLimit = .ok ())
    (hnow : TypedTime now) (hends : TypedTime expires) :
    CodexRecords account 3 (additionalObservations account now expires entry) := by
  unfold additionalObservations
  cases hentry : entry.rateLimit with
  | none => exact codexRecords_nil _ _
  | some =>
    rw [hentry] at hlimit
    exact codexRecords_addCodexLimit (plain_providerId hfeature) hlimit hnow hends false

theorem codexRecords_codexObservations {usage : CodexUsage}
    (hvalid : usage.validate = .ok ()) (hnow : TypedTime now) (hends : TypedTime expires) :
    CodexRecords account codexObservationCount
      (codexObservations account usage now expires) := by
  simp only [CodexUsage.validate, ok_iff] at hvalid
  rcases hvalid with ⟨_, _, _, hlimit, _, hentries, _⟩
  have hothers : CodexRecords account 96 ((usage.additionalRateLimits.getD []).flatMap
      (additionalObservations account now expires)) := by
    cases hmore : usage.additionalRateLimits with
    | none => exact codexRecords_nil _ _
    | some =>
      rw [hmore] at hentries
      simp only [CodexUsage.validateEntries, ok_iff, bool_iff, not_lt] at hentries
      rcases hentries with ⟨_, hlength, hentries⟩
      have hall := validateAdditional_inv hentries
      have hrecs := codexRecords_flatMap (fun entry hentry =>
        @codexRecords_additional account _ _ _ (hall entry hentry).1
          (hall entry hentry).2 hnow hends)
      exact ⟨hrecs.each, hrecs.length.trans (Nat.mul_le_mul_right 3 hlength)⟩
  refine ((?_ : CodexRecords account 3 _).append hothers).append (?_ : CodexRecords account 1 _)
  · cases hrate : usage.rateLimit with
    | none => exact codexRecords_nil _ _
    | some =>
      rw [hrate] at hlimit
      exact codexRecords_addCodexLimit ⟨by decide, by decide⟩ hlimit hnow hends true
  · cases usage.spendControl with
    | none => exact codexRecords_nil _ _
    | some reached =>
      exact codexRecords_singleton
        (codexRecord_decision codexResource_spendControl hnow hends account (!reached))

end Usage

/-!
## Completions
-/

section Completions

variable {decoder : Decoder} {response : Response} {now : Int}

theorem observeCodexUsage_inv {grant : Grant}
    (h : observeCodexUsage decoder s grant response now = .ok next) :
    next = s ∨ codexCapacityEligible s grant now = true ∧
      exists usage, usage.validate = .ok () ∧ now + freshnessSeconds <= maxI64 ∧
        s.observeBatch (codexObservations grant.accountId usage now
          (now + freshnessSeconds)) = .ok next := by
  unfold observeCodexUsage at h
  split at h
  · exact Or.inl (Except.ok.inj h).symm
  · rename_i helig
    split at h
    · exact Or.inl (Except.ok.inj h).symm
    · rename_i usage husage
      split at h
      · exact Or.inl (Except.ok.inj h).symm
      · split at h
        · exact Or.inl (Except.ok.inj h).symm
        · rename_i hfresh
          refine Or.inr ⟨by simpa using helig, usage, ?_, Int.not_lt.mp hfresh, h⟩
          exact response.accepted_eq_ok husage

theorem observeCodexUsage_gains {grant : Grant} {bytes : Nat} (hfloats : format.Decimal)
    (hbytes : ((observationShape format).json
      (widestCodexObservation grant.accountId)).length + 1 <= bytes)
    (hnow : TypedTime now) (h : observeCodexUsage decoder s grant response now = .ok next) :
    Gains format s next (codexObservationCount * bytes)
        (observationCounts codexObservationCount).counts ∧
      (next.revision = s.revision ∨ next.revision <= maxU64) := by
  rcases observeCodexUsage_inv h with hnext | ⟨_, _, hvalid, hfresh, hbatch⟩
  · rw [hnext]
    exact ⟨Gains.refl s, .inl rfl⟩
  · have hends : TypedTime (now + freshnessSeconds) :=
      ⟨Int.le_trans hnow.1 (Int.le_add_of_nonneg_right (by decide)), hfresh⟩
    have hrecs := @codexRecords_codexObservations grant.accountId _ _ _ hvalid hnow hends
    have hgains := observeBatch_gains (fun o ho => Nat.le_trans
      (Nat.add_le_add_right (length_codexRecord_le hfloats (hrecs.each o ho)) 1) hbytes)
      hbatch
    refine ⟨hgains.mono (Nat.mul_le_mul_right bytes hrecs.length) (fun part => ?_),
      observeBatch_revision hbatch⟩
    cases part with
    | observations => exact hrecs.length
    | _ => exact le_rfl

theorem length_coreObservation_le {core : GitHubCapacity} (pending : Pending)
    (hfloats : format.Decimal) (hnow : TypedTime now) (hreset : 0 < core.reset.toInt) :
    ((observationShape format).json (coreObservation pending core now)).length <=
      ((observationShape format).json (widestCoreObservation pending.accountId)).length := by
  have hend := typedTime_int64 core.reset
  have hends : TypedTime (min (min (now + freshnessSeconds) maxI64) core.reset.toInt) := by
    refine ⟨?_, Int.le_trans (Int.min_le_right _ _) hend.2⟩
    have hfresh : minI64 <= now + freshnessSeconds :=
      Int.le_trans hnow.1 (Int.le_add_of_nonneg_right (by decide))
    exact Int.le_min.mpr ⟨Int.le_min.mpr ⟨hfresh, by decide⟩, hend.1⟩
  have hstart : TypedTime (core.reset.toInt - 3600) := by
    have hhigh := hend.2
    constructor
    · simp only [minI64]
      omega
    · omega
  exact Shape.length_record_le ⟨le_rfl,
    (congrArg (fun resource => (resourceShape.json resource).length) pending.resource_eq).le,
    le_rfl, hfloats.largest (Nat.le_of_lt core.remaining.toNat_lt),
    hfloats.largest (Nat.le_of_lt core.limit.toNat_lt), length_time_le hstart,
    length_time_le hend, length_time_le hnow, length_time_le hends, le_rfl, le_rfl, trivial⟩

theorem observeGitHubCore_gains {pending : Pending} {bytes : Nat} (hfloats : format.Decimal)
    (hbytes : ((observationShape format).json
      (widestCoreObservation pending.accountId)).length + 1 <= bytes)
    (hnow : TypedTime now) (h : observeGitHubCore decoder s pending response now = .ok next) :
    Gains format s next bytes (observationCounts 1).counts ∧
      (next.revision = s.revision ∨ next.revision <= maxU64) := by
  unfold observeGitHubCore at h
  split at h
  · rw [<- Except.ok.inj h]
    exact ⟨Gains.refl s, .inl rfl⟩
  · rename_i core hcore
    split at h
    · rw [<- Except.ok.inj h]
      exact ⟨Gains.refl s, .inl rfl⟩
    · have hvalid := response.accepted_eq_ok hcore
      simp only [Transport.validateGitHubCapacity, ok_iff, bool_iff, Int.not_le] at hvalid
      have hwidth := length_coreObservation_le pending hfloats hnow hvalid.2
      exact ⟨observes_gains (observe_observes
        ((Nat.add_le_add_right hwidth 1).trans hbytes) h), observe_revision h⟩

theorem growsWithin_refl (plan : OutcomeGrowth) (s : State) : GrowsWithin format plan s s :=
  ⟨Nat.le_add_right _ _, fun _ => Nat.le_add_right _ _⟩

theorem observePending_grows_within {pending : Pending} {answer : Option Response}
    {plan : OutcomeGrowth} (hfloats : format.Decimal) (hnow : TypedTime now)
    (hplan : observationGrowth format pending.provider.name pending.accountId = .ok plan)
    (h : observePending decoder s pending answer now = .ok next) :
    GrowsWithin format plan s next := by
  unfold observePending at h
  split at h
  · rw [<- Except.ok.inj h]
    exact growsWithin_refl plan s
  · rename_i grant _
    split at h
    · rw [<- Except.ok.inj h]
      exact growsWithin_refl plan s
    · rename_i hsame
      simp only [Bool.or_eq_true, bool_iff, not_or, Decidable.not_not] at hsame
      split at h
      · rw [<- Except.ok.inj h]
        exact growsWithin_refl plan s
      · split at h
        · rw [<- Except.ok.inj h]
          exact growsWithin_refl plan s
        · rename_i hprov
          rw [hprov] at hplan
          have hwidth := Nat.le_refl (((observationShape format).json
            (widestCodexObservation grant.accountId)).length + 1)
          rcases observeCodexUsage_gains hfloats hwidth hnow h with ⟨hgains, hrev⟩
          rw [observationGrowth_codex hplan]
          rw [hsame.2] at hgains
          exact growsWithin_of_gains hgains hrev ((Nat.add_comm _ _).le) (fun _ => le_rfl)
        · rename_i hprov
          rw [hprov] at hplan
          rcases observeGitHubCore_gains hfloats (le_rfl) hnow h with
            ⟨hgains, hrev⟩
          rw [observationGrowth_github hplan]
          refine growsWithin_of_gains hgains hrev ?_ (fun _ => le_rfl)
          exact Nat.add_le_add_left (Nat.le_add_right _ _) _

theorem take_grows_within {self : Coordinator} {completion : Completion} {i : Nat}
    {pending : Pending} {found : Bool} {plan : OutcomeGrowth} (hfloats : format.Decimal)
    (hnow : TypedTime now) (hpend : self.pendingIndex completion.id = some (i, pending))
    (hplan : observationGrowth format pending.provider.name pending.accountId = .ok plan)
    (h : (self.take decoder completion s now).2 = .ok (next, found)) :
    GrowsWithin format plan s next := by
  simp only [Coordinator.take, hpend] at h
  cases hobs : observePending decoder s pending completion.response now with
  | error =>
    rw [hobs] at h
    cases h
  | ok =>
    rw [hobs] at h
    cases h
    exact observePending_grows_within hfloats hnow hplan hobs

end Completions

end Omux.Observer
