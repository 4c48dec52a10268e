import Omux.Domain.ObservationReplay

/-!
# Forgotten identities

A tombstone blocks its identity until a re-enrollment is permitted.  Every other
operation keeps the tombstones, and a restart rebuilds them, so an identity that was
forgotten stays away over whole runs, whatever its local account id is used for.
-/

namespace Omux.Domain

open Library List State

/-!
## Owners and tombstones
-/

variable {out : EnrollmentResult}

namespace State

variable {s next : State}

/-- The operations that touch accounts or tombstones. -/
inductive OwnerChange (s next : State) : Op -> Prop where
  | enroll {input : Enrollment} {now : Int} {out : EnrollmentResult}
      (h : s.enroll input now = .ok (next, out)) : OwnerChange s next (.enroll input now)
  | pause {accountId : Bytes} {paused : Bool} (h : s.pause accountId paused = .ok next) :
      OwnerChange s next (.pause accountId paused)
  | drain {accountId : Bytes} (h : s.drain accountId = .ok next) :
      OwnerChange s next (.drain accountId)
  | forget {accountId : Bytes} (h : s.forget accountId = .ok next) :
      OwnerChange s next (.forget accountId)
  | permit {identity : Identity} {sourceId : Bytes} {now : Int}
      (h : s.permitReenrollment identity sourceId now = .ok next) :
      OwnerChange s next (.permitReenrollment identity sourceId now)

theorem setLifecycle_owners {accountId : Bytes} {lifecycle : AccountLifecycle}
    (h : s.setLifecycle accountId lifecycle = .ok next) : next.tombstones = s.tombstones ∧
      next.accounts.map Account.id = s.accounts.map Account.id := by
  rcases setLifecycle_inv h with ⟨i, _, hentry, rfl⟩
  exact ⟨rfl, map_set_of_eq (recordEntry_eq_some hentry).1 rfl⟩

/-- Every other operation leaves the accounts and the tombstones alone. -/
theorem attempt_owners {op : Op} (h : s.attempt op = .ok next) : OwnerChange s next op ∨
      next.accounts = s.accounts ∧ next.tombstones = s.tombstones := by
  have haccs := congrArg State.accounts (attempt_frame h)
  have htombs := congrArg State.tombstones (attempt_frame h)
  cases op with
  | enroll =>
    rcases map_fst_eq_ok.mp h with ⟨_, hok⟩
    exact Or.inl (.enroll hok)
  | pause => exact Or.inl (.pause h)
  | drain => exact Or.inl (.drain h)
  | forget => exact Or.inl (.forget h)
  | permitReenrollment => exact Or.inl (.permit h)
  | _ => exact Or.inr ⟨haccs, htombs⟩

variable {input : Enrollment}

theorem quarantine_owners {reason : QuarantineReason} (h : s.quarantine input reason = .ok next) :
    next.accounts = s.accounts ∧ next.tombstones = s.tombstones := by
  rcases quarantine_inv h with rfl | ⟨_, _, rfl⟩
  · exact ⟨rfl, rfl⟩
  · exact ⟨rfl, rfl⟩

theorem admitIdentity_owners
    (h : s.admitIdentity input = .ok (next, out)) : next.tombstones = s.tombstones ∧
      (next.accounts.map Account.id = s.accounts.map Account.id ∨
        out.status = .enrolled ∧
          next.accounts.map Account.id = s.accounts.map Account.id ++ [input.accountId]) := by
  unfold admitIdentity at h
  split at h
  · rename_i i existing hentry
    split at h
    · cases h
      exact ⟨rfl, .inl rfl⟩
    · simp only [ok_iff, Prod.mk.injEq] at h
      rcases h with ⟨_, _, hnext, _⟩
      rw [<- hnext]
      exact ⟨rfl, .inl (map_set_of_eq (firstEntry_eq_some hentry).1 rfl)⟩
  · simp only [ok_iff, appendOwned_eq_ok, Prod.mk.injEq] at h
    rcases h with ⟨_, ⟨_, _, rfl⟩, hnext, rfl⟩
    rw [<- hnext]
    exact ⟨rfl, .inr ⟨rfl, map_append⟩⟩

theorem enroll_owners {now : Int}
    (h : s.enroll input now = .ok (next, out)) : next.tombstones = s.tombstones ∧
      (next.accounts.map Account.id = s.accounts.map Account.id ∨
        out.status = .enrolled ∧
        (forall tombstone, tombstone ∈ s.tombstones ->
          sameIdentity tombstone.identity input.identity = false) ∧
        next.accounts.map Account.id = s.accounts.map Account.id ++ [input.accountId]) := by
  rcases (enroll_inv h).2.2.2 with ⟨_, _, _, hcase⟩
  rcases hcase with rfl | ⟨_, hunverified⟩ | ⟨_, hconflicting⟩ | ⟨_, _, hfree, hadm⟩
  · exact ⟨rfl, .inl rfl⟩
  · rcases quarantine_owners hunverified with ⟨haccs, htombs⟩
    rw [haccs]
    exact ⟨htombs, .inl rfl⟩
  · rcases quarantine_owners hconflicting with ⟨haccs, htombs⟩
    rw [haccs]
    exact ⟨htombs, .inl rfl⟩
  · rcases admitIdentity_owners hadm with ⟨htombs, hsame | ⟨hstatus, hnew⟩⟩
    · exact ⟨htombs, .inl hsame⟩
    · exact ⟨htombs, .inr ⟨hstatus, hfree, hnew⟩⟩

end State

/-!
## What keeps an identity away
-/

def Event.permits (identity : Identity) (s : State) : Event -> Bool
  | .op (.permitReenrollment permitted sourceId now) =>
    sameIdentity permitted identity && (s.permitReenrollment permitted sourceId now).isOk
  | _ => false

def Event.Reuses (accountId : Bytes) (identity : Identity) (s : State) : Event -> Prop
  | .op (.enroll input now) =>
    input.accountId = accountId ∧ sameIdentity input.identity identity = false ∧
      exists next out, s.enroll input now = .ok (next, out) ∧ out.status = .enrolled
  | _ => False

def Tombstoned (identity : Identity) (s : State) : Prop :=
  exists tombstone, tombstone ∈ s.tombstones ∧
    sameIdentity tombstone.identity identity = true

def State.Refers (s : State) (accountId : Bytes) : Prop :=
  (exists g, g ∈ s.grants ∧ g.accountId = accountId) ∨
    (exists b, b ∈ s.bindings ∧ b.accountId = accountId) ∨
    (exists lease, lease ∈ s.leases ∧ lease.accountId = accountId) ∨
    (exists o, o ∈ s.observations ∧ o.accountId = accountId) ∨
    (exists job, job ∈ s.jobs ∧ job.accountId = accountId)

namespace State

variable {s next : State}

variable {identity : Identity} {accountId : Bytes}

theorem absent_of_tombstoned (hs : WellFormed s) (h : Tombstoned identity s) :
    forall owner, owner ∈ s.accounts -> sameIdentity owner.identity identity = false := by
  rcases h with ⟨tombstone, hin, hsame⟩
  intro owner howner
  have hforgot := (hs.tombstones.each tombstone hin).forgotten owner howner
  rw [sameIdentity_eq_true] at hsame
  rw [sameIdentity_eq_false, <- hsame]
  exact hforgot

section

variable {input : Enrollment} (h : Tombstoned identity s)
    (hsame : sameIdentity input.identity identity = true)
include h hsame

theorem enroll_of_tombstoned {now : Int} {source : Source}
    (hvalid : validate input = .ok ()) (hid : requireId input.accountId = .ok ())
    (hident : requireIdentity input.identity = .ok ())
    (hsource : s.source input.sourceId = some source)
    (hauthorized : sourceAuthorized source now = true)
    (hagrees : providerAgrees source input.identity = true) :
    s.enroll input now = .ok (s, { status := .tombstoned }) := by
  rcases h with ⟨tombstone, hin, htomb⟩
  have hblocked : s.tombstones.any (fun tombstone =>
      sameIdentity tombstone.identity input.identity) = true := by
    rw [any_eq_true]
    refine ⟨tombstone, hin, ?_⟩
    rw [sameIdentity_eq_true] at htomb hsame ⊢
    rw [htomb, hsame]
  simp [enroll, hvalid, hid, hident, hsource, hauthorized, hagrees, hblocked, bind_ok]

theorem enroll_blocked {now : Int} (henroll : s.enroll input now = .ok (next, out)) :
    next = s ∧ out = { status := .tombstoned } := by
  have hparts := henroll
  simp only [enroll, ok_iff, bool_iff] at hparts
  rcases hparts with ⟨_, hvalid, _, hid, _, hident, _, hsource, _, hauthorized, _, hagrees, _⟩
  have hblocked := enroll_of_tombstoned h hsame hvalid hid hident hsource hauthorized hagrees
  rw [henroll, Except.ok.injEq, Prod.mk.injEq] at hblocked
  exact hblocked

end

theorem advance_owners (event : Event) (hs : WellFormed s) :
    ((s.advance event).accounts = s.accounts ∧ (s.advance event).tombstones = s.tombstones) ∨
      exists op, event = .op op ∧ OwnerChange s (s.advance event) op := by
  cases event with
  | restart =>
    unfold advance
    cases hrestore : fromSnapshot s.snapshot with
    | error => exact Or.inl ⟨rfl, rfl⟩
    | ok =>
      rw [(fromSnapshot_frame hs hrestore).2.1]
      exact Or.inl ⟨rfl, rfl⟩
  | op op =>
    cases hatt : s.attempt op with
    | error =>
      rw [advance_error hatt]
      exact Or.inl ⟨rfl, rfl⟩
    | ok =>
      rw [advance_ok hatt]
      rcases attempt_owners hatt with hchange | hkept
      · exact Or.inr ⟨op, rfl, hchange⟩
      · exact Or.inl hkept

/-- Only a permit for the identity takes its tombstones away. -/
theorem tombstoned_advance {event : Event} (hs : WellFormed s)
    (hpermits : event.permits identity s = false) (h : Tombstoned identity s) :
    Tombstoned identity (s.advance event) := by
  rcases h with ⟨tombstone, hin, hsame⟩
  refine ⟨tombstone, ?_, hsame⟩
  rcases advance_owners event hs with ⟨_, hkept⟩ | ⟨_, rfl, hchange⟩
  · rw [hkept]
    exact hin
  · cases hchange with
    | enroll henroll =>
      rw [(enroll_owners henroll).1]
      exact hin
    | pause hpause =>
      rw [(setLifecycle_owners hpause).1]
      exact hin
    | drain hdrain =>
      rw [(setLifecycle_owners hdrain).1]
      exact hin
    | forget hforget =>
      rcases forget_inv hforget with ⟨_, _, _, _, _, hnext⟩
      rw [hnext]
      exact mem_append_left _ hin
    | @permit permitted sourceId now hpermit =>
      rcases permitReenrollment_inv hpermit with ⟨_, hnext⟩
      rw [hnext]
      refine mem_filter.mpr ⟨hin, ?_⟩
      have hother : sameIdentity permitted identity = false := by
        simpa [Event.permits, hpermit, Except.toBool] using hpermits
      rw [Bool.not_eq_true', sameIdentity_eq_false]
      rw [sameIdentity_eq_true] at hsame
      rw [sameIdentity_eq_false] at hother
      rw [hsame]
      exact fun heq => hother heq.symm

theorem tombstoned_forget {owner : Account} (hs : WellFormed s)
    (howner : s.account accountId = some owner) (h : s.forget accountId = .ok next) :
    Tombstoned owner.identity next := by
  rcases forget_inv h with ⟨ai, found, hentry, _, _, rfl⟩
  have hfound : found = owner := by
    rw [account, recordAt, show recordEntry Account.id s.accounts accountId = some (ai, found)
      from hentry] at howner
    exact Option.some.inj howner
  have hin := (recordAt_eq_some howner).1
  have hlinked := (hs.accounts.each owner hin).linked
  rcases exists_mem_of_ne_nil _ hlinked with ⟨sourceId, hsource⟩
  rw [hfound]
  refine ⟨{ identity := owner.identity, sourceId }, ?_, ?_⟩
  · exact mem_append_right _ (mem_map.mpr ⟨sourceId, hsource, rfl⟩)
  · exact sameIdentity_eq_true.mpr rfl

/-!
## The account id
-/

theorem owner_of_refers (hs : WellFormed s) (hid : accountId ≠ []) (h : s.Refers accountId) :
    accountId ∈ s.accounts.map Account.id := by
  have hgranted : forall g, g ∈ s.grants -> g.accountId = accountId ->
      accountId ∈ s.accounts.map Account.id := by
    intro g hg heq
    rcases (hs.grants.each g hg).owned with ⟨owner, howner, howned, _⟩
    exact mem_map.mpr ⟨owner, howner, howned.trans heq⟩
  rcases h with ⟨g, hg, heq⟩ | ⟨b, hb, heq⟩ | ⟨lease, hlease, heq⟩ | ⟨o, ho, heq⟩ | ⟨job, hjob, heq⟩
  · exact hgranted g hg heq
  · rcases (hs.bindings.each b hb).granted with ⟨g, hg, _, hacct, _⟩
    exact hgranted g hg (hacct.trans heq)
  · rcases (hs.leases.each lease hlease).bound with ⟨b, hb, _, hfol⟩
    simp only [leaseFollows, bool_iff] at hfol
    rcases (hs.bindings.each b hb).granted with ⟨g, hg, _, hacct, _⟩
    exact hgranted g hg (hacct.trans (hfol.1.1.1.2.trans heq))
  · rcases (hs.observations.each o ho).owned with ⟨owner, howner, howned⟩
    exact mem_map.mpr ⟨owner, howner, howned.trans heq⟩
  · rcases (hs.jobs.each job hjob).owned with hempty | ⟨owner, howner, howned⟩
    · exact absurd (heq.symm.trans hempty) hid
    · exact mem_map.mpr ⟨owner, howner, howned.trans heq⟩

/-- An account id comes back by an enrollment of another identity only. -/
theorem owner_advance {event : Event} (hs : WellFormed s) (htombstoned : Tombstoned identity s)
    (h : accountId ∈ (s.advance event).accounts.map Account.id) :
    accountId ∈ s.accounts.map Account.id ∨ event.Reuses accountId identity s := by
  rcases advance_owners event hs with ⟨hkept, _⟩ | ⟨_, rfl, hchange⟩
  · rw [hkept] at h
    exact Or.inl h
  · cases hchange with
    | @enroll input now out henroll =>
      rcases (enroll_owners henroll).2 with hsame | ⟨hstatus, hfree, hnew⟩
      · rw [hsame] at h
        exact Or.inl h
      · rw [hnew, mem_append, mem_singleton] at h
        rcases h with hold | hid
        · exact Or.inl hold
        · rcases htombstoned with ⟨tombstone, hin, hident⟩
          have hother := hfree tombstone hin
          rw [sameIdentity_eq_true] at hident
          rw [sameIdentity_eq_false, hident] at hother
          refine Or.inr ⟨hid.symm, ?_, _, out, henroll, hstatus⟩
          rw [sameIdentity_eq_false]
          exact fun heq => hother heq.symm
    | pause hpause =>
      rw [(setLifecycle_owners hpause).2] at h
      exact Or.inl h
    | drain hdrain =>
      rw [(setLifecycle_owners hdrain).2] at h
      exact Or.inl h
    | forget hforget =>
      rcases forget_inv hforget with ⟨ai, _, _, _, _, hnext⟩
      rw [hnext] at h
      have hsublist : ((s.accounts.eraseIdx ai).map Account.id).Sublist
          (s.accounts.map Account.id) := (eraseIdx_sublist _ _).map _
      exact Or.inl (hsublist.subset h)
    | permit hpermit =>
      rcases permitReenrollment_inv hpermit with ⟨_, hnext⟩
      rw [hnext] at h
      exact Or.inl h

/-- The identity is away, and its account id too unless it was reused. -/
structure Away (accountId : Bytes) (identity : Identity) (start s : State)
    (events : List Event) : Prop where
  wellFormed : WellFormed s
  tombstoned : Tombstoned identity s
  reused : accountId ∈ s.accounts.map Account.id ->
    exists before event after, events = before ++ event :: after ∧
      event.Reuses accountId identity (run advance start before)

theorem away_run {start : State} (hstart : Away accountId identity start start [])
    (events : List Event)
    (hpermits : AllSteps advance (fun s event => event.permits identity s = false) start events) :
    Away accountId identity start (run advance start events) events := by
  -- The reuse is found at the end of the run, so the events are taken from there.
  induction events using List.reverseRecOn with
  | nil => exact hstart
  | append_singleton earlier event ih =>
    rcases allSteps_concat.mp hpermits with ⟨hearlier, hevent⟩
    have haway := ih hearlier
    rw [run_append]
    constructor
    · exact wellFormed_advance event haway.wellFormed
    · exact tombstoned_advance haway.wellFormed hevent haway.tombstoned
    · intro hid
      rcases owner_advance haway.wellFormed haway.tombstoned hid with hold | hreuses
      · rcases haway.reused hold with ⟨before, found, after, rfl, hreuses⟩
        refine ⟨before, found, after ++ [event], ?_, hreuses⟩
        rw [append_assoc, cons_append]
      · exact ⟨earlier, event, [], rfl, hreuses⟩

theorem away_forget {owner : Account} (hs : WellFormed s)
    (howner : s.account accountId = some owner) (h : s.forget accountId = .ok next) :
    Away accountId owner.identity next next [] where
  wellFormed := wellFormed_forget hs h
  tombstoned := tombstoned_forget hs howner h
  reused hid := by
    rcases forget_inv h with ⟨_, _, hentry, _, _, rfl⟩
    rcases mem_map.mp hid with ⟨_, hother, heq⟩
    rcases recordEntry_eq_some hentry with ⟨hat, hfound⟩
    have hne := key_ne_of_mem_eraseIdx hs.accounts.distinct hat hother
    exact absurd (heq.trans hfound.symm) hne

end State

/-- After an account is forgotten, and until its identity is permitted again, the
identity has no account and cannot get one, and no record refers to the account id
unless another identity was enrolled under it. -/
theorem forgotten_identities_stay_forgotten {s forgotten : State} {accountId : Bytes}
    {owner : Account} {events : List Event} (hs : Library.Reachable State.advance State.init s)
    (howner : s.account accountId = some owner) (hforget : s.forget accountId = .ok forgotten)
    (hpermits : AllSteps State.advance
      (fun s event => event.permits owner.identity s = false) forgotten events) :
    (forall account, account ∈ (run State.advance forgotten events).accounts ->
      sameIdentity account.identity owner.identity = false) ∧
    (forall input now, sameIdentity input.identity owner.identity = true ->
      (forall next out, (run State.advance forgotten events).enroll input now = .ok (next, out) ->
        next = run State.advance forgotten events ∧ out = { status := .tombstoned }) ∧
      (forall source, validate input = .ok () -> requireId input.accountId = .ok () ->
        requireIdentity input.identity = .ok () ->
        (run State.advance forgotten events).source input.sourceId = some source ->
        State.sourceAuthorized source now = true ->
        State.providerAgrees source input.identity = true ->
        (run State.advance forgotten events).enroll input now =
          .ok (run State.advance forgotten events, { status := .tombstoned }))) ∧
    ((run State.advance forgotten events).Refers accountId ->
      exists before event after, events = before ++ event :: after ∧
        event.Reuses accountId owner.identity (run State.advance forgotten before)) := by
  have hwell : WellFormed s := reachable_invariant
    (fun t event ht => wellFormed_advance event ht) wellFormed_init hs
  have haway := away_run (away_forget hwell howner hforget) events hpermits
  have hid : accountId ≠ [] := by
    rcases recordAt_eq_some howner with ⟨hin, rfl⟩
    have hreq := (hwell.accounts.each owner hin).id
    intro hempty
    rw [hempty] at hreq
    cases hreq
  refine ⟨absent_of_tombstoned haway.wellFormed haway.tombstoned, ?_, ?_⟩
  · intro input now hsame
    constructor
    · intro next out henroll
      exact enroll_blocked haway.tombstoned hsame henroll
    · intro source hvalid hinput hident hsource hauthorized hagrees
      exact enroll_of_tombstoned haway.tombstoned hsame hvalid hinput hident hsource
        hauthorized hagrees
  · intro hrefers
    exact haway.reused (owner_of_refers haway.wellFormed hid hrefers)

def annIdentity : Identity :=
  { provider := [112], issuer := [105], subject := [97], verified := true }

def annState : State :=
  run State.advance State.init
    [.op (.connectSource { id := [115], kind := .oauth }),
      .op (.enroll { accountId := [120], sourceId := [115], identity := annIdentity } 0)]

/-- Ann tries to come back, the daemon restarts, and Bob gets the account id. -/
def reusedEvents : List Event :=
  [.op (.enroll { accountId := [121], sourceId := [115], identity := annIdentity } 1), .restart,
    .op (.enroll { accountId := [120], sourceId := [115],
                   identity := { annIdentity with subject := [98] } } 2)]

theorem forgotten_identities_of_reusedEvents :
    exists forgotten, annState.forget [120] = .ok forgotten ∧
      (run State.advance forgotten reusedEvents).accounts.length = 1 ∧
      forall account, account ∈ (run State.advance forgotten reusedEvents).accounts ->
        sameIdentity account.identity annIdentity = false := by
  have hforget : Succeeds (annState.forget [120]) := by decide
  have howner : annState.account [120] =
      some { id := [120], identity := annIdentity, sourceIds := [[115]] } := by
    decide
  have hreach : Library.Reachable State.advance State.init annState := ⟨_, rfl⟩
  have hforgot := eq_ok_getD hforget State.init
  refine ⟨_, hforgot, by decide, ?_⟩
  exact (forgotten_identities_stay_forgotten hreach howner hforgot (by decide)).1

end Omux.Domain
