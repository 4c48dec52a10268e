import Omux.Domain.RestoreExact

/-!
# Replaying the observation list

A restart feeds the stored observations through `observe` again, in list order.
`observe` replaces in place, so a sample can end up in front of records that were appended
before it; the replay then meets them in the other order.
-/

namespace Omux.Domain

open Library List State

/-- No record meets an earlier one that it would replace or retire. -/
def InOrder (observations : List Observation) : Prop :=
  observations.Pairwise (fun earlier later =>
    supersedes earlier later = false ∧ retires later earlier = false)

theorem retires_self (o : Observation) : retires o o = false := by
  simp [retires]

theorem retireOlderRejections_eq_self {observations : List Observation} {input : Observation}
    (h : forall o, o ∈ observations -> retires input o = false) :
    retireOlderRejections observations input = observations := by
  apply filter_eq_self.mpr
  intro o ho
  simp [h o ho]

namespace State

variable {s next : State} {input : Observation}

/-!
## Replay of an ordered list
-/

theorem observe_append (hvalid : validateObservation input = .ok ())
    (howner : exists owner, owner ∈ s.accounts ∧ owner.id = input.accountId)
    (hlen : s.observations.length < maxRecords)
    (hsupersedes : forall o, o ∈ s.observations -> supersedes o input = false)
    (hretires : forall o, o ∈ s.observations -> retires input o = false) :
    s.observe input = .ok { s with observations := s.observations ++ [input] }.changed := by
  rcases howner with ⟨owner, hmem, hid⟩
  rcases recordEntry_isSome hmem hid with ⟨i, x, hentry⟩
  have hnone := firstEntry_eq_none.mpr hsupersedes
  have hstored : validate input = .ok () := by
    rw [validateObservation, bind_eq_ok] at hvalid
    rcases hvalid with ⟨_, hstored, _⟩
    exact hstored
  have hkept : retireOlderRejections (s.observations ++ [input]) input =
      s.observations ++ [input] :=
    retireOlderRejections_eq_self (forall_mem_concat hretires (retires_self input))
  simp [observe, accountEntry, hvalid, hentry, hnone, hstored, hkept,
    appendOwned, bind_ok, decide_eq_false (not_le.mpr hlen)]

theorem replayable_of_inOrder (hok : ObservationsOk s.accounts s.observations)
    (horder : InOrder s.observations) : Replayable s := by
  intro base haccs
  refine foldlM_replay_counted (fun revision before =>
    { base with revision, observations := before }) ?_ base.revision
  intro revision before o _ hsplit
  have ho := hok.each o (mem_of_split hsplit)
  rw [InOrder, hsplit, pairwise_append] at horder
  have hpairs : forall x, x ∈ before -> supersedes x o = false ∧ retires o x = false := by
    intro x hx
    exact horder.right.right x hx o (by simp)
  refine ⟨min (revision + 1) maxU64, observe_append ho.valid ?_ ?_ ?_ ?_⟩
  · rw [haccs]
    exact ho.owned
  · exact length_lt_of_split hsplit hok.bounded
  · intro x hx
    exact (hpairs x hx).left
  · intro x hx
    exact (hpairs x hx).right

/-!
## Only ordered lists replay

Every observation lengthens the list by at most one record, so a replay that
ends in the whole list has appended every record and retired none.
-/

theorem observe_lengthens (h : s.observe input = .ok next) :
    next.observations.length <= s.observations.length ∨
      next.observations = s.observations ++ [input] ∧ forall o, o ∈ s.observations ->
        supersedes o input = false ∧ retires input o = false := by
  rcases observe_inv h with ⟨_, _, ⟨i, _, _, _, ⟨_, rfl⟩ | ⟨_, rfl⟩⟩ | ⟨hnone, _, rfl⟩⟩
  · exact Or.inl le_rfl
  · exact Or.inl ((length_filter_le _ _).trans_eq length_set)
  · rcases (length_filter_le _ _).lt_or_eq with hless | hfull
    · rw [length_append] at hless
      exact Or.inl (Nat.le_of_lt_succ hless)
    · have hkept := length_filter_eq_length_iff.mp hfull
      refine Or.inr ⟨filter_eq_self.mpr hkept, fun o ho => ?_⟩
      exact ⟨firstEntry_eq_none.mp hnone o ho, by simpa using hkept o (mem_append_left _ ho)⟩

theorem length_replay_le {observations : List Observation}
    (h : observations.foldlM observe s = .ok next) :
    next.observations.length <= s.observations.length + observations.length := by
  induction observations generalizing s with
  | nil =>
    cases h
    exact le_rfl
  | cons o _ ih =>
    rw [foldlM_cons, bind_eq_ok] at h
    rcases h with ⟨_, hmid, hrest⟩
    have htail := ih hrest
    rw [length_cons]
    rcases observe_lengthens hmid with _ | ⟨hsame, _⟩
    · omega
    · rw [hsame, length_append, length_singleton] at htail
      omega

theorem inOrder_of_replay {observations : List Observation} (hempty : s.observations = [])
    (h : observations.foldlM observe s = .ok next)
    (hsame : next.observations = observations) : InOrder observations := by
  induction observations using List.reverseRecOn generalizing next with
  | nil => exact List.Pairwise.nil
  | append_singleton before o ih =>
    rw [foldlM_append, bind_eq_ok] at h
    rcases h with ⟨mid, hmid, hlast⟩
    rw [foldlM_cons, bind_eq_ok] at hlast
    rcases hlast with ⟨_, hfinal, hnil⟩
    rw [foldlM_nil, pure_eq_ok] at hnil
    rw [hnil] at hfinal
    have hshort := length_replay_le hmid
    rw [hempty, length_nil] at hshort
    rcases observe_lengthens hfinal with hle | ⟨happend, hpairs⟩
    · rw [hsame, length_append, length_singleton] at hle
      omega
    have hmidSame : mid.observations = before := by
      rw [hsame] at happend
      exact (append_inj_left' happend rfl).symm
    rw [hmidSame] at hpairs
    rw [InOrder, pairwise_append]
    refine ⟨ih hmid hmidSame, pairwise_singleton _ _, ?_⟩
    intro x hx y hy
    rw [mem_singleton.mp hy]
    exact hpairs x hx

/-- A well-formed state replays its observations iff they are in order. -/
theorem replayable_iff_inOrder (hok : ObservationsOk s.accounts s.observations) :
    Replayable s ↔ InOrder s.observations := by
  constructor
  · intro hreplay
    rcases hreplay s rfl with ⟨_, hfold⟩
    exact inOrder_of_replay rfl hfold rfl
  · exact replayable_of_inOrder hok

/-- A restart gives the state back exactly if the observations stand in replay order. -/
theorem restart_exact_iff_inOrder (events : List Event) :
    fromSnapshot (run advance init events).snapshot = .ok (run advance init events) ↔
      InOrder (run advance init events).observations := by
  have hs := wellFormed_events events
  constructor
  · intro hrestore
    rcases fromSnapshot_frame hs hrestore with ⟨_, _, _, _, hempty, hfold, hsame⟩
    exact inOrder_of_replay hempty hfold hsame
  · intro horder
    exact fromSnapshot_of_wellFormed hs ((replayable_iff_inOrder hs.observations).mpr horder)

/-!
## Operations that keep the order
-/

theorem inOrder_insert {before after : List Observation} (horder : InOrder (before ++ after))
    (hbefore : forall o, o ∈ before -> supersedes o input = false)
    (hafter : forall o, o ∈ after -> retires input o = false ->
      supersedes input o = false ∧ retires o input = false) :
    InOrder (retireOlderRejections (before ++ input :: after) input) := by
  have hself : (input :: after).filter (fun o => !retires input o) =
      input :: after.filter (fun o => !retires input o) :=
    filter_cons_of_pos (by simp [retires_self])
  have hkept := List.Pairwise.filter (fun o => !retires input o) horder
  rw [filter_append, pairwise_append] at hkept
  rcases hkept with ⟨hfirst, hsecond, hacross⟩
  rw [InOrder, retireOlderRejections, filter_append, hself, pairwise_append, pairwise_cons]
  refine ⟨hfirst, ⟨?_, hsecond⟩, ?_⟩
  · intro o ho
    rcases mem_filter.mp ho with ⟨hmem, hstays⟩
    exact hafter o hmem (by simpa using hstays)
  · intro a ha b hb
    rcases mem_cons.mp hb with rfl | hold
    · rcases mem_filter.mp ha with ⟨hmem, hstays⟩
      exact ⟨hbefore a hmem, by simpa using hstays⟩
    · exact hacross a ha b hold

/--
An accepted sample that replaces a record finds, behind that record, none that it
meets again: each one there is retired by the sample, or neither of the two
replaces or retires the other.
-/
def replacesInOrder (observations : List Observation) (input : Observation) : Bool :=
  match matchedEntry observations input with
  | none => true
  | some (i, existing) =>
    ignoredUnknown existing input || (observations.drop (i + 1)).all (fun later =>
      retires input later || (!supersedes input later && !retires later input))

theorem inOrder_observe (horder : InOrder s.observations)
    (hok : replacesInOrder s.observations input = true)
    (h : s.observe input = .ok next) : InOrder next.observations := by
  rcases observe_inv h with ⟨_, _, hmatched | hnew⟩
  · rcases hmatched with ⟨i, _, hentry, _, hignored | hrepl⟩
    · rw [hignored.right]
      exact horder
    · rcases firstEntry_split hentry with ⟨_, after, hsplit, hlen, _, hfirst⟩
      have hdrop : s.observations.drop (i + 1) = after := by
        rw [hsplit, <- hlen]
        simp
      simp only [replacesInOrder, hentry, hrepl.left, hdrop, Bool.false_or, all_eq_true,
        Bool.or_eq_true, bool_iff] at hok
      rw [hrepl.right]
      rw [hsplit, <- hlen, set_at_split]
      rw [hsplit] at horder
      apply inOrder_insert ?_ hfirst
      · intro o ho hstays
        rcases hok o ho with hret | hpair
        · rw [hret] at hstays
          cases hstays
        · exact hpair
      · exact horder.sublist (List.Sublist.append_left (sublist_cons_self _ _) _)
  · rcases hnew with ⟨hnone, _, rfl⟩
    apply inOrder_insert
    · rw [append_nil]
      exact horder
    · exact firstEntry_eq_none.mp hnone
    · nofun

/-- Each sample of a batch is checked in the staged state that it meets. -/
def batchInOrder : State -> List Observation -> Bool
  | _, [] => true
  | staged, input :: rest =>
    match staged.observe input with
    | .ok after => replacesInOrder staged.observations input && batchInOrder after rest
    | .error _ => true

theorem inOrder_batch {input : List Observation} (horder : InOrder s.observations)
    (hok : batchInOrder s input = true)
    (h : input.foldlM observe s = .ok next) : InOrder next.observations := by
  induction input generalizing s with
  | nil =>
    rw [foldlM_nil, pure_eq_ok] at h
    rw [<- h]
    exact horder
  | cons o _ ih =>
    rw [foldlM_cons, bind_eq_ok] at h
    rcases h with ⟨_, hmid, hrest⟩
    simp only [batchInOrder, hmid, bool_iff] at hok
    exact ih (inOrder_observe horder hok.left hmid) hok.right hrest

/-- No accepted sample is put in front of a record that it meets again. -/
def opInOrder (s : State) : Op -> Bool
  | .observe input =>
    match s.observe input with
    | .ok _ => replacesInOrder s.observations input
    | .error _ => true
  | .observeBatch input =>
    match s.observeBatch input with
    | .ok _ => batchInOrder s.staging input
    | .error _ => true
  | _ => true

theorem inOrder_attempt {op : Op} (horder : InOrder s.observations)
    (hok : s.opInOrder op = true) (h : s.attempt op = .ok next) : InOrder next.observations := by
  cases attempt_observations h with
  | inr hsame =>
    rw [hsame]
    exact horder
  | inl hchange =>
    cases hchange with
    | observe hobserve =>
      simp only [opInOrder, hobserve] at hok
      exact inOrder_observe horder hok hobserve
    | observeBatch hbatch =>
      simp only [opInOrder, hbatch] at hok
      rcases observeBatch_inv hbatch with rfl | hstaged
      · exact horder
      · rcases hstaged with ⟨_, hfold, hnext⟩
        have hstart : InOrder s.staging.observations := horder
        have hkept := inOrder_batch hstart hok hfold
        rw [hnext]
        exact hkept
    | prune hprune =>
      rcases pruneObservations_inv hprune with rfl | rfl
      · exact horder
      · exact horder.sublist (pruneLoop_sublist _ [] s.observations)
    | forget hforget =>
      rcases forget_inv hforget with ⟨_, _, _, _, _, hnext⟩
      rw [hnext]
      exact horder.filter _

/-!
## Runs
-/

/-- What `fromSnapshot` does with the observations: the same accounts, no record. -/
def replayObservations (s : State) : Result State :=
  s.observations.foldlM observe { s with observations := [] }

/-- A run that never puts a sample in front of one that it meets again. -/
theorem replay_of_ordered_run (ops : List Op)
    (h : AllSteps step (fun s op => s.opInOrder op = true) init ops) :
    (exists restored, replayObservations (run step init ops) = .ok restored ∧
        restored.observations = (run step init ops).observations) ∧
      fromSnapshot (run step init ops).snapshot = .ok (run step init ops) := by
  have hinvariant : WellFormed (run step init ops) ∧ InOrder (run step init ops).observations := by
    apply run_invariant_of (P := fun mid : State =>
      WellFormed mid ∧ InOrder mid.observations) ?_ h
      ⟨wellFormed_init, List.Pairwise.nil⟩
    intro mid op hok hmid
    refine ⟨wellFormed_step op hmid.left, ?_⟩
    unfold step
    cases hatt : mid.attempt op with
    | ok _ => exact inOrder_attempt hmid.right hok hatt
    | error _ => exact hmid.right
  have hreplay := replayable_of_inOrder hinvariant.left.observations hinvariant.right
  rcases hreplay _ rfl with ⟨_, hfold⟩
  exact ⟨⟨_, hfold, rfl⟩, fromSnapshot_of_wellFormed hinvariant.left hreplay⟩

def enrolledRun : List Op :=
  [.connectSource { id := [115], kind := .oauth }, .enroll
      { accountId := [97], sourceId := [115], identity :=
          { provider := [112], issuer := [105], subject := [117], verified := true } } 0]

def bucketSample (windowStart windowEnd observedAt expiresAt : Int) : Observation :=
  { accountId := [97], resource := { kind := [99] }, bucketId := [98],
    remaining := F64.one, windowStart, windowEnd,
    observedAt, expiresAt, provenance := .providerApi }

def renewedRun : List Op :=
  enrolledRun ++ [.observe (bucketSample 0 100 10 1000), .observe (bucketSample 100 200 20 1000),
      .observe (bucketSample 100 200 60 1000)]

theorem replay_of_renewedRun : (run step init renewedRun).observations.length = 2 ∧
      (exists restored, replayObservations (run step init renewedRun) = .ok restored ∧
          restored.observations = (run step init renewedRun).observations) ∧
      fromSnapshot (run step init renewedRun).snapshot =
        .ok (run step init renewedRun) :=
  ⟨by decide +kernel, replay_of_ordered_run renewedRun (by decide +kernel)⟩

/--
The first sample is over when the third one arrives, so the third one takes its
place, in front of an older sample of its own window.
-/
def overtakenRun : List Op :=
  enrolledRun ++ [.observe (bucketSample 0 100 10 50), .observe (bucketSample 100 200 20 1000),
      .observe (bucketSample 100 200 60 1000)]

theorem replay_overtakenRun_conflicts : (run step init overtakenRun).Reachable ∧
      (run step init overtakenRun).observations =
        [bucketSample 100 200 60 1000, bucketSample 100 200 20 1000] ∧
      replayObservations (run step init overtakenRun) = .error .generationConflict ∧
      fromSnapshot (run step init overtakenRun).snapshot = .error .generationConflict :=
  ⟨⟨overtakenRun, rfl⟩, by decide +kernel, by decide +kernel, by decide +kernel⟩

end State

end Omux.Domain
