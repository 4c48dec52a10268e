import Omux.Domain.ObservationReplay

/-!
# Batches of observations

A batch is observed on a staged copy of the list over the same accounts.  `observe`
reads nothing else, so the copy goes through the same lists as the state itself would,
and its revision counts the changes from zero.
-/

namespace Omux.Domain

open Library List

namespace State

variable {s t : State}

theorem observe_staged (haccs : t.accounts = s.accounts)
    (hrecs : t.observations = s.observations) (input : Observation) :
    match s.observe input with
    | .error err => t.observe input = .error err
    | .ok next => (next = s ∧ t.observe input = .ok t) ∨
        exists stored, next = { s with observations := stored }.changed ∧
          t.observe input = .ok { t with observations := stored }.changed := by
  have hentry : t.accountEntry input.accountId = s.accountEntry input.accountId := by
    rw [accountEntry, accountEntry, haccs]
  unfold observe
  rw [hentry, hrecs]
  cases validateObservation input with
  | error => rfl
  | ok =>
    cases failIf (s.accountEntry input.accountId).isNone DomainError.notFound with
    | error => rfl
    | ok =>
      cases firstEntry (fun existing => supersedes existing input) s.observations with
      | none =>
        cases appendOwned s.observations input with
        | error => rfl
        | ok => exact Or.inr ⟨_, rfl, rfl⟩
      | some entry =>
        simp only
        cases failIf (decide (input.observedAt < entry.2.observedAt))
            DomainError.generationConflict with
        | error err => rfl
        | ok _ =>
          split_ifs with hignored
          · exact Or.inl ⟨rfl, rfl⟩
          · cases replaceOwned s.observations entry.1 input with
            | error => rfl
            | ok => exact Or.inr ⟨_, rfl, rfl⟩

theorem foldlM_observe_staged (input : List Observation)
    (haccs : t.accounts = s.accounts) (hrecs : t.observations = s.observations) :
    match input.foldlM observe s with
    | .error err => input.foldlM observe t = .error err
    | .ok folded => exists changes stored, (changes = 0 -> stored = s.observations) ∧
        folded = changed^[changes] { s with observations := stored } ∧
        input.foldlM observe t = .ok (changed^[changes] { t with observations := stored }) := by
  induction input generalizing s t with
  | nil =>
    refine ⟨0, s.observations, fun _ => rfl, rfl, ?_⟩
    rw [<- hrecs]
    rfl
  | cons o rest ih =>
    have hstep := observe_staged haccs hrecs o
    rw [foldlM_cons, foldlM_cons]
    cases hobserve : s.observe o with
    | error =>
      rw [hobserve] at hstep
      rw [hstep]
      rfl
    | ok =>
      rw [hobserve] at hstep
      rw [bind_ok]
      rcases hstep with ⟨rfl, ht⟩ | ⟨stored, rfl, ht⟩
      · rw [ht]
        exact ih haccs hrecs
      · rw [ht, bind_ok]
        have hrest := @ih { s with observations := stored }.changed
          { t with observations := stored }.changed haccs rfl
        cases hfold : rest.foldlM observe { s with observations := stored }.changed with
        | error =>
          rw [hfold] at hrest
          exact hrest
        | ok =>
          rw [hfold] at hrest
          rcases hrest with ⟨changes, last, _, hfolded, hlast⟩
          refine ⟨changes + 1, last, fun hzero => (Nat.succ_ne_zero _ hzero).elim, ?_, ?_⟩
          · rw [hfolded]
            rfl
          · rw [hlast]
            rfl

theorem iterate_changed_revision (n : Nat) (s : State) (hs : s.revision <= maxU64) :
    changed^[n] s = { s with revision := min (s.revision + n) maxU64 } := by
  induction n generalizing s with
  | zero => rw [Function.iterate_zero_apply, Nat.add_zero, Nat.min_eq_left hs]
  | succ n ih =>
    have hchanged : s.changed.revision = min (s.revision + 1) maxU64 := rfl
    have hle : s.changed.revision <= maxU64 := by exact Nat.min_le_right _ _
    rw [Function.iterate_succ_apply, ih s.changed hle, hchanged]
    have hmin : min (min (s.revision + 1) maxU64 + n) maxU64 =
        min (s.revision + (n + 1)) maxU64 := by omega
    rw [hmin]
    rfl

theorem copy_observations {accounts : List Account} {observations : List Observation}
    (h : ObservationsOk accounts observations) :
    observations.foldlM appendOwned [] = .ok observations := by
  refine foldlM_replay_eq (fun before => before) ?_
  intro before o _ hsplit
  have hmem : o ∈ observations := by
    rw [hsplit]
    exact mem_append_right _ mem_cons_self
  have hvalid := (h.each o hmem).valid
  rw [validateObservation, bind_eq_ok] at hvalid
  rcases hvalid with ⟨_, hvalid, _⟩
  have hlength : before.length < maxRecords := by
    have hbound := h.bounded
    rw [hsplit, length_append, length_cons] at hbound
    omega
  exact appendOwned_eq_ok.mpr ⟨hlength, hvalid, rfl⟩

def published (s folded : State) : State :=
  if folded = s then s
  else { s with observations := folded.observations, revision := s.revision + 1 }

theorem observeBatch_too_long (s : State) {input : List Observation}
    (hlong : maxRecords < input.length) : s.observeBatch input = .error .tooManyRecords := by
  have hsome : input.isEmpty = false := by
    cases input with
    | nil => exact (Nat.not_lt_zero _ hlong).elim
    | cons => rfl
  simp [observeBatch, hsome, hlong, bind_error]

theorem observeBatch_eq_staged (s : State) {input : List Observation}
    (hok : ObservationsOk s.accounts s.observations) (hsome : input.isEmpty = false)
    (hlength : input.length <= maxRecords) :
    s.observeBatch input = (input.foldlM observe s.staging).bind (fun staged =>
      if staged.revision == 0 then .ok s
      else .ok { s with observations := staged.observations }.changed) := by
  have hshort : decide (maxRecords < input.length) = false :=
    decide_eq_false (not_lt.mpr hlength)
  unfold observeBatch
  rw [hsome, hshort, copy_observations hok]
  rfl

theorem published_iterate {changes : Nat} {stored : List Observation}
    (hzero : changes = 0 -> stored = s.observations) (hrevision : s.revision < maxU64)
    (hsame : t.revision = 0) :
    (if (changed^[changes] { t with observations := stored }).revision == 0 then
        Except.ok s
      else Except.ok { s with
        observations := (changed^[changes] { t with observations := stored }).observations
        }.changed) =
      (Except.ok (s.published (changed^[changes] { s with observations := stored }))
        : Result State) := by
  have hstate : s.revision <= maxU64 := Nat.le_of_lt hrevision
  rw [iterate_changed_revision _ { t with observations := stored } (by simp [hsame]),
    iterate_changed_revision _ { s with observations := stored } hstate, published]
  by_cases hchanges : changes = 0
  · have hkept : s.observations = stored := (hzero hchanges).symm
    subst hkept
    simp [hchanges, hsame, Nat.min_eq_left hstate]
  · have hstaged : (min (t.revision + changes) maxU64 == 0) = false := by
      rw [beq_eq_false_iff_ne]
      omega
    have hmoved : ¬ { s with
        observations := stored, revision := min (s.revision + changes) maxU64 } = s := by
      intro heq
      have hrev : min (s.revision + changes) maxU64 = s.revision :=
        congrArg State.revision heq
      omega
    have hnext : min (s.revision + 1) maxU64 = s.revision + 1 := by omega
    simp only [hstaged, hmoved, if_false, Bool.false_eq_true]
    rw [changed, hnext]

/-- A batch fails with its first failing member, or when it is too long, and then
nothing changes; otherwise it publishes the list of the fold in one revision. -/
theorem observeBatch_is_atomic_fold (s : State) (input : List Observation)
    (hs : s.Reachable) (hrev : s.revision < maxU64) :
    match input.foldlM observe s with
    | .error _ => (exists err, s.observeBatch input = .error err) ∧
        s.step (.observeBatch input) = s
    | .ok folded =>
      if maxRecords < input.length then
        (exists err, s.observeBatch input = .error err) ∧
          s.step (.observeBatch input) = s
      else s.observeBatch input = .ok (s.published folded) := by
  have hok := (wellFormed_of_reachable hs).observations
  have hrefused : (exists err, s.observeBatch input = .error err) ->
      (exists err, s.observeBatch input = .error err) ∧ s.step (.observeBatch input) = s := by
    rintro ⟨err, herr⟩
    exact ⟨⟨err, herr⟩, by rw [step, attempt, herr]⟩
  have hfold := @foldlM_observe_staged s s.staging input rfl rfl
  by_cases hlong : maxRecords < input.length
  · have hfails := hrefused ⟨_, s.observeBatch_too_long hlong⟩
    cases input.foldlM observe s with
    | error _ => exact hfails
    | ok _ =>
      simp only [if_pos hlong]
      exact hfails
  · cases hsome : input.isEmpty with
    | true =>
      rw [isEmpty_iff.mp hsome]
      change if maxRecords < 0 then _ else Except.ok s = .ok (s.published s)
      rw [if_neg (Nat.not_lt_zero _), published, if_pos rfl]
    | false =>
      have hstaged := s.observeBatch_eq_staged hok hsome (not_lt.mp hlong)
      cases hresult : input.foldlM observe s with
      | error err =>
        rw [hresult] at hfold
        refine hrefused ⟨err, ?_⟩
        rw [hstaged, hfold]
        rfl
      | ok folded =>
        rw [hresult] at hfold
        rcases hfold with ⟨_, _, hzero, rfl, hlast⟩
        simp only [if_neg hlong]
        rw [hstaged, hlast]
        exact published_iterate hzero hrev rfl

def windowBatch : List Observation :=
  [bucketSample 100 200 20 1000, bucketSample 100 200 60 1000]

theorem observeBatch_publishes_windowBatch :
    windowBatch.foldlM observe (run step State.init enrolledRun) =
        .ok (run step State.init (enrolledRun ++ windowBatch.map .observe)) ∧
      (run step State.init enrolledRun).observeBatch windowBatch =
        .ok ((run step State.init enrolledRun).published
          (run step State.init (enrolledRun ++ windowBatch.map .observe))) := by
  have hfold : windowBatch.foldlM observe (run step State.init enrolledRun) =
      .ok (run step State.init (enrolledRun ++ windowBatch.map .observe)) := by
    decide +kernel
  have hbatch := observeBatch_is_atomic_fold (run step State.init enrolledRun) windowBatch
    ⟨enrolledRun, rfl⟩ (by decide +kernel)
  exact ⟨hfold, hbatch⟩

end State

end Omux.Domain
