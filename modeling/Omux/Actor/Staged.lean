import Omux.Actor.Requests

/-!
# Local mutations and restarts

While a local mutation runs, every write of its handler is staged.  Its end is one
commit, which holds the completed record together with everything staged; without that
commit the memory is read back.
-/

namespace Omux.Actor

open Library List
open Mutation (Platform)
open Admission (Key)

variable {δ γ : Type}

namespace Live

variable {env : Environment δ} {b m : Authority} {d : Disk δ γ} {e : Entry}

structure Staged (env : Environment δ) (d : Disk δ γ) (m : Authority)
    (s : Live δ γ) : Prop where
  disk : s.disk = d
  staging : s.engine.stagingMutation = true
  memory : Stands env m s.frame s

/-- A local handler is running; it may have read the snapshot back. -/
def Local (env : Environment δ) (d : Disk δ γ) (b : Authority) (e : Entry)
    (s : Live δ γ) : Prop :=
  Staged env d (b.start e) s ∨ Staged env d b s

theorem staged_of_stands {t : Live δ γ} {f : Frame δ γ}
    (hdisk : f.disk = d) (hstage : f.staging = true)
    (ht : Stands env m f t) : Staged env d m t := by
  refine ⟨?_, ?_, ?_⟩
  · exact (congrArg Frame.disk ht.frame).trans hdisk
  · exact (congrArg Frame.staging ht.frame).trans hstage
  · rw [ht.frame]
    exact ht

theorem holds_staged {action : Action (Live δ γ)}
    (h : forall f : Frame δ γ, Keeps (Stands env m f) action) : Keeps (Staged env d m) action := by
  intro s hs
  have hrun := h s.frame s hs.memory
  constructor
  · intro hflag
    exact staged_of_stands hs.disk hs.staging (hrun.left hflag)
  · intro hflag
    exact staged_of_stands hs.disk hs.staging (hrun.right hflag)

theorem holds_restore_staged (readable : Bool) (hsaved : SavedOk env d.saved) :
    Ends (Staged env d m) (restoreCommitted env readable)
      (fun s => Staged env d m s ∨ Staged env d d.saved.authority s) := by
  intro s hs
  have hsavedDisk : SavedOk env s.disk.saved := by
    rw [hs.disk]
    exact hsaved
  have hrun := holds_restoreCommitted readable hsavedDisk s rfl
  rw [hs.disk] at hrun
  have hback : forall t, Stands env d.saved.authority
      (Frame.restored s.frame) t -> Staged env d d.saved.authority t :=
    fun t ht => staged_of_stands hs.disk hs.staging ht
  constructor
  · intro hflag
    exact Or.inr (hback _ (hrun.left hflag))
  · intro hflag
    rcases hrun.right hflag with hsame | hstands
    · left
      rw [hsame]
      exact hs
    · exact Or.inr (hback _ hstands)

theorem holds_perform_staged (act : Act δ γ) (hsaved : SavedOk env d.saved) :
    Ends (Staged env d m) (perform env act)
      (fun s => Staged env d m s ∨ Staged env d d.saved.authority s) := by
  have hkeep : forall action : Action (Live δ γ), Keeps (Staged env d m) action ->
      Ends (Staged env d m) action (fun s => Staged env d m s ∨ Staged env d d.saved.authority s) :=
    fun action h => h.ends (fun _ hs => .inl hs)
  cases act with
  | work =>
    apply hkeep
    apply holds_modify
    intro s hs
    exact ⟨hs.disk, hs.staging, hs.memory.valid, hs.memory.aligned, hs.memory.authority, rfl⟩
  | persist changes commit =>
    apply hkeep
    intro s hs
    have hrun := @holds_persist_staging _ _ env _ _ changes commit hs.staging s hs.memory
    constructor
    · intro hflag
      exact staged_of_stands hs.disk hs.staging (hrun.left hflag)
    · intro hflag
      exact staged_of_stands hs.disk hs.staging (hrun.right hflag)
  | reserveOutcome input => exact hkeep _ (holds_staged fun f => holds_reserveForeign input)
  | releaseOutcome key => exact hkeep _ (holds_staged fun f => holds_releaseForeign key)
  | markIndeterminate key => exact hkeep _ (holds_staged fun f => holds_unsettleForeign key)
  | restoreCommitted readable => exact holds_restore_staged readable hsaved
  | fence readable =>
    show Ends _ (fence env readable) _
    apply holds_andThen (M := Staged env d m)
    · exact (holds_staged fun f => holds_poison).fails (fun _ hs => .inl hs)
    · exact holds_orElse (holds_restore_staged readable hsaved) (holds_skip fun _ hs => hs)

theorem holds_perform_local (act : Act δ γ) (hsaved : SavedOk env d.saved)
    (hb : d.saved.authority = b) : Keeps (Local env d b e) (perform env act) := by
  apply holds_or
  · refine (holds_perform_staged act hsaved).ends (fun s hs => ?_)
    rw [hb] at hs
    exact hs
  · refine (holds_perform_staged act hsaved).ends (fun s hs => ?_)
    rw [hb] at hs
    exact Or.inr (hs.elim id id)

/-!
## The end of a local mutation
-/

theorem replace_started (bytes : Bytes) :
    (b.start e).replace b.records.length (e.complete bytes) = b.start (e.complete bytes) := by
  simp [Authority.replace, Authority.start]

/-- The commit of a local mutation: the completed record with everything staged. -/
def CommitsLocal (env : Environment δ) (b : Authority) (e : Entry) (bytes : Bytes)
    (s t : Live δ γ) : Prop :=
  exists saved, SavedOk env saved ∧
    saved.authority = b.start (e.complete bytes) ∧ saved.rest = s.engine.rest ∧
    t.disk = s.disk.commit saved s.engine.stagedChanges

variable {s : Live δ γ}

theorem complete_local {c : Handling} {finish : Finish δ}
    (hkind : c.kind = .localAtomic) (hslot : c.slot = b.records.length)
    (hs : Local env d b e s) :
    ((completeRequest env c finish s).2 = true ->
      CommitsLocal env b e finish.cached s (completeRequest env c finish s).1 ∧
      Stands env (b.start (e.complete finish.cached)) (completeRequest env c finish s).1.frame
        (completeRequest env c finish s).1) ∧
    ((completeRequest env c finish s).2 = false ->
      (completeRequest env c finish s).1.disk = s.disk ∨
      ((completeRequest env c finish s).1.engine.poisoned = true ∧
        CommitsLocal env b e finish.cached s (completeRequest env c finish s).1)) := by
  -- The new record is the last one, so only the memory that has it can complete it.
  have hcomp : forall a : Authority, (a = b.start e ∨ a = b) -> Holds (Stands env a s.frame)
        (onMutations fun l => l.complete c.slot finish.cached)
        (Stands env (b.start (e.complete finish.cached)) s.frame)
        (fun t => t.disk = s.disk) := by
    intro a ha
    apply holds_weaken (holds_complete c.slot finish.cached)
    · intro t ht
      exact ht
    · intro t ht
      rcases ht with ⟨found, hfound, _, hstands⟩
      rcases ha with ha | ha
      · rw [ha, hslot] at hfound
        have hlast : found = e := by simpa [Authority.start] using hfound.symm
        rw [hlast, ha, hslot, replace_started] at hstands
        exact hstands
      · rw [ha, hslot] at hfound
        simp at hfound
    · intro t ht
      exact congrArg Frame.disk ht.frame
  have hrest : forall a : Authority, (a = b.start e ∨ a = b) ->
      Holds (Stands env a s.frame) (completeRequest env c finish)
        (fun t => CommitsLocal env b e finish.cached s t ∧
          Stands env (b.start (e.complete finish.cached)) t.frame t)
        (fun t => t.disk = s.disk ∨ (t.engine.poisoned = true ∧
          CommitsLocal env b e finish.cached s t)) := by
    intro a ha
    have hwritten : forall (t : Live δ γ) (f' : Frame δ γ),
        Written env (b.start (e.complete finish.cached))
          { s.frame with staging := false } s.engine.stagedChanges f' ->
        Stands env (b.start (e.complete finish.cached)) f' t ->
        CommitsLocal env b e finish.cached s t := by
      intro t f' hw ht
      rcases hw with ⟨saved, hsaved, hauth, hrest, hf'⟩
      refine ⟨saved, hsaved, hauth, hrest, ?_⟩
      have hdisk : t.disk = f'.disk := congrArg Frame.disk ht.frame
      rw [hdisk, hf']
      rfl
    apply holds_andThen ((hcomp a ha).fails (fun _ ht => .inl ht))
    apply holds_andThen (M := Stands env (b.start (e.complete finish.cached)) s.frame)
    · apply holds_onlyIf
      · intro t ht
        rw [hkind] at ht
        exact absurd ht.right (by simp)
      · intro t ht _
        exact ht
    · apply holds_andThen (M := Stands env (b.start (e.complete finish.cached)) s.frame)
      · apply holds_onlyIf
        · intro t ht
          rw [hkind] at ht
          exact absurd ht.right (by decide)
        · intro t ht _
          exact ht
      · apply holds_andThen (M := Stands env
          (b.start (e.complete finish.cached)) { s.frame with staging := false })
        · apply holds_modify
          intro t ht
          refine { ht with frame := ?_ }
          rw [<- ht.frame]
          rfl
        · intro t ht
          have hstaged : t.engine.stagedChanges = s.engine.stagedChanges :=
            congrArg Frame.staged ht.frame
          have hrun := @holds_persist _ _ env _ _ t.engine.stagedChanges finish.commit rfl t ht
          dsimp only
          rw [hstaged] at hrun ⊢
          constructor
          · intro hflag
            rcases hrun.left hflag with ⟨f', hw, hstands⟩
            refine ⟨hwritten _ f' hw hstands, ?_⟩
            rw [hstands.frame]
            exact hstands
          · intro hflag
            rcases hrun.right hflag with hkept | hfenced
            · left
              exact congrArg Frame.disk hkept.frame
            · rcases hfenced with ⟨hpois, f', hw, hstands⟩
              exact Or.inr ⟨hpois, hwritten _ f' hw hstands⟩
  cases hs with
  | inl hs => exact hrest (b.start e) (.inl rfl) s hs.memory
  | inr hs => exact hrest b (.inr rfl) s hs.memory

theorem fail_local {c : Handling} (failure : Failure)
    (hkind : c.kind = .localAtomic) (hsaved : SavedOk env s.disk.saved) :
    (failRequest env c failure s).1.disk = s.disk ∧
      Settled env s.disk.saved.authority (failRequest env c failure s).1 ∧
      (s.engine.poisoned = true -> (failRequest env c failure s).1.engine.poisoned = true) ∧
      ((failRequest env c failure s).1.engine.poisoned = true ∨
        (failRequest env c failure s).1.engine.rest = s.disk.saved.rest) := by
  -- Nothing is fenced: staging ends, the credit is cleared, the memory is read back.
  have hrun : (failRequest env c failure s).1 = (restoreOrPoison env failure.readable (s.setEngine
        { s.engine with
          stagingMutation := false, stagedChanges := [], activeCredit := none })).1 := by
    unfold failRequest Action.andThen Action.branch leaveStaging fenceOutcome
      Action.onlyIf clearCredit
    have hlocal : (Mutation.Kind.localAtomic == Mutation.Kind.external) = false := rfl
    simp [Action.modify, setEngine, hkind]
  rw [hrun]
  generalize hquiet : s.setEngine
    { s.engine with
      stagingMutation := false, stagedChanges := [], activeCredit := none } = q
  have hq : q.disk = s.disk := by
    rw [<- hquiet]
    rfl
  have hqsaved : SavedOk env q.disk.saved := by
    rw [hq]
    exact hsaved
  have hqq : Quiet q := by
    rw [<- hquiet]
    exact ⟨rfl, rfl⟩
  have hsettled := (@holds_restoreOrPoison _ _ env q.disk.saved.authority
    failure.readable).result (s := q) ⟨hqq, hqsaved, rfl⟩
  rw [hq] at hsettled
  rcases restoreOrPoison_spec failure.readable hqsaved with hkept | hrestored
  · rcases hkept with ⟨hframe, hpois⟩
    exact ⟨(congrArg Frame.disk hframe).trans hq, hsettled, fun _ => hpois, .inl hpois⟩
  · rcases hrestored with ⟨hpoison, hstands⟩
    have hrest : (restoreOrPoison env failure.readable q).1.engine.rest =
        q.disk.saved.rest := congrArg Frame.rest hstands.frame
    rw [hq] at hrest
    refine ⟨(congrArg Frame.disk hstands.frame).trans hq, hsettled, ?_, .inr hrest⟩
    intro hpois
    rcases hpoison with htrue | hsame
    · exact htrue
    · rw [hsame, <- hquiet]
      exact hpois

theorem succeed_local {c : Handling} (finish : Finish δ)
    (hmeasured : c.measured = false) (hsaved : SavedOk env s.disk.saved)
    (hs : Stands env s.disk.saved.authority s.frame s) :
    (succeedRequest env c finish s).1.disk = s.disk ∧
      Settled env s.disk.saved.authority (succeedRequest env c finish s).1 := by
  have hrun : (succeedRequest env c finish s).1 = s.setEngine
      { s.engine with
        stagingMutation := false, stagedChanges := [], activeCredit := none } := by
    unfold succeedRequest Action.andThen Action.branch Action.onlyIf leaveStaging clearCredit
    simp [Action.modify, setEngine, hmeasured]
  rw [hrun]
  exact ⟨rfl, .inr ⟨⟨rfl, rfl⟩, ⟨hsaved, rfl⟩, hs.valid, hs.aligned, hs.authority, rfl⟩⟩

/-!
## Restart
-/

theorem stands_recover {f : Frame δ γ} (recovered : δ -> δ) (hs : Stands env m f s) :
    Stands env m.recover { f with rest := recovered f.rest }
      (s.setEngine (s.engine.recoverAfterRestart recovered)) := by
  refine ⟨Mutation.Ledger.valid_recover hs.valid, ?_, ?_, ?_⟩
  · apply aligned_of_keys hs.aligned _ rfl
    show (s.engine.admission.credits.map Admission.Credit.unsettle).map _ = _
    rw [map_map]
    rfl
  · rw [<- hs.authority]
    simp only [Engine.authority, Engine.recoverAfterRestart, setEngine, Authority.of,
      Authority.recover, Mutation.Ledger.recoverAfterRestart,
      Admission.Ledger.recoverAfterRestart, map_map, Authority.mk.injEq]
    refine ⟨rfl, ?_, trivial⟩
    rw [filterMap_map, map_filterMap]
    apply filterMap_congr
    intro credit _
    exact creditView_unsettle credit
  · rw [<- hs.frame]
    rfl

theorem holds_bootstrap (boot : Boot δ) (hquiet : Quiet s)
    (hs : Committed env b s) : Holds (fun x => x = s) (bootstrap env boot)
      (Holding env b.recover b.recover)
      (fun t => Committed env b t ∨ Committed env b.recover t) := by
  apply holds_andThen (holds_check (fun _ h => h) (fun t ht => .inl (ht ▸ hs)))
  apply holds_andThen (M := Holding env b b.recover)
  · apply holds_update
    · intro x t hx hrun
      rw [hx] at hrun
      rcases Option.map_eq_some_iff.mp hrun with ⟨_, hloaded, ht⟩
      have hstands := committedEngine_inv hs.saved hloaded
      rw [hs.authority] at hstands
      rw [<- ht]
      exact holding_of_stands hquiet hs rfl rfl rfl (stands_recover boot.recovered hstands)
    · intro x hx _
      exact Or.inl (hx ▸ hs)
  · apply holds_andThen ((holds_holding fun f => holds_reserveMaintenance).fails
      (fun _ h => .inl h.committed))
    apply holds_andThen ((holds_holding fun f => holds_checkUsage).fails
      (fun _ h => .inl h.committed))
    refine Holds.fails (holds_persist_holding [] boot.commit) ?_
    intro t ht
    rcases ht with ht | ht
    · exact Or.inl ht.committed
    · exact Or.inr ht.left.committed

end Live
end Omux.Actor
