import Omux.Actor.View

/-!
# What requests do to the committed authority

Every part of a request is a triple over the authority in memory and the committed one:
it ends with both agreeing on a known authority, or with a poisoned engine over a
database that holds one of the authorities the part may have written.
-/

namespace Omux.Actor

open Library
open Mutation (Platform)
open Admission (Key)

variable {δ γ : Type}

namespace Live

def Quiet (s : Live δ γ) : Prop :=
  s.engine.stagingMutation = false ∧ s.engine.stagedChanges = []

structure Committed (env : Environment δ) (b : Authority) (s : Live δ γ) : Prop where
  saved : SavedOk env s.disk.saved
  authority : s.disk.saved.authority = b

structure Holding (env : Environment δ) (b m : Authority) (s : Live δ γ) : Prop where
  quiet : Quiet s
  committed : Committed env b s
  memory : Stands env m s.frame s

structure Fenced (env : Environment δ) (b : Authority) (s : Live δ γ) : Prop where
  quiet : Quiet s
  committed : Committed env b s
  poisoned : s.engine.poisoned = true

def Settled (env : Environment δ) (b : Authority) (s : Live δ γ) : Prop :=
  Fenced env b s ∨ Holding env b b s

variable {env : Environment δ} {b m : Authority} {s : Live δ γ}

theorem committed_of_settled (h : Settled env b s) : Committed env b s := by
  cases h with
  | inl h => exact h.committed
  | inr h => exact h.committed

theorem quiet_of_settled (h : Settled env b s) : Quiet s := by
  cases h with
  | inl h => exact h.quiet
  | inr h => exact h.quiet

variable {f : Frame δ γ} {s t : Live δ γ}

theorem holding_of_stands (hquiet : Quiet s) (hcomm : Committed env b s) (hdisk : f.disk = s.disk)
    (hstage : f.staging = s.engine.stagingMutation) (hstaged : f.staged = s.engine.stagedChanges)
    (ht : Stands env m f t) : Holding env b m t := by
  have hsame : t.disk = s.disk := (congrArg Frame.disk ht.frame).trans hdisk
  refine ⟨⟨?_, ?_⟩, ⟨?_, ?_⟩, ?_⟩
  · exact ((congrArg Frame.staging ht.frame).trans hstage).trans hquiet.left
  · exact ((congrArg Frame.staged ht.frame).trans hstaged).trans hquiet.right
  · rw [hsame]
    exact hcomm.saved
  · rw [hsame]
    exact hcomm.authority
  · rw [ht.frame]
    exact ht

variable {action : Action (Live δ γ)}

theorem holds_holding {m' : Authority}
    (h : forall f, Holds (Stands env m f) action
      (Stands env m' f) (Stands env m f)) : Holds (Holding env b m) action (Holding env b m')
      (Holding env b m) := by
  intro s hs
  have hrun := h s.frame s hs.memory
  constructor
  · intro hflag
    exact holding_of_stands hs.quiet hs.committed rfl rfl rfl (hrun.left hflag)
  · intro hflag
    exact holding_of_stands hs.quiet hs.committed rfl rfl rfl (hrun.right hflag)

theorem holding_of_written {f f' : Frame δ γ}
    (hstage : f.staging = false) (hstaged : f.staged = [])
    {changes : List γ} (hwritten : Written env m f changes f')
    (hs : Stands env m f' s) : Holding env m m s := by
  rcases hwritten with ⟨saved, hsaved, hauth, _, rfl⟩
  have hframe := hs.frame
  have hdisk : s.disk = f.disk.commit saved changes := congrArg Frame.disk hframe
  have hsavedDisk : s.disk.saved = saved := by
    rw [hdisk]
    rfl
  refine ⟨⟨?_, ?_⟩, ⟨?_, ?_⟩, ?_⟩
  · exact (congrArg Frame.staging hframe).trans hstage
  · exact (congrArg Frame.staged hframe).trans hstaged
  · rw [hsavedDisk]
    exact hsaved
  · rw [hsavedDisk]
    exact hauth
  · rw [hs.frame]
    exact hs

theorem fenced_of_holding (h : Holding env b m s)
    (hpois : s.engine.poisoned = true) : Fenced env b s :=
  ⟨h.quiet, h.committed, hpois⟩

theorem holds_persist_holding (changes : List γ) (outcome : Commit) :
    Holds (Holding env b m) (persist env changes outcome) (Holding env m m)
      (fun s => Holding env b m s ∨
        (Holding env m m s ∧ s.engine.poisoned = true)) := by
  intro s hs
  have hrun := @holds_persist _ _ env _ _ changes outcome hs.quiet.left s hs.memory
  constructor
  · intro hflag
    rcases hrun.left hflag with ⟨f', hwritten, hstands⟩
    exact holding_of_written hs.quiet.left hs.quiet.right hwritten hstands
  · intro hflag
    rcases hrun.right hflag with hkept | hfenced
    · left
      exact holding_of_stands hs.quiet hs.committed rfl rfl rfl hkept
    · right
      rcases hfenced with ⟨hpois, f', hwritten, hstands⟩
      exact ⟨holding_of_written hs.quiet.left hs.quiet.right hwritten hstands, hpois⟩

/-!
## Reading back
-/

theorem holds_keepPoison_restore (readable : Bool) (flag : Bool) :
    Keeps (fun s : Live δ γ => s.engine.poisoned = flag) (restoreCommitted env readable) := by
  apply holds_andThen (holds_check (fun _ h => h) (fun _ h => h))
  apply holds_andThen (M := fun s => s.engine.poisoned = flag)
  · apply holds_update
    · intro s t hs hrun
      rcases Option.map_eq_some_iff.mp hrun with ⟨e, he, rfl⟩
      unfold committedEngine at he
      split at he
      · cases he
      · split at he
        · cases he
          exact hs
        · cases he
    · intro s hs _
      exact hs
  · apply holds_andThen (M := fun s => s.engine.poisoned = flag)
    · apply holds_withValue
      · intro bytes
        apply holds_modify
        intro s hs
        exact hs
      · intro s hs
        exact hs
    · apply holds_andThen (holds_check (fun _ h => h) (fun _ h => h))
      apply holds_withValue
      · intro bytes
        apply holds_modify
        intro s hs
        exact hs
      · intro s hs
        exact hs

/-- After a failed request the memory is the committed one, or the engine is fenced. -/
theorem restoreOrPoison_spec (readable : Bool) (hsaved : SavedOk env s.disk.saved) :
    ((restoreOrPoison env readable s).1.frame = s.frame ∧
        (restoreOrPoison env readable s).1.engine.poisoned = true) ∨
      (((restoreOrPoison env readable s).1.engine.poisoned = true ∨
          (restoreOrPoison env readable s).1.engine.poisoned = s.engine.poisoned) ∧
        Stands env s.disk.saved.authority (Frame.restored s.frame)
          (restoreOrPoison env readable s).1) := by
  have hread := holds_and (holds_restoreCommitted readable hsaved)
    (@holds_keepPoison_restore _ _ env readable s.engine.poisoned) s ⟨rfl, rfl⟩
  unfold restoreOrPoison Action.orElse Action.branch
  rcases hrun : restoreCommitted env readable s with ⟨t, flag⟩
  rw [hrun] at hread
  cases flag with
  | true =>
    rcases hread.left rfl with ⟨hstands, hpoison⟩
    exact Or.inr ⟨.inr hpoison, hstands⟩
  | false =>
    rcases hread.right rfl with ⟨hsame | hstands, _⟩
    · have hts : t = s := hsame
      left
      rw [hts]
      exact ⟨rfl, rfl⟩
    · right
      exact ⟨.inl rfl, hstands.valid, hstands.aligned, hstands.authority, hstands.frame⟩

theorem holds_restoreOrPoison (readable : Bool) :
    Ends (fun s : Live δ γ => Quiet s ∧ Committed env b s) (restoreOrPoison env readable)
      (Settled env b) := by
  intro s hs
  rcases hs with ⟨hquiet, hcomm⟩
  have hsettled : Settled env b (restoreOrPoison env readable s).1 := by
    rcases restoreOrPoison_spec readable hcomm.saved with hkept | hrest
    · rcases hkept with ⟨hframe, hpois⟩
      left
      have hdisk : (restoreOrPoison env readable s).1.disk = s.disk :=
        congrArg Frame.disk hframe
      refine ⟨⟨?_, ?_⟩, ⟨?_, ?_⟩, hpois⟩
      · exact (congrArg Frame.staging hframe).trans hquiet.left
      · exact (congrArg Frame.staged hframe).trans hquiet.right
      · rw [hdisk]
        exact hcomm.saved
      · rw [hdisk]
        exact hcomm.authority
    · rcases hrest with ⟨_, hstands⟩
      rw [hcomm.authority] at hstands
      exact Or.inr (holding_of_stands hquiet hcomm rfl rfl rfl hstands)
  exact ⟨fun _ => hsettled, fun _ => hsettled⟩

theorem holds_restoreOrPoison_fenced (readable : Bool) :
    Keeps (γ := γ) (Fenced env b) (restoreOrPoison env readable) := by
  intro s hs
  have hsettled := (@holds_restoreOrPoison _ _ env _ readable).result ⟨hs.quiet, hs.committed⟩
  have hpois : (restoreOrPoison env readable s).1.engine.poisoned = true := by
    rcases restoreOrPoison_spec readable hs.committed.saved with hkept | hrest
    · exact hkept.right
    · rcases hrest.left with htrue | hsame
      · exact htrue
      · exact hsame.trans hs.poisoned
  have hfenced : Fenced env b (restoreOrPoison env readable s).1 :=
    ⟨quiet_of_settled hsettled, committed_of_settled hsettled, hpois⟩
  exact ⟨fun _ => hfenced, fun _ => hfenced⟩

theorem holds_restoreOrPoison_settled (readable : Bool) :
    Keeps (γ := γ) (Settled env b) (restoreOrPoison env readable) :=
  (holds_restoreOrPoison readable).pre (fun _ h => ⟨quiet_of_settled h, committed_of_settled h⟩)

/-!
## Handlers
-/

theorem holds_foreign {P : Live δ γ -> Prop} {key : Key}
    (h : foreign key = true -> Keeps P action) :
    Keeps P ((Action.check fun _ => foreign key).andThen action) := by
  cases hkind : foreign key with
  | true => exact holds_andThen (holds_check (fun _ hs => hs) (fun _ hs => hs)) (h hkind)
  | false =>
    intro s hs
    exact ⟨fun hflag => by (cases hflag), fun _ => hs⟩

theorem holds_reserveForeign (input : OutcomeIntent) :
    Keeps (Stands env m f) (perform env (.reserveOutcome input)) := by
  apply holds_foreign
  intro hkind
  refine Holds.succeeds (holds_reserveOutcome input) ?_
  intro s hs
  have hne : input.key.kind ≠ .mutation := by simpa [foreign] using hkind
  rw [if_neg hne] at hs
  exact hs.left

theorem holds_releaseForeign (key : Key) :
    Keeps (Stands env m f) (perform env (.releaseOutcome key)) := by
  apply holds_foreign
  intro hkind s hs
  have hrun := @holds_releaseOutcome _ _ env _ _ key s hs
  have hsame : m.release key = m := by
    rw [<- hs.authority]
    exact release_foreign hkind
  rw [hsame] at hrun
  exact hrun

theorem holds_unsettleForeign (key : Key) :
    Keeps (Stands env m f) (perform env (.markIndeterminate key)) := by
  apply holds_foreign
  intro hkind s hs
  have hrun := @holds_unsettleCredit _ _ env _ _ key s hs
  have hsame : m.doubtCredit key = m := by
    rw [<- hs.authority]
    exact doubtCredit_foreign hkind
  rw [hsame] at hrun
  exact hrun

theorem holds_restore_holding (readable : Bool) :
    Keeps (γ := γ) (Holding env b b) (restoreCommitted env readable) := by
  intro s hs
  have hrun := holds_restoreCommitted readable hs.committed.saved s rfl
  rw [hs.committed.authority] at hrun
  have hback : forall t, Stands env b (Frame.restored s.frame) t ->
      Holding env b b t := by
    intro t ht
    exact holding_of_stands hs.quiet hs.committed rfl rfl rfl ht
  refine ⟨fun hflag => hback _ (hrun.left hflag), fun hflag => ?_⟩
  rcases hrun.right hflag with hsame | hstands
  · rw [hsame]
    exact hs
  · exact hback _ hstands

theorem holds_perform (act : Act δ γ) : Keeps (Holding env b b) (perform env act) := by
  cases act with
  | work =>
    apply holds_modify
    intro s hs
    exact ⟨hs.quiet, { hs.committed with }, { hs.memory with frame := rfl }⟩
  | persist changes commit =>
    refine Holds.fails (holds_persist_holding changes commit) ?_
    intro s hs
    rcases hs with hs | hs
    · exact hs
    · exact hs.left
  | reserveOutcome input => exact holds_holding fun f => holds_reserveForeign input
  | releaseOutcome key => exact holds_holding fun f => holds_releaseForeign key
  | markIndeterminate key => exact holds_holding fun f => holds_unsettleForeign key
  | restoreCommitted readable => exact holds_restore_holding readable
  | fence readable =>
    apply holds_andThen (holds_holding fun f => holds_poison)
    exact holds_orElse (holds_restore_holding readable) (holds_skip fun _ hs => hs)

theorem holds_background {credit : Option Key} (act : Act δ γ) :
    Keeps (Holding env b b) (background env credit act) := by
  have hclear : Keeps (γ := γ) (Holding env b b) clearCredit :=
    holds_holding fun f => holds_modify fun s hs =>
      { hs with }
  apply holds_andThen (M := Holding env b b)
  · apply holds_holding
    intro f
    apply holds_modify
    intro s hs
    exact { hs with }
  · apply holds_branch (holds_perform act) hclear
    exact holds_andThen hclear (holds_fail fun _ hs => hs)

/-!
## External mutations
-/

theorem holds_setRest_holding (rest : δ) : Keeps (γ := γ) (Holding env b m) (setRest rest) := by
  apply holds_modify
  intro s hs
  exact ⟨hs.quiet, { hs.committed with }, { hs.memory with frame := rfl }⟩

theorem holds_changeRest {p : Live δ γ -> Bool} {change : Live δ γ -> Option δ} :
    Keeps (Holding env b m) (.onlyIf p (.withValue change setRest)) := by
  apply holds_onlyIf
  · apply holds_withValue
    · intro rest
      exact (holds_setRest_holding rest).pre (fun _ h => h.left)
    · intro s hs
      exact hs.left
  · intro s hs _
    exact hs

theorem holds_reserveMeasurement (r : Request δ) (slot : Nat) :
    Keeps (Stands env m f) (reserveMeasurement env r slot) := by
  apply holds_onlyIf
  · intro s hs
    rcases hs with ⟨hs, _⟩
    unfold Action.withValue
    dsimp only
    cases hrun : s.engine.mutations.tryReserveLifecycleWitness env.platform slot with
    | error => exact ⟨fun hflag => by (cases hflag), fun _ => hs⟩
    | ok result =>
      rcases result with ⟨next, _⟩
      have hnext : Stands env m f
          (s.setEngine { s.engine with mutations := next }) := by
        apply stands_measurement hs
        rcases Mutation.Ledger.tryReserveWitness_updates hs.valid hrun with
          hsame | hupdated
        · exact Or.inl hsame
        · rcases hupdated with ⟨old, written, hup⟩
          exact Or.inr ⟨slot, old, .lifecycle, written, hup⟩
      exact ⟨fun _ => hnext, fun _ => hnext⟩
  · intro s hs _
    exact hs

theorem holds_fitMeasurement (slot : Nat) : Keeps (Stands env m f) (fitMeasurement env slot) := by
  apply holds_onlyIf
  · apply holds_andThen (holds_reserveMaintenance.pre (fun _ h => h.left))
    apply holds_onlyIf
    · apply holds_andThen (holds_check (fun _ h => h.left) (fun _ h => h.left))
      apply holds_andThen (holds_abandonWitness slot)
      exact holds_andThen holds_reserveMaintenance holds_checkUsage
    · intro s hs _
      exact hs
  · intro s hs _
    exact hs

theorem holds_prepareExternal {r : Request δ} {slot : Nat} {e : Entry}
    (hkey : r.key env.platform = e.key env.platform) (hid : r.operationId = e.id) :
    Holds (σ := Live δ γ) (Holding env b (b.start e)) (prepareExternal env r slot)
      (fun s => Holding env (b.enter env.platform e) (b.enter env.platform e) s ∧ e.key
        env.platform ∉ b.credits.map Prod.fst)
      (fun s => (Quiet s ∧ Committed env b s) ∨
        (Fenced env (b.enter env.platform e) s ∧
          e.key env.platform ∉ b.credits.map Prod.fst)) := by
  have hback : forall (m : Authority) (s : Live δ γ), Holding env b m s ->
      (Quiet s ∧ Committed env b s) ∨ (Fenced env (b.enter env.platform e) s ∧
          e.key env.platform ∉ b.credits.map Prod.fst) :=
    fun m s hs => .inl ⟨hs.quiet, hs.committed⟩
  apply holds_andThen ((holds_holding fun f => holds_reserveMeasurement r slot).fails (hback _))
  apply holds_andThen (holds_check (fun _ h => h) (hback _))
  apply holds_andThen (M := fun s =>
    Holding env b (b.enter env.platform e) s ∧ e.key env.platform ∉ b.credits.map Prod.fst)
  · apply holds_withValue
    · intro plan s hs
      have hrun := @holds_reserveOutcome _ _ env _ _
        { key := r.key env.platform, ownerId := r.operationId, provider := r.method
          planBytes := plan.1, planCounts := plan.2 } s hs.memory
      constructor
      · intro hflag
        rcases hrun.left hflag with ⟨hstands, hfresh⟩
        have hadm : (b.start e).reserve (r.key env.platform) r.operationId =
            b.enter env.platform e := by
          rw [hkey, hid]
          rfl
        rw [hadm] at hstands
        rw [hkey] at hfresh
        exact ⟨holding_of_stands hs.quiet hs.committed rfl rfl rfl hstands, hfresh⟩
      · intro hflag
        exact hback _ _ (holding_of_stands hs.quiet hs.committed rfl rfl rfl (hrun.right hflag))
    · exact hback _
  · apply holds_pure
    intro hfresh
    apply holds_andThen ((holds_holding fun f => holds_fitMeasurement slot).fails (hback _))
    apply holds_andThen (holds_changeRest.fails (hback _))
    apply holds_weaken (holds_persist_holding [] r.commit)
    · intro s hs
      exact hs
    · intro s hs
      exact ⟨hs, hfresh⟩
    · intro s hs
      rcases hs with hs | hs
      · exact hback _ s hs
      · exact Or.inr ⟨fenced_of_holding hs.left hs.right, hfresh⟩

theorem holds_completeExternal {c : Handling} {finish : Finish δ} {e : Entry}
    (hkind : c.kind = .external) (hslot : b.records[c.slot]? = some e)
    (hkey : c.key env.platform = e.key env.platform) :
    Holds (σ := Live δ γ) (Holding env b b) (completeRequest env c finish)
      (Holding env (b.settle env.platform c.slot e finish.cached)
        (b.settle env.platform c.slot e finish.cached))
      (fun s => (Quiet s ∧ Committed env b s) ∨
        Fenced env (b.settle env.platform c.slot e finish.cached) s) := by
  have hback : forall (m : Authority) (s : Live δ γ), Holding env b m s ->
      (Quiet s ∧ Committed env b s) ∨ Fenced env (b.settle env.platform c.slot e finish.cached) s :=
    fun m s hs => .inl ⟨hs.quiet, hs.committed⟩
  have hcomp : forall f : Frame δ γ, Holds (Stands env b f)
      (onMutations fun l => l.complete c.slot finish.cached)
      (Stands env (b.replace c.slot (e.complete finish.cached)) f)
      (Stands env b f) := by
    intro f
    refine Holds.succeeds (holds_complete c.slot finish.cached) ?_
    intro s hs
    rcases hs with ⟨_, hfound, _, hstands⟩
    rw [hslot] at hfound
    rw [Option.some.inj hfound]
    exact hstands
  apply holds_andThen (M := Holding env b (b.replace c.slot (e.complete finish.cached)))
  · exact (holds_holding hcomp).fails (hback _)
  · apply holds_andThen (holds_changeRest.fails (hback _))
    apply holds_andThen (M := Holding env b (b.settle env.platform c.slot e finish.cached))
    · apply holds_onlyIf
      · rw [hkey]
        apply holds_weaken (holds_holding fun f => holds_releaseOutcome _)
        · intro s hs
          exact hs.left
        · intro s hs
          exact hs
        · exact hback _
      · intro s hs
        rw [hkind]
        nofun
    · apply holds_andThen (M := Holding env b (b.settle env.platform c.slot e finish.cached))
      · apply holds_modify
        intro s hs
        exact ⟨⟨rfl, hs.quiet.right⟩, { hs.committed with }, { hs.memory with frame := rfl }⟩
      · intro s hs
        have hrun := @holds_persist_holding _ _ env _ _ s.engine.stagedChanges finish.commit s hs
        refine ⟨hrun.left, fun hflag => ?_⟩
        rcases hrun.right hflag with hkept | hfenced
        · exact hback _ _ hkept
        · exact Or.inr (fenced_of_holding hfenced.left hfenced.right)

/-!
### Failures
-/

/-- The same engine up to its stage, its credit and its rest. -/
structure SameMemory (s t : Live δ γ) : Prop where
  disk : t.disk = s.disk
  mutations : t.engine.mutations = s.engine.mutations
  admission : t.engine.admission = s.engine.admission
  intents : t.engine.outcomeIntents = s.engine.outcomeIntents
  poisoned : t.engine.poisoned = s.engine.poisoned

theorem fenced_of_sameMemory (h : SameMemory s t) (hquiet : Quiet t)
    (hs : Fenced env b s) : Fenced env b t := by
  rcases hs.committed with ⟨hsaved, hauth⟩
  rw [<- h.disk] at hsaved hauth
  exact ⟨hquiet, ⟨hsaved, hauth⟩, h.poisoned.trans hs.poisoned⟩

theorem settled_of_sameMemory (h : SameMemory s t) (hquiet : Quiet t)
    (hs : Settled env b s) : Settled env b t := by
  cases hs with
  | inl hs => exact Or.inl (fenced_of_sameMemory h hquiet hs)
  | inr hs =>
    rcases hs.committed with ⟨hsaved, hauth⟩
    rw [<- h.disk] at hsaved hauth
    refine Or.inr ⟨hquiet, ⟨hsaved, hauth⟩, ?_, ?_, ?_, rfl⟩
    · rw [h.mutations]
      exact hs.memory.valid
    · rw [h.admission, h.intents]
      exact hs.memory.aligned
    · rw [Engine.authority, h.mutations, h.admission, h.intents]
      exact hs.memory.authority

theorem holds_poison_holding : Ends (γ := γ) (Holding env b m) poison (Fenced env b) := by
  apply holds_modify
  intro s hs
  exact ⟨hs.quiet, { hs.committed with }, rfl⟩

theorem holds_poison_fenced : Keeps (γ := γ) (Fenced env b) poison := by
  apply holds_modify
  intro s hs
  exact ⟨hs.quiet, { hs.committed with }, rfl⟩

theorem holds_markOrPoison {c : Handling} {e : Entry} (hslot : b.records[c.slot]? = some e) :
    Ends (γ := γ) (Settled env b)
      ((onMutations fun l => l.markIndeterminate c.slot).orElse poison)
      (fun s => Fenced env b s ∨ Holding env b (b.replace c.slot e.doubt) s) := by
  apply holds_or
  · apply holds_orElse (M := Fenced env b)
    · apply holds_onMutations
      · intro s _ hs _
        exact Or.inl ⟨hs.quiet, { hs.committed with }, hs.poisoned⟩
      · intro s hs
        exact hs
    · exact holds_poison_fenced.ends (fun _ h => .inl h)
  · apply holds_orElse (M := Holding env b b)
    · exact (holds_holding fun f => holds_markIndeterminate hslot).succeeds (fun _ h => .inr h)
    · exact holds_poison_holding.ends (fun _ h => .inl h)

theorem holds_whenSound {Q : Live δ γ -> Prop} (haction : Ends (Holding env b m) action Q)
    (hfenced : forall s, Fenced env b s -> Q s) : Ends (fun s => Fenced env b s ∨ Holding env b m s)
      (.onlyIf isSound action) Q := by
  apply holds_onlyIf
  · intro s hs
    rcases hs with ⟨hpois | hholding, hsound⟩
    · rw [isSound, hpois.poisoned] at hsound
      cases hsound
    · exact haction s hholding
  · intro s hs hsound
    rcases hs with hpois | hholding
    · exact hfenced s hpois
    · refine hfenced s (fenced_of_holding hholding ?_)
      simpa [isSound] using hsound

theorem holds_unsettleOrPoison (key : Key) :
    Ends (fun s : Live δ γ => Fenced env b s ∨ Holding env b m s)
      (.onlyIf isSound ((onAdmission fun l => l.markIndeterminate key).orElse poison))
      (fun s => Fenced env b s ∨ Holding env b (m.doubtCredit key) s) := by
  refine holds_whenSound ?_ (fun _ h => .inl h)
  apply holds_orElse (M := Holding env b m)
  · exact (holds_holding fun f => holds_unsettleCredit key).succeeds (fun _ h => .inr h)
  · exact holds_poison_holding.ends (fun _ h => .inl h)

theorem holds_persistOrPoison (commit : Commit) :
    Ends (fun s : Live δ γ => Fenced env b s ∨ Holding env b m s)
      (.onlyIf isSound ((persist env [] commit).orElse poison))
      (fun s => Fenced env b s ∨ Settled env m s) := by
  refine holds_whenSound ?_ (fun _ h => .inl h)
  apply holds_orElse ((holds_persist_holding [] commit).succeeds (fun _ h => .inr (.inr h)))
  apply holds_or
  · exact holds_poison_holding.ends (fun _ h => .inl h)
  · exact (holds_poison_holding.pre (fun _ h => h.left)).ends (fun _ h => .inr (.inl h))

/-- Every way in which a failed external mutation may end. -/
def Failed (env : Environment δ) (b settled fenced : Authority) (s : Live δ γ) : Prop :=
  Fenced env b s ∨ Fenced env settled s ∨ Settled env fenced s

section

variable {c : Handling} {e : Entry} (hkind : c.kind = .external)
    (hslot : b.records[c.slot]? = some e) (hkey : c.key env.platform = e.key env.platform)
include hkind hslot hkey

theorem holds_fenceOutcome {failure : Failure}
    {settled : Authority} :
    Ends (fun s : Live δ γ => (Quiet s ∧ Committed env b s) ∨ Fenced env settled s)
      (fenceOutcome env c failure) (Failed env b settled (b.fence env.platform c.slot e)) := by
  have hinner : Ends (fun s : Live δ γ => Quiet s ∧ Committed env b s)
      ((restoreOrPoison env failure.fenceReadable).andThen <|
        ((onMutations fun l => l.markIndeterminate c.slot).orElse poison).andThen <|
        (Action.onlyIf isSound <|
          (onAdmission fun l => l.markIndeterminate (c.key env.platform)).orElse poison).andThen <|
        .onlyIf isSound <| (persist env [] failure.commit).orElse poison)
      (fun s => Fenced env b s ∨ Settled env (b.fence env.platform c.slot e) s) := by
    rw [hkey]
    -- No part stops: every failure inside is turned into poison.
    have htotal : forall first : Action (Live δ γ), forall s, ((first.orElse poison) s).2 = true :=
      fun first => orElse_total fun _ => rfl
    apply holds_total_andThen (htotal _) (holds_restoreOrPoison failure.fenceReadable)
    apply holds_total_andThen (htotal _) (holds_markOrPoison hslot)
    exact holds_total_andThen (onlyIf_total (htotal _)) (holds_unsettleOrPoison _)
      (holds_persistOrPoison _)
  apply holds_onlyIf
  · intro s hs
    rcases hs with ⟨hopen | hfenced, hsound⟩
    · have hrun := hinner s hopen
      have hweak : forall t : Live δ γ, Fenced env b t ∨
          Settled env (b.fence env.platform c.slot e) t ->
          Failed env b settled (b.fence env.platform c.slot e) t := by
        intro t ht
        rcases ht with ht | ht
        · exact Or.inl ht
        · exact Or.inr (.inr ht)
      exact ⟨fun hflag => hweak _ (hrun.left hflag), fun hflag => hweak _ (hrun.right hflag)⟩
    · rw [isSound, hfenced.poisoned] at hsound
      simp at hsound
  · intro s hs hsound
    rcases hs with hopen | hfenced
    · have hpois : s.engine.poisoned = true := by simpa [hkind, isSound] using hsound
      exact Or.inl ⟨hopen.left, hopen.right, hpois⟩
    · exact Or.inr (.inl hfenced)

theorem holds_failExternal {failure : Failure} {settled : Authority} :
    Ends (fun s : Live δ γ => (Quiet s ∧ Committed env b s) ∨ Fenced env settled s)
      (failRequest env c failure) (Failed env b settled (b.fence env.platform c.slot e)) := by
  have hclear : Keeps (γ := γ) (Failed env b settled (b.fence env.platform c.slot e))
      clearCredit := by
    apply holds_modify
    intro s hs
    have hsame : SameMemory s (s.setEngine { s.engine with activeCredit := none }) :=
      ⟨rfl, rfl, rfl, rfl, rfl⟩
    rcases hs with hs | hs | hs
    · exact Or.inl (fenced_of_sameMemory hsame hs.quiet hs)
    · exact Or.inr (.inl (fenced_of_sameMemory hsame hs.quiet hs))
    · have hquiet : Quiet s := quiet_of_settled hs
      exact Or.inr (.inr (settled_of_sameMemory hsame hquiet hs))
  apply holds_andThen (M := fun s : Live δ γ =>
    (Quiet s ∧ Committed env b s) ∨ Fenced env settled s)
  · apply holds_modify
    intro s hs
    rcases hs with hs | hs
    · exact Or.inl ⟨⟨rfl, rfl⟩, hs.right.saved, hs.right.authority⟩
    · exact Or.inr ⟨⟨rfl, rfl⟩, { hs.committed with }, hs.poisoned⟩
  · apply holds_andThen (holds_fenceOutcome hkind hslot hkey)
    apply holds_andThen hclear
    apply holds_or
    · exact (holds_restoreOrPoison_fenced _).ends (fun _ h => .inl h)
    · apply holds_or
      · exact (holds_restoreOrPoison_fenced _).ends (fun _ h => .inr (.inl h))
      · exact (holds_restoreOrPoison_settled _).ends (fun _ h => .inr (.inr h))

end

/-!
### Success
-/

theorem holds_finishLifecycleWitness (c : Handling) (finish : Finish δ) :
    Ends (γ := γ) (Holding env b b) (finishLifecycleWitness env c finish) (Settled env b) := by
  have habandon : Ends (γ := γ) (Holding env b b)
      ((onMutations fun l => l.abandonLifecycleWitness c.slot).orElse poison)
      (Settled env b) := by
    apply holds_orElse ((holds_holding fun f => holds_abandonWitness c.slot).succeeds
      (fun _ h => .inr h))
    exact holds_poison_holding.ends (fun _ h => .inl h)
  unfold finishLifecycleWitness
  cases finish.captured with
  | none => exact habandon
  | some fact =>
    apply holds_branch (M := Holding env b b) (N := Holding env b b)
    · apply holds_withValue
      · intro revision
        exact holds_holding fun f => holds_setWitnessOnce c.slot fact revision
      · intro s hs
        exact hs
    · apply holds_orElse (M := fun s => Quiet s ∧ Committed env b s)
      · apply holds_weaken (holds_persist_holding [] finish.witnessCommit)
        · intro s hs
          exact hs
        · intro s hs
          exact Or.inr hs
        · intro s hs
          rcases hs with hs | hs
          · exact ⟨hs.quiet, hs.committed⟩
          · exact ⟨hs.left.quiet, hs.left.committed⟩
      · exact holds_restoreOrPoison finish.witnessReadable
    · exact habandon

theorem holds_leave :
    Keeps (γ := γ) (Settled env b) (leaveStaging.andThen clearCredit) := by
  apply holds_andThen (M := Settled env b)
  · apply holds_modify
    intro s hs
    exact settled_of_sameMemory (s := s) ⟨rfl, rfl, rfl, rfl, rfl⟩ ⟨rfl, rfl⟩ hs
  · apply holds_modify
    intro s hs
    have hquiet : Quiet s := quiet_of_settled hs
    exact settled_of_sameMemory (s := s) ⟨rfl, rfl, rfl, rfl, rfl⟩ hquiet hs

theorem holds_succeedExternal (c : Handling) (finish : Finish δ) :
    Ends (γ := γ) (Holding env b b) (succeedRequest env c finish) (Settled env b) := by
  apply holds_andThen (M := Settled env b)
  · apply holds_onlyIf
    · exact (holds_finishLifecycleWitness c finish).pre (fun _ h => h.left)
    · intro s hs _
      exact Or.inr hs
  · exact holds_leave

end Live
end Omux.Actor
