import Omux.Browser.Reading

/-!
# Operations over all sources

An assertion `H sources` about sources that are in the stored metadata is carried through
commands, permission events and startup when sending and disconnecting one source keep it.
-/

namespace Omux.Browser

open Library List

structure Carried (api : Api) (H : List Source -> World -> Prop) : Prop where
  steady : forall sources, Steady (H sources)
  sublist : forall sources fewer w, H sources w ->
    (forall source, source ∈ fewer -> source ∈ sources) -> H fewer w
  start : forall w, H [] w -> H w.storage.metadata w
  send : forall sources source method, source ∈ sources ->
    Keeps (H sources) (api.send source method)
  disconnectSource : forall source sources, source.sourceId ∉ sources.map Source.sourceId ->
    Meets (H (source :: sources)) (api.disconnectSource source) (fun _ => H sources)
      (fun _ => H sources) (H sources)

section

variable {api : Api} {H : List Source -> World -> Prop} {entries sources : List Source}
  {source : Source} {w : World}

section

variable (h : Carried api H)
include h

theorem Carried.none {w : World} (hw : H sources w) : H [] w :=
  h.sublist sources [] w hw nofun

theorem Carried.tail {w : World} (hw : H (source :: sources) w) : H sources w :=
  h.sublist (source :: sources) sources w hw (fun _ hmem => mem_cons_of_mem _ hmem)

theorem Carried.metadata : Meets (H []) api.metadata
      (fun entries w => H entries w ∧ w.storage.metadata = entries ∧
        (entries.map Source.sourceId).Nodup) (fun _ => H []) (H []) := by
  refine (metadata_meets api (h.steady [])).post ?_ (fun _ _ hw => hw) (fun _ hw => hw)
  intro entries w hw
  rcases hw with ⟨hheld, hentries, hvalid⟩
  have hstart := h.start w hheld
  rw [hentries] at hstart
  refine ⟨hstart, hentries, ?_⟩
  simp only [validMetadata, Bool.and_eq_true, decide_eq_true_eq] at hvalid
  exact hvalid.1.2

theorem Carried.capture (hmem : source ∈ sources) (adapter : Adapter) :
    Keeps (H sources) (api.capture source adapter) := by
  unfold Api.capture
  split_ifs with hexport
  · refine keeps_bind (keeps_await api (h.steady sources) _) (fun _ => ?_)
    exact h.send sources source .importGrant hmem
  · exact keeps_pure ()

theorem Carried.disconnect (adapter : Adapter) :
    Leaves (H entries) (api.disconnect adapter entries) (H []) := by
  refine meets_bind ((selectSource_meets api (h.steady entries) adapter _).post
    (fun _ _ hw => hw) (fun _ _ => h.none) (fun _ => h.none))
    (fun source => ?_)
  refine meets_bind (Q := fun _ => H []) ?_ (fun _ => ?_)
  · refine (h.disconnectSource source [] (by simp)).pre ?_
    intro w hw
    refine h.sublist entries [source] w hw.1 ?_
    intro _ hentry
    rw [mem_singleton.mp hentry]
    exact (mem_filter.mp hw.2).1
  · refine keeps_bind (keeps_metadata api (h.steady [])) (fun _ => ?_)
    split_ifs with hsome
    · exact keeps_pure ()
    · exact keeps_await api (h.steady []) _

theorem Carried.collectEach {more : Action Bool} {body : Source -> Action (Option Code)}
    (hmore : forall sources, Keeps (H sources) more)
    (hbody : forall source rest, source.sourceId ∉ rest.map Source.sourceId ->
      Meets (H (source :: rest)) (body source) (fun _ => H rest) (fun _ => H []) (H []))
    (hnodup : (entries.map Source.sourceId).Nodup) :
    Leaves (H entries) (Task.collectEach more body entries) (H []) := by
  refine (meets_collectEach (I := fun rest w =>
      (rest.map Source.sourceId).Nodup ∧ H rest w) (Q := H [])
      ?_ ?_ ?_ entries).pre (fun _ hw => ⟨hnodup, hw⟩)
  · intro rest w hw
    have hrun := hmore rest w hw.2
    revert hrun
    rcases more w with ⟨outcome, t⟩
    cases outcome with
    | done => exact fun ht => ⟨hw.1, ht⟩
    | failed | killed => exact h.none
  · intro source rest w hw
    have hcons := nodup_cons.mp hw.1
    have hrun := hbody source rest hcons.1 w hw.2
    revert hrun
    rcases body source w with ⟨outcome, t⟩
    cases outcome with
    | done => exact fun ht => ⟨hcons.2, ht⟩
    | failed | killed => exact id
  · intro rest w hw
    exact h.none hw.2

theorem Carried.collectDisconnect (hnew : source.sourceId ∉ sources.map Source.sourceId) :
    Meets (H (source :: sources)) (Task.collect (api.disconnectSource source))
      (fun _ => H sources) (fun _ => H []) (H []) := by
  apply meets_collect
  exact (h.disconnectSource source sources hnew).post (fun _ _ hw => hw)
    (fun _ _ hw => hw) (fun _ => h.none)

theorem Carried.removePermissions (origins : List String) (cookies : Bool) :
    Keeps (H []) (api.removePermissions origins cookies) := by
  refine meets_bind h.metadata (fun _ => ?_)
  refine meets_bind (Q := fun _ => H []) ?_ (fun failure => keeps_failWith failure)
  intro w hw
  refine h.collectEach (fun _ => keeps_pure true) ?_ hw.2.2 w hw.1
  intro _ _ hnew
  refine meets_bind (keeps_into (keeps_orFail _ _) (fun _ => h.none)) (fun _ => ?_)
  split_ifs with hremoved
  · exact h.collectDisconnect hnew
  · exact meets_pure (fun _ => h.tail)

end

theorem keeps_stays {P : World -> Prop} (h : Steady P) (states : Dictionary SourceState)
    (entry : Source) : Keeps P (api.stays states entry) := by
  unfold Api.stays
  split_ifs with hmarked
  · exact keeps_pure _
  · exact keeps_await api h _

theorem keeps_budgeted {P : World -> Prop} (h : Steady P) {body : Action Unit}
    (hbody : Keeps P body) (cleanup : Memory -> Memory) :
    Keeps P (Task.always body (World.mapMemory cleanup)) := by
  apply meets_always
  exact hbody.post (fun _ w hw => h.memory w _ hw) (fun _ w hw => h.memory w _ hw) (fun _ hw => hw)

theorem Carried.reconcilePermissions (h : Carried api H) :
    Keeps (H []) api.reconcilePermissions := by
  refine keeps_bind (keeps_newBudget api (h.steady [])) (fun _ => ?_)
  refine keeps_bind (keeps_memory (h.steady []) _) (fun _ => ?_)
  apply keeps_budgeted (h.steady [])
  refine meets_bind h.metadata (fun entries => ?_)
  have hread := (h.steady entries).and (steady_storage (fun storage =>
    storage.metadata = entries ∧ (entries.map Source.sourceId).Nodup))
  refine meets_bind (keeps_into (keeps_states api hread) (fun _ hw => h.none hw.1))
    (fun states => ?_)
  refine meets_bind (Q := fun _ => H []) ?_ (fun failure => keeps_failWith failure)
  intro w hw
  refine h.collectEach (fun rest => keeps_withinBudget api (h.steady rest)) ?_ hw.2.2 w hw.1
  intro source rest hnew
  refine meets_bind (keeps_into (keeps_stays (h.steady _) states source) (fun _ => h.none))
    (fun granted => ?_)
  cases granted with
  | true => exact meets_pure (fun _ => h.tail)
  | false => exact h.collectDisconnect hnew

theorem Carried.cookieScopeChanged (h : Carried api H) (scope : Api.Scope) :
    Keeps (H []) (api.cookieScopeChanged scope) := by
  refine meets_bind h.metadata (fun entries => ?_)
  have hread := (h.steady entries).and (steady_storage (fun storage =>
    storage.metadata = entries ∧ (entries.map Source.sourceId).Nodup))
  refine meets_bind (keeps_into (keeps_states api hread) (fun _ hw => h.none hw.1))
    (fun states => ?_)
  refine (meets_forEach (I := H) (E := fun _ => H []) (K := H []) ?_ entries).pre (fun _ hw => hw.1)
  intro source rest
  have hsteady := h.steady (source :: rest)
  refine Meets.weaken (Q := fun _ => H (source :: rest)) (E := fun _ => H (source :: rest))
    (K := H (source :: rest)) ?_ (fun _ hw => hw) (fun _ _ => h.tail) (fun _ _ => h.none)
    (fun _ => h.none)
  refine keeps_bind (keeps_orFail _ _) (fun adapter => ?_)
  by_cases hother : (source.adapter != scope.adapter || source.storeId != scope.storeId) = true
  · rw [if_pos hother]
    exact keeps_pure ()
  · rw [if_neg hother]
    by_cases hmarked : states.get source.sourceId = some .pendingDisconnect
    · rw [if_pos hmarked]
      exact keeps_pure ()
    · rw [if_neg hmarked]
      refine keeps_bind (keeps_await api hsteady _) (fun granted => ?_)
      cases granted with
      | true =>
        cases hremoved : scope.removed with
        | true => exact h.send _ source .reconcile mem_cons_self
        | false => exact h.capture mem_cons_self adapter
      | false => exact keeps_pure ()

theorem reconcileLoop_meets {I R : World -> Prop} (hsteady : Steady I)
    (hout : forall w, I w -> R w) {states : Dictionary SourceState}
    (hbody : forall source adapter, source ∈ entries ->
      Api.skips (states.get source.sourceId) = false ->
      Meets I (api.reconcileSource source adapter .reconcile) (fun _ => I) (fun _ => I) R)
    {ordered : List Source} (hord : forall source, source ∈ ordered -> source ∈ entries) :
    Leaves I (Task.collectEach api.withinBudget (api.reconcileOne entries states) ordered) R := by
  refine (meets_collectEach (I := fun rest w =>
      (forall source, source ∈ rest -> source ∈ entries) ∧ I w)
    (E := fun _ => R) (K := R) (Q := R) ?_ ?_ (fun _ w hw => hout w hw.2) ordered).pre
    (fun _ hw => ⟨hord, hw⟩)
  · intro rest w hw
    have hrun := keeps_into (keeps_withinBudget api hsteady) hout w hw.2
    revert hrun
    rcases api.withinBudget w with ⟨outcome, t⟩
    cases outcome with
    | done => exact fun ht => ⟨hw.1, ht⟩
    | failed | killed => exact id
  · intro source rest w hw
    have hone : Meets I (api.reconcileOne entries states source) (fun _ => I) (fun _ => R)
        R := by
      refine meets_bind (keeps_into (keeps_memory hsteady _) hout) (fun _ => ?_)
      split_ifs with hskip
      · exact meets_pure (fun _ hw => hw)
      · refine meets_bind (keeps_into (keeps_orFail _ _) hout) (fun adapter => ?_)
        refine meets_bind (keeps_into (keeps_await api hsteady _) hout) (fun granted => ?_)
        cases granted with
        | true =>
          apply meets_collect
          exact meets_bind (hbody source adapter (hw.1 source mem_cons_self)
            (by simpa using hskip)) (fun _ => meets_pure (fun _ hw => hw))
        | false => exact meets_pure (fun _ hw => hw)
    have hrun := hone w hw.2
    revert hrun
    rcases api.reconcileOne entries states source w with ⟨outcome, t⟩
    cases outcome with
    | done => exact fun ht => ⟨fun other hother => hw.1 other (mem_cons_of_mem _ hother), ht⟩
    | failed | killed => exact id

theorem Carried.reconcileSources (h : Carried api H) (hloop : forall entries states ordered,
      (forall source, source ∈ ordered -> source ∈ entries) ->
      Leaves (fun w => H entries w ∧ w.storage.states = states)
        (Task.collectEach api.withinBudget (api.reconcileOne entries states) ordered)
        (H [])) : Keeps (H []) api.reconcileSources := by
  refine keeps_bind (meets_read (fun _ hw => hw)) (fun startup => ?_)
  refine keeps_bind (P := H []) ?_ (fun budget => ?_)
  · cases startup with
    | none => exact keeps_newBudget api (h.steady [])
    | some budget => exact keeps_pure budget
  refine keeps_bind (keeps_memory (h.steady []) _) (fun _ => ?_)
  apply keeps_budgeted (h.steady [])
  refine meets_bind (Q := fun entries => H entries) ?_ (fun entries => ?_)
  · exact h.metadata.post (fun _ _ hw => hw.1) (fun _ _ hw => hw) (fun _ hw => hw)
  refine meets_bind ((states_meets api (h.steady entries)).post (fun _ _ hw => hw)
    (fun _ _ => h.none) (fun _ => h.none)) (fun states => ?_)
  refine meets_bind (Q := fun _ w => H entries w ∧ w.storage.states = states)
    (meets_read (fun _ hw => hw)) (fun _ => ?_)
  refine meets_bind (hloop entries states _ ?_) (fun failure => ?_)
  · intro source hsource
    cases mem_append.mp hsource with
    | inl hlater => exact mem_of_mem_drop hlater
    | inr hearlier => exact mem_of_mem_take hearlier
  · refine keeps_bind (keeps_failWith failure) (fun _ => ?_)
    exact keeps_bind (keeps_status api (h.steady []) _) (fun _ => keeps_pure ())

theorem Carried.performCommand (h : Carried api H) {start : World} {command : Api.Command}
    (hstart : H [] start) (hnamed : forall name id adapter, command = .named name id ->
      getAdapter api.allowFixture id = some adapter ->
      Leaves (fun w => w = start.mapMemory (Api.enterFlight adapter.id))
        (api.performNamed name adapter) (H [])) :
    Leaves (fun w => w = start) (api.performCommand command) (H []) := by
  have hsteady := h.steady []
  cases command with
  | health => exact meets_at (keeps_bind (keeps_health api hsteady) (fun _ => keeps_pure _)) hstart
  | invalid => exact meets_at (keeps_fail _) hstart
  | named name id =>
    refine meets_bind (Q := fun adapter w =>
      w = start ∧ getAdapter api.allowFixture id = some adapter) ?_ (fun adapter => ?_)
    · apply meets_orFail
      · intro w adapter hadapt hw
        exact ⟨hw, hadapt⟩
      · intro w hw
        rw [hw]
        exact hstart
    · split_ifs with hstatus
      · refine (keeps_bind (P := H []) (keeps_status api hsteady _) (fun _ => keeps_pure _)).pre ?_
        intro w hw
        rw [hw.1]
        exact hstart
      · intro w hw
        rcases hw with ⟨hw, hadapt⟩
        refine meets_bind (P := fun w => w = start) (Q := fun _ w => w = start)
          (meets_read (fun _ hw => hw)) (fun _ => ?_) w hw
        refine meets_bind (Q := fun _ w => w = start) ?_ (fun _ => ?_)
        · apply meets_failWhen
          · intro w _ hw
            exact hw
          · intro w hw
            rw [hw]
            exact hstart
        refine meets_bind
          (Q := fun _ w => w = start.mapMemory (Api.enterFlight adapter.id)) ?_ (fun _ => ?_)
        · exact meets_modify (fun w hw => by rw [hw])
        apply meets_always
        exact (hnamed name id adapter rfl hadapt).post (fun _ w hw => hsteady.memory w _ hw)
          (fun _ w hw => hsteady.memory w _ hw)
          (fun _ hw => hw)

end

end Omux.Browser
