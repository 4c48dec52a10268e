import Omux.Browser.Disconnect

/-!
# Operations and disconnect intent

The invariant of the marks through every operation.  Only a connect command can break
it: when it finds a marked source and its connection is not accepted.
-/

namespace Omux.Browser

open Library List Dictionary
open Library.Task (bind_eq_done failWhen_eq_done orFail_eq_done pure_eq_done)

/-- The invariant, with sources that are in the stored metadata. -/
def Held (api : Api) (sources : List Source) (w : World) : Prop :=
  Bound api w ∧ forall source, source ∈ sources -> source ∈ w.storage.metadata

/-- The same, with sources whose stored state is no mark. -/
def Clear (api : Api) (sources clear : List Source) (w : World) : Prop :=
  Held api sources w ∧
    forall source, source ∈ clear ->
      w.storage.states.get source.sourceId ≠ some .pendingDisconnect

/-- The same, and the state of one source may be overwritten. -/
def Free (api : Api) (sources clear : List Source) (source : Source) (w : World) : Prop :=
  Clear api sources clear w ∧ ¬ Marked source.sourceId w.log

section

variable {api : Api} {sources clear entries : List Source} {source : Source} {w : World}

theorem Held.steady (api : Api) (sources : List Source) : Steady (Held api sources) :=
  (Bound.steady api).and
    (steady_storage (fun storage => forall source, source ∈ sources -> source ∈ storage.metadata))

theorem Clear.steady (api : Api) (sources clear : List Source) : Steady (Clear api sources clear) :=
  (Held.steady api sources).and (steady_storage (fun storage =>
    forall source, source ∈ clear -> storage.states.get source.sourceId ≠ some .pendingDisconnect))

theorem Free.steady (api : Api) (sources clear : List Source) (source : Source) :
    Steady (Free api sources clear source) := by
  have hclear := Clear.steady api sources clear
  constructor
  · intro w h
    exact ⟨hclear.ticked w h.1, h.2⟩
  · intro w f h
    exact ⟨hclear.memory w f h.1, h.2⟩
  · intro w h
    exact ⟨hclear.drawn w h.1, h.2⟩

theorem Held.sublist {fewer : List Source} (h : Held api sources w)
    (hsub : forall source, source ∈ fewer -> source ∈ sources) : Held api fewer w :=
  ⟨h.1, fun source hsource => h.2 source (hsub source hsource)⟩

theorem Held.none (h : Held api sources w) : Held api [] w :=
  h.sublist nofun

theorem Held.tail (h : Held api (source :: sources) w) : Held api sources w :=
  h.sublist (fun _ hmem => mem_cons_of_mem _ hmem)

theorem Clear.free (h : Clear api sources clear w) (hclear : source ∈ clear) :
    Free api sources clear source w := by
  refine ⟨h, ?_⟩
  intro hmarked
  exact h.2 source hclear (h.1.1.marked _ hmarked).1

/-!
## Sends
-/

theorem Held.since {base : World} (h : Held api sources base) (hsince : Since base w) :
    Held api sources w := by
  refine ⟨h.1.since hsince, ?_⟩
  rw [hsince.metadata]
  exact h.2

theorem Free.since {base : World} (h : Free api sources clear source base)
    (hsince : Since base w) : Free api sources clear source w := by
  refine ⟨⟨h.1.1.since hsince, ?_⟩, ?_⟩
  · rw [hsince.states]
    exact h.1.2
  · rcases hsince.log with ⟨_, hlog, htrace, _⟩
    intro hmarked
    rw [hlog] at hmarked
    exact h.2 (hmarked.of_trace htrace)

variable {P : World -> Prop}

theorem keeps_send
    (hsince : forall base w, P base -> Since base w -> P w) (source : Source)
    (method : Method) : Keeps P (api.send source method) := by
  intro w hw
  have hrun := @send_since api w source method w (since_refl w)
  revert hrun
  rcases api.send source method w with ⟨outcome, t⟩
  cases outcome with
  | done => exact fun ht => hsince w t hw ht.since
  | failed | killed => exact hsince w t hw

theorem keeps_capture (hsteady : Steady P)
    (hsince : forall base w, P base -> Since base w -> P w) (source : Source)
    (adapter : Adapter) : Keeps P (api.capture source adapter) := by
  unfold Api.capture
  split_ifs with hexport
  · exact keeps_bind (keeps_await api hsteady _) (fun _ => keeps_send hsince source _)
  · exact keeps_pure ()

/-!
## Writing a state
-/

def nextStates (w : World) (source : Source) (state : SourceState) : Dictionary SourceState :=
  (w.storage.states.keep (isEntry w.storage.metadata)).put source.sourceId state

theorem setState_meets {P Q : World -> Prop} (hsteady : Steady P) (state : SourceState)
    (hset : forall w, P w -> Q (w.setStates (nextStates w source state))) :
    Meets P (api.setState source state) (fun _ => Q) (fun _ w => P w ∨ Q w)
      (fun w => P w ∨ Q w) := by
  refine meets_bind (Q := fun entries w => P w ∧ w.storage.metadata = entries) ?_
    (fun entries => ?_)
  · exact (metadata_meets api hsteady).post (fun _ _ h => ⟨h.1, h.2.1⟩)
      (fun _ _ => .inl) (fun _ => .inl)
  · have hread := hsteady.and (steady_storage (fun storage => storage.metadata = entries))
    refine meets_bind (Q := fun states w =>
      (P w ∧ w.storage.metadata = entries) ∧ w.storage.states = states) ?_ (fun states => ?_)
    · exact (states_meets api hread).post (fun _ _ h => h)
        (fun _ _ h => .inl h.1) (fun _ h => .inl h.1)
    · have hboth := hread.and (steady_storage (fun storage => storage.states = states))
      refine (@storageSet_meets _ api Q hboth _ ?_).post (fun _ _ h => h)
        (fun _ w h => h.imp (fun hold => hold.1.1) id)
        (fun w h => h.imp (fun hold => hold.1.1) id)
      intro w h
      have hnext := hset w h.1.1
      rw [nextStates, h.1.2, h.2] at hnext
      exact hnext

theorem get_nextStates (w : World) (source : Source) (state : SourceState) (other : String) :
    (nextStates w source state).get other = if other = source.sourceId then some state
      else if isEntry w.storage.metadata other then w.storage.states.get other else none := by
  rw [nextStates, get_put, get_keep]

theorem Bound.marked_nextStates (h : Bound api w) (state : SourceState) {other : String}
    (hmarked : Marked other w.log) (hne : other ≠ source.sourceId) :
    (nextStates w source state).get other = some .pendingDisconnect := by
  rcases h.marked other hmarked with ⟨hstate, hentry⟩
  rw [get_nextStates, if_neg hne, if_pos hentry]
  exact hstate

theorem isEntry_of_nextStates {state : SourceState} {other : String}
    (h : (nextStates w source state).get other = some .pendingDisconnect)
    (hne : other ≠ source.sourceId) : isEntry w.storage.metadata other = true := by
  rw [get_nextStates, if_neg hne] at h
  by_cases hentry : isEntry w.storage.metadata other = true
  · exact hentry
  · rw [if_neg hentry] at h
    cases h

/-- Every mark but that of the source is on a source of the metadata. -/
def ListedBut (source : String) (storage : Storage) : Prop :=
  forall other, other ≠ source -> storage.states.get other = some .pendingDisconnect ->
    isEntry storage.metadata other = true

theorem mark_held (hmem : source ∈ sources) :
    Meets (Held api sources) (api.setState source .pendingDisconnect)
      (fun _ w => Held api sources w ∧ ListedBut source.sourceId w.storage)
      (fun _ => Held api sources) (Held api sources) := by
  refine (@setState_meets api source (Held api sources)
    (fun w => Held api sources w ∧ ListedBut source.sourceId w.storage)
    (Held.steady api sources) .pendingDisconnect ?_).post (fun _ _ h => h)
    (fun _ _ h => h.elim id And.left) (fun _ h => h.elim id And.left)
  intro w h
  refine ⟨⟨h.1.setStates ?_ ?_, h.2⟩, ?_⟩
  · intro other hmarked
    by_cases hsame : other = source.sourceId
    · rw [get_nextStates, if_pos hsame]
    · exact h.1.marked_nextStates _ hmarked hsame
  · intro other hstate
    by_cases hsame : other = source.sourceId
    · rw [hsame]
      exact isEntry_of_mem (h.2 source hmem)
    · exact isEntry_of_nextStates hstate hsame
  · intro other hne hstate
    have hnext : (nextStates w source .pendingDisconnect).get other =
        some .pendingDisconnect := hstate
    change isEntry w.storage.metadata other = true
    exact isEntry_of_nextStates hnext hne

theorem setState_free {state : SourceState} (hstate : state ≠ .pendingDisconnect) :
    Keeps (Free api sources clear source) (api.setState source state) := by
  refine (@setState_meets api source (Free api sources clear source)
    (Free api sources clear source) (Free.steady api sources clear source) state ?_).post
      (fun _ _ h => h) (fun _ _ h => h.elim id id) (fun _ h => h.elim id id)
  intro w h
  have hself : (nextStates w source state).get source.sourceId ≠ some .pendingDisconnect := by
    rw [get_nextStates, if_pos rfl]
    exact fun hsame => hstate (Option.some.inj hsame)
  have hbound : Bound api (w.setStates (nextStates w source state)) := by
    apply h.1.1.1.setStates
    · intro other hmarked
      by_cases hsame : other = source.sourceId
      · rw [hsame] at hmarked
        exact absurd hmarked h.2
      · exact h.1.1.1.marked_nextStates _ hmarked hsame
    · intro other hmark
      by_cases hsame : other = source.sourceId
      · rw [hsame] at hmark
        exact absurd hmark hself
      · exact isEntry_of_nextStates hmark hsame
  refine ⟨⟨⟨hbound, h.1.1.2⟩, ?_⟩, ?_⟩
  · intro other hother
    change (nextStates w source state).get other.sourceId ≠ _
    by_cases hsame : other.sourceId = source.sourceId
    · rw [hsame]
      exact hself
    · rw [get_nextStates, if_neg hsame]
      split_ifs with hentry
      · exact h.1.2 other hother
      · nofun
  · intro hmarked
    exact hself (hbound.marked _ hmarked).1

/-!
## One source
-/

/-- A source that the host has let go. -/
def Gone (api : Api) (sources : List Source) (source : Source) (w : World) : Prop :=
  exists base, (Held api (source :: sources) base ∧ ListedBut source.sourceId base.storage) ∧
      SinceWith base (Accepted source.sourceId .disconnect) w

theorem Gone.steady (api : Api) (sources : List Source) (source : Source) :
    Steady (Gone api sources source) := by
  constructor
  · intro w h
    rcases h with ⟨base, hbase, hsince⟩
    exact ⟨base, hbase, SinceWith.steady.ticked w hsince⟩
  · intro w f h
    rcases h with ⟨base, hbase, hsince⟩
    exact ⟨base, hbase, SinceWith.steady.memory w f hsince⟩
  · intro w h
    rcases h with ⟨base, hbase, hsince⟩
    exact ⟨base, hbase, SinceWith.steady.drawn w hsince⟩

theorem Gone.held (h : Gone api sources source w) : Held api (source :: sources) w := by
  rcases h with ⟨_, hbase, hsince⟩
  exact hbase.1.since hsince.since

theorem Gone.listed (h : Gone api sources source w) : ListedBut source.sourceId w.storage := by
  rcases h with ⟨_, hbase, hsince⟩
  unfold ListedBut
  rw [hsince.states, hsince.metadata]
  exact hbase.2

theorem send_gone :
    Meets (fun w => Held api (source :: sources) w ∧ ListedBut source.sourceId w.storage)
      (api.send source .disconnect)
      (fun _ => Gone api sources source) (fun _ => Held api sources) (Held api sources) := by
  intro w hw
  have hrun := @send_since api w source .disconnect w (since_refl w)
  revert hrun
  rcases api.send source .disconnect w with ⟨outcome, t⟩
  cases outcome with
  | done => exact fun ht => ⟨w, hw, ht⟩
  | failed | killed => exact fun ht => (hw.1.since ht).tail

theorem isEntry_filter (entries : List Source) (source : Source) (other : String) :
    isEntry (entries.filter (fun entry => entry.sourceId != source.sourceId)) other =
      (isEntry entries other && other != source.sourceId) := by
  rw [Bool.eq_iff_iff, isEntry_iff, Bool.and_eq_true, isEntry_iff]
  constructor
  · intro h
    rcases h with ⟨entry, hmem, hid⟩
    rcases mem_filter.mp hmem with ⟨hold, hne⟩
    rw [hid] at hne
    exact ⟨⟨entry, hold, hid⟩, hne⟩
  · intro h
    rcases h with ⟨⟨entry, hold, hid⟩, hne⟩
    refine ⟨entry, mem_filter.mpr ⟨hold, ?_⟩, hid⟩
    rw [hid]
    exact hne

theorem Marked.of_metadata {entries : List Source} {log : List Entry} {other : String}
    (h : Marked other (.metadata entries :: log)) : Marked other log := by
  rcases h.of_cons with hmarked | ⟨_, hsame, _⟩
  · exact hmarked
  · cases hsame

/-- After the metadata was removed, nothing holds the source any more. -/
theorem saveFiltered_free (hnew : source.sourceId ∉ sources.map Source.sourceId)
    (entries : List Source) :
    Meets (fun w => Gone api sources source w ∧ w.storage.metadata = entries)
      (api.saveMetadata (entries.filter (fun entry => entry.sourceId != source.sourceId)))
      (fun _ w => Free api sources [] source w ∧ ListedBut source.sourceId w.storage)
      (fun _ => Held api sources) (Held api sources) := by
  have hsteady := (Gone.steady api sources source).and
    (steady_storage (fun storage => storage.metadata = entries))
  refine storageSet_into api hsteady ?_ (fun _ h => h.1.held.tail) (fun _ h => h.1.1.1)
  intro w h
  rcases h with ⟨hgone, hentries⟩
  have hheld := hgone.held
  have hlisted := hgone.listed
  have hself : isEntry
      (entries.filter (fun entry => entry.sourceId != source.sourceId)) source.sourceId =
        false := by
    rw [isEntry_filter]
    simp
  have hunmarked : ¬ Marked source.sourceId (.metadata
      (entries.filter (fun entry => entry.sourceId != source.sourceId)) :: w.log) := by
    rcases hgone with ⟨_, _, hsince⟩
    exact not_marked_of_removal hsince hself
  refine ⟨⟨⟨⟨hheld.1.setMetadata ?_ ?_, ?_⟩, ?_⟩, hunmarked⟩, ?_⟩
  · intro other hmarked
    have hne : other ≠ source.sourceId := by
      intro hsame
      rw [hsame] at hmarked
      exact hunmarked hmarked
    have hentry := (hheld.1.marked other hmarked.of_metadata).2
    rw [hentries] at hentry
    rw [isEntry_filter, hentry]
    simpa using hne
  · intro other hother
    refine hheld.1.drawn other ?_
    rw [hentries]
    exact (mem_filter.mp hother).1
  · intro other hother
    rw [<- hentries]
    exact mem_filter_other hnew hother (hheld.tail.2 other hother)
  · nofun
  · intro other hne hstate
    have hentry := hlisted other hne hstate
    rw [hentries] at hentry
    change isEntry (entries.filter _) other = true
    rw [isEntry_filter, hentry]
    simpa using hne

theorem eraseState_held (states : Dictionary SourceState) : Leaves
      (fun w => (Free api sources [] source w ∧ ListedBut source.sourceId w.storage) ∧
        w.storage.states = states) (api.storageSet (World.setStates (states.erase source.sourceId)))
      (Held api sources) := by
  have hsteady := ((Free.steady api sources [] source).and
    (steady_storage (ListedBut source.sourceId))).and
    (steady_storage (fun storage => storage.states = states))
  refine storageSet_into api hsteady ?_ (fun _ h => h.1.1.1.1) (fun _ h => h)
  intro w h
  rcases h with ⟨⟨⟨⟨hheld, _⟩, hunmarked⟩, hlisted⟩, rfl⟩
  refine ⟨hheld.1.setStates ?_ ?_, hheld.2⟩
  · intro other hmarked
    have hne : other ≠ source.sourceId := by
      intro hsame
      rw [hsame] at hmarked
      exact hunmarked hmarked
    rw [get_erase, if_neg hne]
    exact (hheld.1.marked other hmarked).1
  · intro other hstate
    rw [get_erase] at hstate
    by_cases hsame : other = source.sourceId
    · rw [if_pos hsame] at hstate
      cases hstate
    · rw [if_neg hsame] at hstate
      exact hlisted other hsame hstate

theorem disconnectSource_held (hnew : source.sourceId ∉ sources.map Source.sourceId) :
    Leaves (Held api (source :: sources)) (api.disconnectSource source) (Held api sources) := by
  refine meets_bind ((mark_held mem_cons_self).post (fun _ _ h => h)
    (fun _ _ => Held.tail) (fun _ => Held.tail)) (fun _ => ?_)
  refine meets_bind send_gone (fun _ => ?_)
  refine meets_bind (Q := fun entries w =>
    Gone api sources source w ∧ w.storage.metadata = entries) ?_ (fun entries => ?_)
  · exact (metadata_meets api (Gone.steady api sources source)).post (fun _ _ h => ⟨h.1, h.2.1⟩)
      (fun _ _ h => h.held.tail) (fun _ h => h.held.tail)
  refine meets_bind (saveFiltered_free hnew entries) (fun _ => ?_)
  have hsteady := (Free.steady api sources [] source).and
    (steady_storage (ListedBut source.sourceId))
  refine meets_bind ((states_meets api hsteady).post (fun _ _ h => h)
    (fun _ _ h => h.1.1.1) (fun _ h => h.1.1.1)) (fun states => ?_)
  exact eraseState_held states

theorem finishReconcile_free (adapter : Adapter) (status : SourceState)
    (hstatus : status ≠ .pendingDisconnect) : Keeps (Free api sources clear source) (do
      api.capture source adapter
      api.setState source status
      pure status) := by
  refine keeps_bind (keeps_capture (Free.steady api sources clear source)
    (fun _ _ h hsince => h.since hsince) source adapter) (fun _ => ?_)
  exact keeps_bind (setState_free hstatus) (fun _ => keeps_pure status)

theorem reconcileSource_after (adapter : Adapter) (method : Method)
    (hsend : Meets P (api.send source method) (fun _ => Free api sources clear source)
      (fun _ => Free api sources clear source) (Held api sources)) :
    Meets P (api.reconcileSource source adapter method)
      (fun _ => Free api sources clear source) (fun _ => Free api sources clear source)
      (Held api sources) := by
  apply meets_handle (F := fun _ => Free api sources clear source)
  · refine meets_bind hsend (fun _ => ?_)
    refine keeps_killed (finishReconcile_free adapter _ ?_) (fun _ h => h.1.1)
    split_ifs with hexport
    · nofun
    · nofun
  · intro _
    refine meets_bind (keeps_killed (setState_free ?_) (fun _ h => h.1.1))
      (fun _ => meets_fail (fun _ h => h))
    nofun

theorem reconcileSource_clear (adapter : Adapter) (hclear : source ∈ clear) :
    Meets (Clear api sources clear) (api.reconcileSource source adapter .reconcile)
      (fun _ => Clear api sources clear) (fun _ => Clear api sources clear) (Held api sources) := by
  have hsend : Meets (Clear api sources clear) (api.send source .reconcile)
      (fun _ => Free api sources clear source) (fun _ => Free api sources clear source)
      (Held api sources) := by
    exact (keeps_send (fun _ _ h hsince => Free.since h hsince) source .reconcile).weaken
      (fun _ h => h.free hclear) (fun _ _ h => h) (fun _ _ h => h) (fun _ h => h.1.1)
  exact (reconcileSource_after adapter .reconcile hsend).post (fun _ _ h => h.1)
    (fun _ _ h => h.1) (fun _ h => h)

/-!
## A connect that the host accepts
-/

end

/-- A question to the host: when it is asked and with which ids. -/
structure Asked where
  tick : Nat
  healthId : String
  id : String

/-- The host answers the health envelope and accepts the mutation. -/
def Api.Accepts (api : Api) (asked : Asked) : Prop :=
  (api.port asked.tick).opens = true ∧ (api.port asked.tick).posts = true ∧
    exists accepted health later, (api.port asked.tick).events =
      .message (.result asked.healthId accepted .ready) ::
        .message (.result asked.id true health) :: later

def acceptedBy (asked : Asked) : List PortEvent -> Bool
  | .message (.result healthId _ .ready) :: .message (.result id true _) :: _ =>
    healthId == asked.healthId && id == asked.id
  | _ => false

theorem acceptedBy_iff {asked : Asked} {events : List PortEvent} :
    acceptedBy asked events = true ↔ exists accepted health later,
      events = .message (.result asked.healthId accepted .ready) ::
        .message (.result asked.id true health) :: later := by
  constructor
  · fun_cases acceptedBy asked events with
    | case1 =>
      intro h
      rw [Bool.and_eq_true, beq_iff_eq, beq_iff_eq] at h
      exact ⟨_, _, _, by rw [h.left, h.right]⟩
    | case2 => nofun
  · rintro ⟨_, _, _, rfl⟩
    simp [acceptedBy]

instance (api : Api) (asked : Asked) : Decidable (api.Accepts asked) :=
  decidable_of_iff ((api.port asked.tick).opens = true ∧ (api.port asked.tick).posts = true ∧
    acceptedBy asked (api.port asked.tick).events = true)
    (and_congr_right' (and_congr_right' acceptedBy_iff))

/-- What is asked at this tick, when so many ids were drawn before the request. -/
def Api.asks (api : Api) (tick drawn : Nat) (pending : Option Pending) : Asked :=
  match pending with
  | some request => ⟨tick, api.randomId drawn, request.id⟩
  | none => ⟨tick, api.randomId (drawn + 1), api.randomId drawn⟩

def Api.Known (api : Api) (entries : List Source) : Prop :=
  validMetadata entries = true ∧
    entries.any (fun entry => (getAdapter api.allowFixture entry.adapter).isNone) = false

/-- Nothing but a connection is pending for the source, and the browser and the host answer
what a `send` of it in this world asks of them. -/
def Api.Connects (api : Api) (w : World) (source : Source) : Prop :=
  let pending := w.storage.requests.get source.sourceId
  let asked := api.asks (w.tick + 3) w.drawn pending
  pending.all (fun request => request.method == .connect) = true ∧
    validRequests w.storage.requests = true ∧ w.memory.activeBudget = none ∧
    api.get w.tick = true ∧ api.get (w.tick + 1) = true ∧
    api.makeEnvelope (w.tick + 2) = true ∧ api.set (w.tick + 2) = .resolved ∧
    isTextId 64 asked.id = true ∧ isTextId 64 asked.healthId = true ∧ api.Accepts asked
deriving Decidable

section

variable {api : Api} {sources clear entries : List Source} {source : Source} {w : World}

theorem validSource_of_mem (h : validMetadata entries = true)
    (hmem : source ∈ entries) : validSource source = true := by
  simp only [validMetadata, Bool.and_eq_true, all_eq_true] at h
  exact h.1.1.2 source hmem

theorem get_kept (hmem : source ∈ w.storage.metadata) :
    (w.storage.requests.keep (isEntry w.storage.metadata)).get source.sourceId =
      w.storage.requests.get source.sourceId := by
  rw [get_keep, if_pos (isEntry_of_mem hmem)]

theorem await_done {α : Type} {answer : Nat -> Option α} {a : α} {t : World} :
    api.await answer w = (.done a, t) ↔
      api.killed w.tick = false ∧ answer w.tick = some a ∧ t = w.ticked := by
  unfold Api.await
  cases api.killed w.tick <;> cases answer w.tick <;> simp [eq_comm]

theorem metadata_done {t : World} : api.metadata w = (.done entries, t) ↔
    (api.killed w.tick = false ∧ api.get w.tick = true) ∧ api.Known w.storage.metadata ∧
      entries = w.storage.metadata ∧ t = w.ticked := by
  simp [Api.metadata, Api.storageGet, bind_eq_done, await_done, failWhen_eq_done, Task.read,
    pure_eq_done, Api.Known, and_assoc, World.ticked]

theorem await_passes {α : Type} {answer : Nat -> Option α} {a : α}
    (h : answer w.tick = some a) : Passes (api.await answer) w a w.ticked := by
  rintro _ rfl
  unfold Api.await
  rw [h]
  split_ifs <;> trivial

theorem storageGet_passes {α : Type} {value : Storage -> α} (h : api.get w.tick = true) :
    Passes (api.storageGet value) w (value w.storage) w.ticked :=
  passes_bind (await_passes (if_pos h)) passes_read

theorem metadata_passes (hknown : api.Known w.storage.metadata) (hget : api.get w.tick = true) :
    Passes api.metadata w w.storage.metadata w.ticked := by
  refine passes_bind (storageGet_passes hget) (passes_bind (passes_failWhen ?_)
    (passes_bind (passes_failWhen hknown.2) passes_pure))
  rw [hknown.1]
  rfl

theorem pendingRequests_passes (hreqs : validRequests w.storage.requests = true)
    (hknown : api.Known w.storage.metadata) (hget : api.get w.tick = true)
    (hnext : api.get (w.tick + 1) = true) :
    Passes api.pendingRequests w (w.storage.requests.keep (isEntry w.storage.metadata))
      w.ticked.ticked := by
  refine passes_bind (storageGet_passes hget) (passes_bind (passes_failWhen ?_)
    (passes_bind (metadata_passes (w := w.ticked) hknown hnext) passes_pure))
  rw [hreqs]
  rfl

theorem sendNativeRequest_eq {healthId id : String} (sourceId : String) (method : Method)
    (hhost : api.Accepts ⟨w.tick, healthId, id⟩) :
    exists health, api.sendNativeRequest healthId sourceId id method w =
      if api.killed w.tick then (.killed, w.ticked)
      else (.done (.result id true health), { w.ticked with
        log := .accepted sourceId id method :: .posted sourceId id method :: w.log }) := by
  rcases hhost with ⟨hopens, hposts, _, health, _, hevents⟩
  refine ⟨health, ?_⟩
  cases hkilled : api.killed w.tick with
  | true => simp [Api.sendNativeRequest, Task.bind_apply, Api.await, hkilled]
  | false =>
    simp only [Api.sendNativeRequest, bind_eq_done, await_done, if_neg Bool.false_ne_true]
    refine ⟨api.port w.tick, w.ticked, ⟨hkilled, rfl, rfl⟩, (), w.ticked, ?_, ?_⟩
    · rw [hopens]
      rfl
    · rw [hposts, hevents]
      simp [awaitHealth, awaitResponse, validateHealthResponse, validateResponse, noteAnswer,
        NativeMessage.accepts]
      rfl

theorem deliver_eq {id : String} {method : Method} {requests : Dictionary Pending}
    (hid : isTextId 64 (api.randomId w.drawn) = true)
    (hhost : api.Accepts ⟨w.tick, api.randomId w.drawn, id⟩) :
    api.deliver source id method requests w =
      if api.killed w.tick then (.killed, { w with tick := w.tick + 1, drawn := w.drawn + 1 })
      else api.storageSet (World.setRequests (requests.erase source.sourceId))
        { w with
          tick := w.tick + 1
          drawn := w.drawn + 1
          log := .accepted source.sourceId id method ::
            .posted source.sourceId id method :: w.log } := by
  rcases sendNativeRequest_eq source.sourceId method (w := { w with drawn := w.drawn + 1 })
    hhost with ⟨health, hsend⟩
  have hreq : (do
      makeHealthEnvelope (api.randomId w.drawn)
      api.sendNativeRequest (api.randomId w.drawn) source.sourceId id method) =
        api.sendNativeRequest (api.randomId w.drawn) source.sourceId id method := by
    rw [makeHealthEnvelope, hid]
    rfl
  have hanswer : liftExcept (validateResponse (.result id true health) id) =
      (pure () : Action Unit) := by
    simp [validateResponse, liftExcept]
  have haccepts : (!(NativeMessage.result id true health).accepts id) = false := by
    simp [NativeMessage.accepts]
  rw [Api.deliver, Task.bind_apply, Api.draw]
  simp only [hreq, Task.bind_apply, Task.handle, hsend]
  cases api.killed w.tick with
  | true => rfl
  | false =>
    simp only [if_neg Bool.false_ne_true, hanswer, haccepts]
    rfl

/-- The log after `w` shows that the host accepted a connection of the source. -/
def Connected (source : Source) (w after : World) : Prop :=
  exists recent, after.log = recent ++ w.log ∧ Accepted source.sourceId .connect recent

theorem Connected.steady (source : Source) (w : World) : Steady (Connected source w) :=
  ⟨fun _ h => h, fun _ _ h => h, fun _ h => h⟩

theorem deliver_connected {id : String} {requests : Dictionary Pending}
    (hid : isTextId 64 (api.randomId w.drawn) = true)
    (hhost : api.Accepts ⟨w.tick, api.randomId w.drawn, id⟩) :
    Meets (fun v => v = w) (api.deliver source id .connect requests) (fun _ _ => True)
      (fun _ => Connected source w) (fun _ => True) := by
  intro v hv
  rw [hv, deliver_eq hid hhost]
  split_ifs
  · trivial
  refine (storageSet_into api (Connected.steady source w) ?_ (fun _ h => h) (fun _ h => h)).post
    (fun _ _ _ => trivial) (fun _ _ h => h) (fun _ _ => trivial) _ ⟨[_, _], rfl, id, by simp⟩
  rintro v ⟨recent, hlog, id, hmem⟩
  exact ⟨_ :: recent, congrArg (List.cons _) hlog, id, mem_cons_of_mem _ hmem⟩

theorem submit_connected {id : String} {requests : Dictionary Pending}
    (hid : isTextId 64 id = true) (hsource : isTextId 128 source.sourceId = true)
    (henvelope : api.makeEnvelope w.tick = true) (hset : api.set w.tick = .resolved)
    (hhealth : isTextId 64 (api.randomId w.drawn) = true)
    (hhost : api.Accepts ⟨w.tick + 1, api.randomId w.drawn, id⟩) :
    Meets (fun v => v = w) (do
        api.requireEnvelope id source.sourceId
        api.storageSet (World.setRequests requests)
        api.spendBudget none
        api.deliver source id .connect requests)
      (fun _ _ => True) (fun _ => Connected source w) (fun _ => True) := by
  refine passes_bind (passes_bind passes_read (passes_failWhen ?_)) ?_
  · rw [hid, hsource, henvelope]
    rfl
  have hstored : Passes (api.storageSet (World.setRequests requests)) w ()
      (World.setRequests requests w.ticked) := by
    rintro _ rfl
    rw [Api.storageSet, hset]
    exact ⟨rfl, rfl⟩
  refine passes_bind hstored (passes_bind passes_pure ?_)
  refine (deliver_connected (w := World.setRequests requests w.ticked) hhealth hhost).post
    (fun _ _ h => h) ?_ (fun _ h => h)
  rintro _ v ⟨recent, hlog, hacc⟩
  refine ⟨recent ++ [.requests requests], ?_, hacc.imp (fun _ => mem_append_left _)⟩
  rw [append_assoc]
  exact hlog

theorem send_connected (h : api.Connects w source) (hknown : api.Known w.storage.metadata)
    (hmem : source ∈ w.storage.metadata) :
    Meets (fun v => v = w) (api.send source .connect) (fun _ _ => True)
      (fun _ => Connected source w) (fun _ => True) := by
  rcases h with ⟨hpend, hreqs, hbudget, hget, hnext, henvelope, hset, hid, hhealth, hhost⟩
  unfold Api.send
  cases api.depth with
  | zero => exact meets_kill (fun _ _ => trivial)
  | succ =>
    refine passes_bind passes_read ?_
    rw [hbudget]
    refine passes_bind passes_pure (passes_bind (pendingRequests_passes hreqs hknown hget
      hnext) ?_)
    have hsource := validSource_of_mem hknown.1 hmem
    simp only [validSource, Bool.and_eq_true] at hsource
    have hdirect : Api.resolvesFirst ((w.storage.requests.keep
        (isEntry w.storage.metadata)).get source.sourceId) .connect = false :=
      Bool.and_false _
    rw [if_neg (by simp [hdirect]), Api.submit, get_kept hmem]
    generalize w.storage.requests.get source.sourceId = pending at *
    cases pending with
    | none =>
      refine passes_bind passes_pure (passes_bind (t := { w.ticked.ticked with
        drawn := w.drawn + 1 }) ?_ (submit_connected hid hsource.1.1 henvelope hset hhealth hhost))
      rintro _ rfl
      exact ⟨rfl, rfl⟩
    | some request =>
      have hmethod : (request.method != .connect || Method.connect == .importGrant) = false := by
        rw [Option.all_some, beq_iff_eq] at hpend
        rw [hpend]
        rfl
      exact passes_bind (passes_failWhen hmethod) (passes_bind passes_pure
        (submit_connected hid hsource.1.1 henvelope hset hhealth hhost))

end

section

variable {api : Api} {sources clear entries : List Source} {source : Source} {w : World}
variable {P : World -> Prop}

/-!
## The connect command
-/

variable {start : World}

theorem Held.free_of_unmarked (h : Held api sources w)
    (hunmarked : ¬ Marked source.sourceId w.log) : Free api sources [] source w :=
  ⟨⟨h, nofun⟩, hunmarked⟩

theorem sendConnect_free (hstart : Held api sources start)
    (hok : Marked source.sourceId start.log -> Meets (fun w => w = start)
      (api.send source .connect) (fun _ _ => True) (fun _ => Connected source start)
      (fun _ => True)) : Meets (fun w => w = start) (api.send source .connect)
      (fun _ => Free api sources [] source) (fun _ => Free api sources [] source)
      (Held api sources) := by
  intro w hw
  rw [hw]
  have hrun := @send_since api start source .connect start (since_refl start)
  have hconn := fun hmarked => hok hmarked start rfl
  revert hrun hconn
  rcases api.send source .connect start with ⟨outcome, after⟩
  cases outcome with
  | done =>
    intro hacc _
    exact (hstart.since hacc.since).free_of_unmarked (not_marked_of_connect hacc)
  | failed =>
    intro hsince hconn
    refine (hstart.since hsince).free_of_unmarked ?_
    intro hmarked
    rcases hsince.log with ⟨recent, hlog, htrace, _⟩
    have hbefore : Marked source.sourceId start.log := by
      rw [hlog] at hmarked
      exact hmarked.of_trace htrace
    rcases hconn hbefore with ⟨_, hsame, hrecent⟩
    rw [<- append_cancel_right (hlog.symm.trans hsame)] at hrecent
    have hacc : SinceWith start (Accepted source.sourceId .connect) after :=
      ⟨hsince.states, hsince.metadata, hsince.drawn, recent, hlog, htrace, hrecent⟩
    exact not_marked_of_connect hacc hmarked
  | killed =>
    intro hsince _
    exact hstart.since hsince

theorem addSource_free (hinj : Function.Injective api.randomId) (adapter : Adapter)
    (storeId : String) : Meets (fun w => Held api [] w ∧ w.storage.metadata = entries)
      (api.addSource adapter storeId entries)
      (fun source => Free api [source] [] source) (fun _ => Held api []) (Held api []) := by
  refine meets_bind (keeps_into (keeps_failWhen _ _) (fun _ h => h.1)) (fun _ => ?_)
  refine meets_bind (Q := fun sourceId w => (Held api [] w ∧ w.storage.metadata = entries) ∧
    Drawn api w sourceId ∧ isEntry entries sourceId = false) ?_ (fun sourceId => ?_)
  · intro w h
    refine ⟨⟨(Held.steady api []).drawn w h.1, h.2⟩, ⟨w.drawn, Nat.lt_succ_self _, rfl⟩, ?_⟩
    rw [Bool.eq_false_iff]
    intro hentry
    rcases isEntry_iff.mp hentry with ⟨entry, hmem, hid⟩
    rw [<- h.2] at hmem
    rcases h.1.1.drawn entry hmem with ⟨k, hk, hname⟩
    rw [<- hname] at hid
    rw [hinj hid] at hk
    exact Nat.lt_irrefl _ hk
  · let source : Source := ⟨adapter.id, storeId, sourceId⟩
    have hsteady := ((Held.steady api []).and
      (steady_storage (fun storage => storage.metadata = entries))).and
        (Drawn.steady api sourceId (fun _ => isEntry entries sourceId = false))
    have hsaved : forall w, (Held api [] w ∧ w.storage.metadata = entries) ∧
        Drawn api w sourceId ∧ isEntry entries sourceId = false ->
          Free api [source] [] source (w.setMetadata (entries ++ [source])) := by
      intro w h
      rcases h with ⟨⟨hheld, hentries⟩, hdrawn, hfresh⟩
      have hold : forall {other : String},
          Marked other (.metadata (entries ++ [source]) :: w.log) ->
            isEntry entries other = true := by
        intro other hmarked
        rw [<- hentries]
        exact (hheld.1.marked other hmarked.of_metadata).2
      refine Held.free_of_unmarked ⟨hheld.1.setMetadata ?_ ?_, ?_⟩ ?_
      · intro other hmarked
        rcases isEntry_iff.mp (hold hmarked) with ⟨entry, hmem, hid⟩
        exact isEntry_iff.mpr ⟨entry, mem_append_left _ hmem, hid⟩
      · intro other hother
        cases mem_append.mp hother with
        | inl hmem => exact hheld.1.drawn other (by rw [hentries]; exact hmem)
        | inr hlast =>
          rw [mem_singleton.mp hlast]
          exact hdrawn
      · intro other hother
        exact mem_append_right _ hother
      · intro hmarked
        have hentry := hold hmarked
        rw [hfresh] at hentry
        cases hentry
    refine meets_bind (storageSet_into api hsteady hsaved (fun _ h => h.1.1)
      (fun _ h => h.1.1.none)) (fun _ => ?_)
    refine meets_bind (keeps_into (setState_free nofun) (fun _ h => h.1.1.none)) (fun _ => ?_)
    exact meets_pure (fun _ h => h)

theorem held_carried : Carried api (Held api) := by
  constructor
  · exact Held.steady api
  · intro sources _ w h hsub
    exact h.sublist hsub
  · intro w h
    exact ⟨h.1, fun _ hmem => hmem⟩
  · intro sources source method _
    exact keeps_send (fun _ _ h hsince => h.since hsince) source method
  · intro source sources hnew
    exact disconnectSource_held hnew

def Api.target (api : Api) (adapter : Adapter) : Action Source := do
  let entries <- api.metadata
  api.connectTarget adapter entries

/-- The store that `context` finds when it begins at this tick. -/
def Api.contextStore (api : Api) (tick : Nat) : Option String :=
  match api.query (tick + 1), api.stores (tick + 2) with
  | some (tab :: _), some stores =>
    (stores.find? (fun store => tab.id.any store.tabIds.contains &&
      (tab.cookieStoreId.all (· == "") || store.id == tab.cookieStoreId))).bind CookieStore.id
  | _, _ => none

theorem context_done {adapter : Adapter} {storeId : String} {t : World}
    (h : api.context adapter w = (.done storeId, t)) :
    api.contextStore w.tick = some storeId ∧ t = { w with tick := w.tick + 3 } := by
  simp only [Api.context, bind_eq_done, await_done, failWhen_eq_done, orFail_eq_done] at h
  rcases h with ⟨_, _, ⟨_, _, rfl⟩, _, _, ⟨_, rfl⟩, tabs, _, ⟨_, hquery, rfl⟩, tab, _, ⟨htab, rfl⟩,
    tabId, _, ⟨hid, rfl⟩, _, _, ⟨_, rfl⟩, stores, _, ⟨_, hstores, rfl⟩, hstore, rfl⟩
  rcases head?_eq_some_iff.mp htab with ⟨_, rfl⟩
  have hquery : api.query (w.tick + 1) = _ := hquery
  have hstores : api.stores (w.tick + 2) = _ := hstores
  simp only [Api.contextStore, hquery, hstores, hid, Option.any_some]
  exact ⟨hstore, rfl⟩

/-- A connect command finds a stored source, and nothing has changed when it sends. -/
structure Found (api : Api) (adapter : Adapter) (start : World) (source : Source) (w : World) :
    Prop where
  stored : source ∈ start.storage.metadata
  adapter : source.adapter = adapter.id
  store : api.contextStore (start.tick + 1) = some source.storeId
  known : api.Known start.storage.metadata
  unchanged : w = { start with tick := start.tick + 4 }

theorem target_meets (hinj : Function.Injective api.randomId) (adapter : Adapter)
    (hstart : Held api [] start) : Meets (fun w => w = start) (api.target adapter)
      (fun source w => Free api [source] [] source w ∨
        Held api [source] w ∧ Found api adapter start source w)
      (fun _ => Held api []) (Held api []) := by
  refine meets_bind (held_carried.metadata.run hstart) (fun entries w hw => ?_)
  rcases hw with ⟨⟨hheld, hentries, _⟩, hread⟩
  have hsteady := (Held.steady api entries).and
    (steady_storage (fun storage => storage.metadata = entries))
  refine meets_bind ((keeps_into (keeps_context api hsteady adapter)
    (fun _ h => h.1.none)).run ⟨hheld, hentries⟩) (fun storeId v hv => ?_) w rfl
  rcases hv with ⟨hkept, hcontext⟩
  unfold Api.sourceFor
  cases hfound : Api.findSource adapter storeId entries with
  | none =>
    exact (addSource_free hinj adapter storeId).post (fun _ _ => .inl) (fun _ _ h => h)
      (fun _ h => h) v ⟨hkept.1.none, hkept.2⟩
  | some source =>
    rcases metadata_done.mp hread with ⟨_, hknown, rfl, rfl⟩
    rcases context_done hcontext with ⟨hstore, rfl⟩
    have hsel := find?_some hfound
    rw [Bool.and_eq_true, beq_iff_eq, beq_iff_eq] at hsel
    have hstored := findSource_mem hfound
    refine .inr ⟨hkept.1.sublist ?_, hstored, hsel.1, hsel.2 ▸ hstore, hknown, rfl⟩
    intro _ hentry
    rw [mem_singleton.mp hentry]
    exact hstored

theorem performNamed_connect (api : Api) (adapter : Adapter) :
    api.performNamed .connect adapter = (api.target adapter >>= fun source =>
        api.reconcileSource source adapter .connect >>= fun state =>
          pure (.connection state)) := by
  unfold Api.target
  unfold Api.performNamed Api.connect
  simp [Task.bind_assoc]

theorem performConnect_held (hinj : Function.Injective api.randomId) (adapter : Adapter)
    (hstart : Held api [] start)
    (hok : forall source, source ∈ start.storage.metadata -> source.adapter = adapter.id ->
      api.contextStore (start.tick + 1) = some source.storeId ->
      start.storage.states.get source.sourceId = some .pendingDisconnect ->
      api.Connects { start with tick := start.tick + 4 } source) :
    Leaves (fun w => w = start) (api.performNamed .connect adapter) (Held api []) := by
  rw [performNamed_connect]
  refine meets_bind (target_meets hinj adapter hstart) (fun source w hw => ?_)
  have hsend : Meets (fun v => v = w) (api.send source .connect)
      (fun _ => Free api [source] [] source) (fun _ => Free api [source] [] source)
      (Held api [source]) := by
    rcases hw with hfree | ⟨hheld, hfound⟩
    · exact sendConnect_free hfree.1.1 (fun hmarked => absurd hmarked hfree.2)
    · refine sendConnect_free hheld (fun hmarked => ?_)
      have hstate := (hheld.1.marked _ hmarked).1
      rw [hfound.unchanged] at hstate ⊢
      exact send_connected (hok source hfound.stored hfound.adapter hfound.store hstate)
        hfound.known hfound.stored
  have hconnect := (reconcileSource_after adapter .connect hsend).post (fun _ _ h => h.1.1.none)
    (fun _ _ h => h.1.1.none) (fun _ => Held.none)
  exact meets_bind hconnect (fun state => keeps_pure (Api.Reply.connection state)) w rfl

/-- A connect command that finds a marked source is one whose connection the host accepts. -/
def Api.Releases (api : Api) (w : World) : Api.Operation -> Prop
  | .command (.named .connect id) => forall source, source ∈ w.storage.metadata ->
      (getAdapter api.allowFixture id).map Adapter.id = some source.adapter ->
      api.contextStore (w.tick + 1) = some source.storeId ->
      w.storage.states.get source.sourceId = some .pendingDisconnect ->
      api.Connects { w with tick := w.tick + 4 } source
  | _ => True

instance (api : Api) (w : World) (operation : Api.Operation) :
    Decidable (api.Releases w operation) := by
  unfold Api.Releases
  split <;> infer_instance

/-!
## The other operations
-/

theorem reconcile_held (adapter : Adapter) (entries : List Source) :
    Leaves (fun w => Held api entries w) (api.reconcile adapter entries) (Held api []) := by
  have hsteady := Held.steady api entries
  refine meets_bind (keeps_into (keeps_context api hsteady adapter) (fun _ => Held.none))
    (fun _ => ?_)
  refine meets_bind (keeps_into (keeps_orFail _ _) (fun _ => Held.none)) (fun source => ?_)
  refine meets_bind ((states_meets api hsteady).post (fun _ _ h => h)
    (fun _ _ => Held.none) (fun _ => Held.none)) (fun _ => ?_)
  refine meets_bind (Q := fun _ => Clear api entries [source]) ?_ (fun _ => ?_)
  · apply meets_failWhen
    · intro w hunmarked h
      refine ⟨h.1, ?_⟩
      intro _ hother
      rw [mem_singleton.mp hother, h.2]
      simpa using hunmarked
    · intro w h
      exact h.1.none
  · exact (reconcileSource_clear adapter mem_cons_self).post (fun _ _ h => h.1.none)
      (fun _ _ h => h.1.none) (fun _ => Held.none)

theorem performNamed_held (adapter : Adapter) {name : Api.CommandName}
    (hname : name ≠ .connect) : Keeps (Held api []) (api.performNamed name adapter) := by
  refine meets_bind held_carried.metadata (fun entries => ?_)
  cases name with
  | disconnect =>
    exact meets_bind ((held_carried.disconnect adapter).pre (fun _ h => h.1))
      (fun _ => keeps_pure _)
  | connect => exact absurd rfl hname
  | reconcile =>
    exact meets_bind ((reconcile_held adapter entries).pre (fun _ h => h.1)) (fun _ => keeps_pure _)
  | status => exact meets_fail (fun _ h => h.1.none)

section

variable (hinj : Function.Injective api.randomId)
include hinj

theorem performCommand_held
    (hstart : Held api [] start) {command : Api.Command}
    (hok : api.Releases start (.command command)) :
    Leaves (fun w => w = start) (api.performCommand command) (Held api []) := by
  apply held_carried.performCommand hstart
  intro name _ adapter hcommand hadapt
  have hentered := (Held.steady api []).memory start (Api.enterFlight adapter.id) hstart
  by_cases hname : name = .connect
  · rw [hname]
    apply performConnect_held hinj adapter hentered
    intro source hmem hsame
    rw [hcommand, hname] at hok
    exact hok source hmem (by rw [hadapt, hsame]; rfl)
  · exact meets_at (performNamed_held adapter hname) hentered

theorem perform_held
    (hstart : Held api [] start) {operation : Api.Operation} (hok : api.Releases start operation) :
    Leaves (fun w => w = start) (api.perform operation) (Held api []) := by
  cases operation with
  | command => exact meets_bind (performCommand_held hinj hstart hok) (fun _ => keeps_pure ())
  | permissionsRemoved origins cookies =>
    exact meets_at (held_carried.removePermissions origins cookies) hstart
  | reconcilePermissions => exact meets_at held_carried.reconcilePermissions hstart
  | reconcileSources =>
    refine meets_at (held_carried.reconcileSources ?_) hstart
    intro entries states _ hord
    let clear := entries.filter (fun source => !Api.skips (states.get source.sourceId))
    refine (reconcileLoop_meets (Clear.steady api entries clear) (fun _ h => h.1.none)
      ?_ hord).pre ?_
    · intro source adapter hmem hskip
      have hclear : source ∈ clear := mem_filter.mpr ⟨hmem, by simp [hskip]⟩
      exact (reconcileSource_clear adapter hclear).post (fun _ _ h => h)
        (fun _ _ h => h) (fun _ => Held.none)
    · intro w h
      refine ⟨h.1, ?_⟩
      intro source hsource hmark
      rw [h.2] at hmark
      have hskip := (mem_filter.mp hsource).2
      simp [hmark, Api.skips] at hskip
  | cookieScopeChanged scope => exact meets_at (held_carried.cookieScopeChanged scope) hstart
  | restart => exact meets_kill (fun w hw => by rw [hw]; exact hstart)

theorem step_bound (w : World) (operation : Api.Operation) (hok : api.Releases w operation)
    (h : Bound api w) : Bound api (api.step w operation) := by
  have hrun := perform_held hinj ⟨h, nofun⟩ hok w rfl
  unfold Api.step
  revert hrun
  rcases api.perform operation w with ⟨outcome, next⟩
  cases outcome with
  | done | failed => exact fun hnext => hnext.1
  | killed => exact fun hnext => (Bound.steady api).memory next (fun _ => {}) hnext.1

end

end

/-- Along every run in which the host accepts each connection of a marked source, a stored
mark stays in every later stored state until it is released. -/
theorem disconnect_intent_durable (api : Api) (hinj : Function.Injective api.randomId)
    (operations : List Api.Operation) (hok : AllSteps api.step api.Releases {} operations) :
    Durable (run api.step {} operations).log := by
  have hbound : Bound api (run api.step {} operations) :=
    run_invariant_of (fun w operation hstep h => step_bound hinj w operation hstep h) hok
      (Bound.empty api)
  exact hbound.durable

/-- The host comes up between the second and the third operation. -/
def returningApi : Api :=
  { sampleApi with
    port := fun tick =>
      { opens := 27 <= tick
        posts := true
        events := [.message (.result "aaaaa" false .ready),
          .message (.result "aa" true .invalid)] } }

theorem disconnect_intent_of_unreachable_host :
    Durable (run sampleApi.step {} [.command (.named .connect "github"),
      .command (.named .disconnect "github"), .command (.named .reconcile "github"),
      .reconcileSources]).log ∧
    exists w, w = run returningApi.step {} [.command (.named .connect "github"),
        .command (.named .disconnect "github")] ∧
      w.storage.states.get "a" = some .pendingDisconnect ∧
      (returningApi.step w (.command (.named .connect "github"))).storage.states.get "a" =
        some .connectedSchemaUnproven ∧
      Durable (returningApi.step w (.command (.named .connect "github"))).log := by
  refine ⟨disconnect_intent_durable sampleApi sampleId_injective _ (by decide +kernel), _, rfl,
    by decide +kernel, by decide +kernel, ?_⟩
  exact disconnect_intent_durable returningApi sampleId_injective
    [.command (.named .connect "github"), .command (.named .disconnect "github"),
      .command (.named .connect "github")] (by decide +kernel)

/-- A disconnect that the host does not answer leaves the mark; the next connect command
finds the pending disconnect, is refused and stores another state over the mark. -/
theorem disconnect_mark_overwritten :
    ¬ Durable (run sampleApi.step {} [.command (.named .connect "github"),
      .command (.named .disconnect "github"), .command (.named .connect "github")]).log := by
  have hlog : (run sampleApi.step {} [.command (.named .connect "github"),
      .command (.named .disconnect "github"), .command (.named .connect "github")]).log =
      [] ++ .states [("a", .completionUnknown)] ::
        ([.requests [("a", ⟨"aaaa", .disconnect⟩)]] ++ .states [("a", .pendingDisconnect)] ::
          [.states [("a", .connectedSchemaUnproven)], .requests [],
            .accepted "a" "aa" .connect, .posted "a" "aa" .connect,
            .requests [("a", ⟨"aa", .connect⟩)], .states [("a", .pendingConnection)],
            .metadata [sampleSource]]) := by
    decide +kernel
  intro hdurable
  have hcase := hdurable _ _ _ _ _ "a" hlog (by decide)
  cases hcase with
  | inl hkept => exact absurd hkept (by decide)
  | inr hreleased =>
    cases hreleased with
    | inl hremoved =>
      rcases hremoved with ⟨newer, sources, older, id, hsplit, _, _⟩
      have hmem : Entry.metadata sources ∈ [Entry.requests [("a", ⟨"aaaa", .disconnect⟩)]] := by
        rw [hsplit]
        simp
      simp at hmem
    | inr hconn =>
      rcases hconn with ⟨newer, older, id, hsplit, _⟩
      have hmem : Entry.accepted "a" id .connect ∈
          [Entry.requests [("a", ⟨"aaaa", .disconnect⟩)]] := by
        rw [hsplit]
        simp
      simp at hmem

end Omux.Browser
