import Omux.Browser.Loops
import Omux.Browser.Requests

/-!
# Every operation keeps the requests consistent

The invariant of the stored requests through commands, permission events, cookie events
and startup.
-/

namespace Omux.Browser

open Library List

/-- The invariant, with sources that are in the stored metadata. -/
def Holding (api : Api) (sources : List Source) (w : World) : Prop :=
  Consistent api w ∧ forall source, source ∈ sources -> source ∈ w.storage.metadata

section

variable {api : Api} {sources entries : List Source} {source : Source}

theorem Holding.steady (api : Api) (sources : List Source) : Steady (Holding api sources) :=
  Consistent.steady.and
    (steady_storage (fun storage => forall source, source ∈ sources -> source ∈ storage.metadata))

theorem Holding.sublist {w : World} {some : List Source} (h : Holding api sources w)
    (hsub : forall source, source ∈ some -> source ∈ sources) : Holding api some w :=
  ⟨h.1, fun source hsource => h.2 source (hsub source hsource)⟩

theorem Holding.none {w : World} (h : Holding api sources w) : Holding api [] w :=
  h.sublist nofun

theorem keeps_holding {α : Type} {task : Action α}
    (h : forall entries, (forall source, source ∈ sources -> source ∈ entries) ->
      Keeps (With api entries) task) : Keeps (Holding api sources) task := by
  intro w hw
  have hrun := h w.storage.metadata hw.2 w ⟨hw.1, rfl⟩
  have hout : forall t, With api w.storage.metadata t -> Holding api sources t := by
    intro t ht
    refine ⟨ht.1, ?_⟩
    rw [ht.2]
    exact hw.2
  revert hrun
  rcases task w with ⟨outcome, t⟩
  cases outcome with
  | done | failed | killed => exact hout t

theorem send_holding (hinj : Function.Injective api.randomId) (hmem : source ∈ sources)
    (method : Method) : Keeps (Holding api sources) (api.send source method) :=
  keeps_holding (fun _ hentries => send_keeps hinj (hentries source hmem) method)

theorem setStates_holding (states : Dictionary SourceState) :
    Keeps (Holding api sources) (api.storageSet (World.setStates states)) :=
  storageSet_into api (Holding.steady api sources)
    (fun _ hw => ⟨hw.1.setStates states, hw.2⟩) (fun _ hw => hw) (fun _ hw => hw)

theorem setState_holding (source : Source) (state : SourceState) :
    Keeps (Holding api sources) (api.setState source state) := by
  refine keeps_bind (keeps_metadata api (Holding.steady api sources)) (fun _ => ?_)
  refine keeps_bind (keeps_states api (Holding.steady api sources)) (fun _ => ?_)
  exact setStates_holding _

theorem Drawn.steady (api : Api) (id : String) (P : List Entry -> Prop) :
    Steady (fun w => Drawn api w id ∧ P w.log) :=
  ⟨fun _ h => h, fun _ _ h => h, fun _ h => ⟨Consistent.drawn_mono h.1 (Nat.le_succ _) rfl, h.2⟩⟩

theorem mem_filter_other {entries : List Source} {other : Source}
    (hnew : source.sourceId ∉ sources.map Source.sourceId) (hother : other ∈ sources)
    (hmem : other ∈ entries) :
    other ∈ entries.filter (fun entry => entry.sourceId != source.sourceId) := by
  refine mem_filter.mpr ⟨hmem, ?_⟩
  have hne : other.sourceId ≠ source.sourceId := by
    intro hsame
    rw [<- hsame] at hnew
    exact hnew (mem_map_of_mem hother)
  simpa using hne

theorem saveFiltered_holding (hnew : source.sourceId ∉ sources.map Source.sourceId)
    (entries : List Source) :
    Leaves (fun w => Holding api (source :: sources) w ∧ w.storage.metadata = entries)
      (api.saveMetadata (entries.filter (fun entry => entry.sourceId != source.sourceId)))
      (Holding api sources) := by
  have hsteady := (Holding.steady api (source :: sources)).and
    (steady_storage (fun storage => storage.metadata = entries))
  refine storageSet_into api hsteady ?_
    (fun _ hw => hw.1.sublist (fun _ hmem => mem_cons_of_mem _ hmem)) (fun _ hw => hw)
  intro w hw
  rcases hw with ⟨⟨hcons, hmem⟩, rfl⟩
  constructor
  · apply hcons.setMetadata
    intro entry hentry
    exact Or.inl (mem_filter.mp hentry).1
  · intro other hother
    exact mem_filter_other hnew hother (hmem other (mem_cons_of_mem _ hother))

section

variable (hinj : Function.Injective api.randomId)
include hinj

theorem disconnectSource_holding (hnew : source.sourceId ∉ sources.map Source.sourceId) :
    Leaves (Holding api (source :: sources)) (api.disconnectSource source)
      (Holding api sources) := by
  have hless : forall w, Holding api (source :: sources) w -> Holding api sources w := by
    intro w hw
    exact hw.sublist (fun _ hmem => mem_cons_of_mem _ hmem)
  refine meets_bind (keeps_into (setState_holding source _) hless) (fun _ => ?_)
  refine meets_bind (keeps_into (send_holding hinj mem_cons_self _) hless) (fun _ => ?_)
  refine meets_bind (Q := fun entries w =>
    Holding api (source :: sources) w ∧ w.storage.metadata = entries) ?_ (fun entries => ?_)
  · exact (metadata_meets api (Holding.steady api _)).post (fun _ _ hw => ⟨hw.1, hw.2.1⟩)
      (fun _ => hless) hless
  refine meets_bind (saveFiltered_holding hnew entries) (fun _ => ?_)
  refine keeps_bind (keeps_states api (Holding.steady api sources)) (fun _ => ?_)
  exact setStates_holding _

theorem holding_carried : Carried api (Holding api) := by
  constructor
  · exact Holding.steady api
  · intro sources _ w h hsub
    exact h.sublist hsub
  · intro w h
    exact ⟨h.1, fun _ hmem => hmem⟩
  · intro sources source method hmem
    exact send_holding hinj hmem method
  · intro source sources hnew
    exact disconnectSource_holding hinj hnew

theorem reconcileSource_holding (hmem : source ∈ sources) (adapter : Adapter) (method : Method) :
    Keeps (Holding api sources) (api.reconcileSource source adapter method) := by
  apply meets_handle (F := fun _ => Holding api sources)
  · refine keeps_bind (send_holding hinj hmem method) (fun _ => ?_)
    refine keeps_bind ((holding_carried hinj).capture hmem adapter) (fun _ => ?_)
    exact keeps_bind (setState_holding source _) (fun _ => keeps_pure _)
  · intro code
    exact keeps_bind (setState_holding source _) (fun _ => keeps_fail code)

/-!
## Commands
-/

theorem addSource_holding (adapter : Adapter) (storeId : String) :
    Meets (With api entries) (api.addSource adapter storeId entries)
      (fun source => Holding api [source]) (fun _ => Holding api []) (Holding api []) := by
  have hout : forall w, With api entries w -> Holding api [] w := by
    intro w hw
    exact ⟨hw.1, nofun⟩
  refine meets_bind (keeps_into (keeps_failWhen _ _) hout) (fun _ => ?_)
  refine meets_bind (Q := fun sourceId w => With api entries w ∧ Drawn api w sourceId ∧
    forall id m, Entry.posted sourceId id m ∉ w.log) ?_ (fun sourceId => ?_)
  · intro w hw
    exact ⟨⟨hw.1.draw, hw.2⟩, ⟨w.drawn, Nat.lt_succ_self _, rfl⟩, (hw.1.fresh hinj).2.2⟩
  · let source : Source := ⟨adapter.id, storeId, sourceId⟩
    have hsteady := (With.steady api entries).and
      (Drawn.steady api sourceId (fun log => forall id m, Entry.posted sourceId id m ∉ log))
    have hsaved : forall w, With api entries w ∧ Drawn api w sourceId ∧
        (forall id m, Entry.posted sourceId id m ∉ w.log) ->
          Holding api [source] (w.setMetadata (entries ++ [source])) := by
      intro w hw
      rcases hw with ⟨⟨hcons, rfl⟩, hdrawn, hunposted⟩
      constructor
      · apply hcons.setMetadata
        intro entry hentry
        cases mem_append.mp hentry with
        | inl hold => exact Or.inl hold
        | inr hlast =>
          rw [mem_singleton.mp hlast]
          exact Or.inr ⟨hdrawn, hunposted⟩
      · intro entry hentry
        exact mem_append_right _ hentry
    refine meets_bind (storageSet_into api hsteady hsaved (fun w hw => hout w hw.1)
      (fun _ => Holding.none)) (fun _ => ?_)
    refine meets_bind (keeps_into (setState_holding _ _) (fun _ => Holding.none)) (fun _ => ?_)
    exact meets_pure (fun _ hw => hw)

end

theorem findSource_mem {adapter : Adapter} {storeId : String}
    (h : Api.findSource adapter storeId entries = some source) : source ∈ entries :=
  mem_of_find?_eq_some h

section

variable (hinj : Function.Injective api.randomId)
include hinj

theorem connect_holding (adapter : Adapter) :
    Leaves (With api entries) (api.connect adapter entries) (Holding api []) := by
  have hout : forall w, With api entries w -> Holding api [] w := by
    intro w hw
    exact ⟨hw.1, nofun⟩
  refine meets_bind (Q := fun source => Holding api [source]) ?_ (fun source => ?_)
  · refine meets_bind (keeps_into (keeps_context api (With.steady api entries) adapter) hout)
      (fun storeId => ?_)
    unfold Api.sourceFor
    cases hfound : Api.findSource adapter storeId entries with
    | none => exact addSource_holding hinj adapter storeId
    | some =>
      intro w hw
      refine ⟨hw.1, ?_⟩
      intro _ hentry
      rw [mem_singleton.mp hentry, hw.2]
      exact findSource_mem hfound
  · exact (reconcileSource_holding hinj mem_cons_self adapter .connect).post
      (fun _ _ => Holding.none) (fun _ _ => Holding.none)
      (fun _ => Holding.none)

theorem reconcile_holding (adapter : Adapter) :
    Keeps (Holding api entries) (api.reconcile adapter entries) := by
  have hsteady := Holding.steady api entries
  refine keeps_bind (keeps_context api hsteady adapter) (fun _ => ?_)
  refine meets_bind (Q := fun source w => Holding api entries w ∧ source ∈ entries) ?_
    (fun source => ?_)
  · exact meets_orFail (fun _ _ hfound hw => ⟨hw, findSource_mem hfound⟩) (fun _ hw => hw)
  · by_cases hmem : source ∈ entries
    · refine Meets.pre (P := Holding api entries) ?_ (fun _ hw => hw.1)
      refine keeps_bind (keeps_states api hsteady) (fun _ => ?_)
      refine keeps_bind (keeps_failWhen _ _) (fun _ => ?_)
      exact reconcileSource_holding hinj hmem adapter .reconcile
    · intro w hw
      exact absurd hw.2 hmem

theorem performNamed_holding (name : Api.CommandName) (adapter : Adapter) :
    Keeps (Holding api []) (api.performNamed name adapter) := by
  have hcarried := holding_carried hinj
  refine meets_bind hcarried.metadata (fun _ => ?_)
  cases name with
  | disconnect =>
    exact meets_bind ((hcarried.disconnect adapter).pre (fun _ hw => hw.1)) (fun _ => keeps_pure _)
  | connect =>
    exact meets_bind ((connect_holding hinj adapter).pre (fun _ hw => ⟨hw.1.1, hw.2.1⟩))
      (fun _ => keeps_pure _)
  | reconcile =>
    exact meets_bind ((reconcile_holding hinj adapter).weaken (fun _ hw => hw.1)
      (fun _ _ => Holding.none) (fun _ _ => Holding.none) (fun _ => Holding.none))
      (fun _ => keeps_pure _)
  | status => exact meets_fail (fun _ hw => hw.1.none)

theorem perform_holding (operation : Api.Operation) :
    Keeps (Holding api []) (api.perform operation) := by
  have hcarried := holding_carried hinj
  cases operation with
  | command =>
    refine keeps_bind ?_ (fun _ => keeps_pure ())
    intro w hw
    refine hcarried.performCommand hw ?_ w rfl
    intro name _ adapter _ _
    exact meets_at (performNamed_holding hinj name adapter) ((Holding.steady api []).memory w _ hw)
  | permissionsRemoved origins cookies => exact hcarried.removePermissions origins cookies
  | reconcilePermissions => exact hcarried.reconcilePermissions
  | reconcileSources =>
    apply hcarried.reconcileSources
    intro entries _ _ hord
    refine (reconcileLoop_meets (Holding.steady api entries) (fun _ => Holding.none)
      ?_ hord).pre (fun _ hw => hw.1)
    intro _ adapter hmem _
    exact keeps_killed (reconcileSource_holding hinj hmem adapter .reconcile)
      (fun _ => Holding.none)
  | cookieScopeChanged scope => exact hcarried.cookieScopeChanged scope
  | restart => exact meets_kill (fun _ hw => hw)

theorem step_consistent (w : World) (operation : Api.Operation) (h : Consistent api w) :
    Consistent api (api.step w operation) := by
  have hrun := perform_holding hinj operation w ⟨h, nofun⟩
  unfold Api.step
  revert hrun
  rcases api.perform operation w with ⟨outcome, next⟩
  cases outcome with
  | done | failed => exact fun hnext => hnext.1
  | killed => exact fun hnext => Consistent.steady.memory next (fun _ => {}) hnext.1

end

end

/-- Whenever a mutation is posted, its request is in the storage; a request with a new id
is posted only after the last mutation of its source was accepted; all messages with one
id have one source and one method, and an import is posted once. -/
theorem at_most_one_unresolved_mutation (api : Api)
    (hinj : Function.Injective api.randomId) (operations : List Api.Operation)
    {newer older : List Entry} {source id : String} {method : Method}
    (hlog : (run api.step {} operations).log = newer ++ .posted source id method :: older) :
    PostAllowed source id method older := by
  have hcons : Consistent api (run api.step {} operations) :=
    run_invariant (fun w operation => step_consistent hinj w operation)
      (consistent_empty api) operations
  have hallowed := hcons.allowed
  rw [hlog] at hallowed
  exact hallowed.split

/-!
## A connection
-/

def sampleId (n : Nat) : String :=
  String.ofList (List.replicate (n + 1) 'a')

theorem sampleId_injective : Function.Injective sampleId := by
  intro m n h
  have hlength := congrArg (fun s : String => s.toList.length) h
  simpa [sampleId] using hlength

/-- A browser with one tab at the provider; the host answers during the first operation
and is not there afterwards. -/
def sampleApi : Api where
  allowFixture := false
  randomId := sampleId
  killed := fun _ => false
  get := fun _ => true
  set := fun _ => .resolved
  contains := fun _ => some true
  query := fun _ => some [⟨some 1, some "https://github.com", false, none⟩]
  stores := fun _ => some [⟨some "0", [1]⟩]
  remove := fun _ => true
  acquireGrant := fun _ => true
  makeEnvelope := fun _ => true
  monotonicNow := fun _ => 0
  port := fun tick => {
    opens := tick < 20
    posts := true
    events := [.message (.result "aaa" false .ready), .message (.result "aa" true .invalid)] }
  depth := 2

def sampleSource : Source :=
  ⟨"github", "0", "a"⟩

/-- The host accepts the connection and then a reconciliation. -/
def answeringApi : Api :=
  { sampleApi with
    port := fun tick =>
      let (health, id) := if tick < 20 then ("aaa", "aa") else ("aaaaa", "aaaa")
      ⟨true, true, [.message (.result health false .ready), .message (.result id true .invalid)]⟩ }

theorem at_most_one_unresolved_of_reconcile :
    let w := run answeringApi.step {} [.command (.named .connect "github")]
    .accepted "a" "aa" .connect ∈ w.log ∧
      PostAllowed "a" "aaaa" .reconcile (.requests [("a", ⟨"aaaa", .reconcile⟩)] :: w.log) := by
  have hlog : (run answeringApi.step {} [.command (.named .connect "github"),
      .command (.named .reconcile "github")]).log =
      [.states [("a", .connectedSchemaUnproven)], .requests [], .accepted "a" "aaaa" .reconcile] ++
        .posted "a" "aaaa" .reconcile :: .requests [("a", ⟨"aaaa", .reconcile⟩)] ::
        (run answeringApi.step {} [.command (.named .connect "github")]).log := by
    decide +kernel
  exact ⟨by decide +kernel, at_most_one_unresolved_mutation answeringApi
    sampleId_injective _ hlog⟩

end Omux.Browser
