import Mathlib.Data.List.Nodup
import Mathlib.Data.List.Perm.Subperm
import Omux.Browser.Intent

/-!
# Disconnecting a source

The disconnect command of a source, in any world, when the browser fulfils what it is
asked and the host accepts each request of the command.
-/

namespace Omux.Browser

open Library List Dictionary
open Library.Task (bind_eq_done failWhen_eq_done pure_eq_done)

/-!
## The surroundings of the command
-/

/-- The browser fulfils its promises, and new ids are well formed. -/
structure Cooperates (api : Api) : Prop where
  killed : forall tick, api.killed tick = false
  get : forall tick, api.get tick = true
  set : forall tick, api.set tick = .resolved
  remove : forall tick, api.remove tick = true
  makeEnvelope : forall tick, api.makeEnvelope tick = true
  randomId : forall n, isTextId 64 (api.randomId n) = true

/-- The active tab is at the adapter's origin and in the cookie store of the source. -/
structure ActiveTab (api : Api) (adapter : Adapter) (source : Source) (tab : Tab) :
    Prop where
  query : forall tick, exists others, api.query tick = some (tab :: others)
  visible : tab.incognito = false
  origin : tab.origin = some adapter.origin
  store : tab.cookieStoreId = some source.storeId ∨
    (tab.cookieStoreId = none ∧ forall tick, exists stores, api.stores tick = some stores ∧
      (stores.find? (fun store => tab.id.any store.tabIds.contains)).bind CookieStore.id =
        some source.storeId)

def Tab.lookups (tab : Tab) : Nat :=
  if tab.cookieStoreId.isNone then 1 else 0

/-- What the `send` of a disconnect asks that begins at this tick; a pending connection is
resolved first. -/
def Api.disconnectAsks (api : Api) (tick drawn : Nat) (pending : Option Pending) : List Asked :=
  if Api.resolvesFirst pending .disconnect then
    [api.asks (tick + 5) drawn pending, api.asks (tick + 10) (drawn + 1) none]
  else [api.asks (tick + 3) drawn pending]

structure Readable (api : Api) (storage : Storage) : Prop where
  metadata : api.Known storage.metadata
  states : validStates storage.states = true
  requests : validRequests storage.requests = true

structure Removed (source : String) (storage : Storage) : Prop where
  metadata : isEntry storage.metadata source = false
  states : storage.states.get source = none
  requests : storage.requests.get source = none

/-!
## Reading and writing
-/

section

variable {api : Api} {w t : World} {source : Source} {entries : List Source}

section

variable (hc : Cooperates api)

include hc

theorem await_eq_done {α : Type} {answer : Nat -> Option α} {a : α} :
    api.await answer w = (.done a, t) ↔ answer w.tick = some a ∧ t = w.ticked := by
  simp [await_done, hc.killed]

theorem storageGet_eq_done {α : Type} {value : Storage -> α} {a : α} :
    api.storageGet value w = (.done a, t) ↔ a = value w.storage ∧ t = w.ticked := by
  simp only [Api.storageGet, bind_eq_done, await_eq_done hc, hc.get, Task.read]
  simp [World.ticked, eq_comm]

theorem storageSet_eq_done {change : World -> World} {u : Unit} :
    api.storageSet change w = (.done u, t) ↔ t = change w.ticked := by
  simp [Api.storageSet, hc.set, eq_comm]

theorem metadata_eq_done : api.metadata w = (.done entries, t) ↔
      api.Known w.storage.metadata ∧ entries = w.storage.metadata ∧ t = w.ticked := by
  simp [metadata_done, hc.killed, hc.get]

theorem states_eq_done {states : Dictionary SourceState} : api.states w = (.done states, t) ↔
      validStates w.storage.states = true ∧ states = w.storage.states ∧ t = w.ticked := by
  simp [Api.states, bind_eq_done, storageGet_eq_done hc, failWhen_eq_done, pure_eq_done, and_assoc]

theorem setState_eq_done {state : SourceState} {u : Unit} :
    api.setState source state w = (.done u, t) ↔ api.Known w.storage.metadata ∧
      validStates w.storage.states = true ∧
      t = w.ticked.ticked.ticked.setStates (nextStates w source state) := by
  simp [Api.setState, bind_eq_done, metadata_eq_done hc, states_eq_done hc,
    storageSet_eq_done hc, nextStates, World.ticked]

theorem pendingRequests_eq_done {requests : Dictionary Pending} :
    api.pendingRequests w = (.done requests, t) ↔ api.Known w.storage.metadata ∧
      validRequests w.storage.requests = true ∧
      requests = w.storage.requests.keep (isEntry w.storage.metadata) ∧
      t = w.ticked.ticked := by
  simp [Api.pendingRequests, bind_eq_done, storageGet_eq_done hc, failWhen_eq_done,
    metadata_eq_done hc, pure_eq_done, World.ticked, and_assoc, and_left_comm]

end

/-!
## What the stored tables guarantee
-/

theorem validMetadata_filter (h : validMetadata entries = true)
    (test : Source -> Bool) : validMetadata (entries.filter test) = true := by
  simp only [validMetadata, Bool.and_eq_true, decide_eq_true_eq, all_eq_true] at h ⊢
  rcases h with ⟨⟨⟨hlength, hvalid⟩, hids⟩, hstores⟩
  have hsub : (entries.filter test).Sublist entries := filter_sublist
  exact ⟨⟨⟨hsub.length_le.trans hlength, fun entry hmem => hvalid entry (hsub.subset hmem)⟩,
    hids.sublist (hsub.map _)⟩, hstores.sublist (hsub.map _)⟩

theorem validRequests_filter {requests : Dictionary Pending} (h : validRequests requests = true)
    (test : String × Pending -> Bool) : validRequests (requests.filter test) = true := by
  simp only [validRequests, Bool.and_eq_true, decide_eq_true_eq, all_eq_true] at h ⊢
  exact ⟨filter_sublist.length_le.trans h.1, fun entry hmem => h.2 entry (mem_of_mem_filter hmem)⟩

theorem validStates_next {storage : Storage} (hvalid : validMetadata storage.metadata = true)
    (hkeys : (storage.states.map Prod.fst).Nodup) (hmem : source ∈ storage.metadata)
    (hstore : w.storage = storage) (state : SourceState) :
    validStates (nextStates w source state) = true := by
  subst hstore
  have hentry : forall entry, entry ∈ nextStates w source state ->
      exists s, s ∈ w.storage.metadata ∧ s.sourceId = entry.1 := by
    intro entry hmember
    cases mem_cons.mp hmember with
    | inl hnew => exact ⟨source, hmem, by rw [hnew]⟩
    | inr hold => exact isEntry_iff.mp (mem_filter.mp (mem_of_mem_filter hold)).2
  have hnodup : ((nextStates w source state).map Prod.fst).Nodup := by
    have hkept : forall entry, entry ∈ (w.storage.states.keep
        (isEntry w.storage.metadata)).erase source.sourceId -> entry.1 ≠ source.sourceId :=
      fun entry hmember => of_decide_eq_true (mem_filter.mp hmember).2
    refine nodup_cons.mpr ⟨?_, ?_⟩
    · intro hmember
      rcases mem_map.mp hmember with ⟨entry, hold, hsame⟩
      exact hkept entry hold hsame
    · exact hkeys.sublist ((filter_sublist.trans filter_sublist).map _)
  have hsub : (nextStates w source state).map Prod.fst ⊆
      w.storage.metadata.map Source.sourceId := by
    intro _ hkey
    rcases mem_map.mp hkey with ⟨entry, hmember, rfl⟩
    exact mem_map.mpr (hentry entry hmember)
  have hlength := (subperm_of_subset hnodup hsub).length_le
  rw [length_map, length_map] at hlength
  have hbound : w.storage.metadata.length <= 64 := by
    simp only [validMetadata, Bool.and_eq_true, decide_eq_true_eq] at hvalid
    exact hvalid.1.1.1
  simp only [validStates, Bool.and_eq_true, decide_eq_true_eq, all_eq_true]
  refine ⟨hlength.trans hbound, ?_⟩
  intro entry hmember
  rcases hentry entry hmember with ⟨s, hs, hid⟩
  have hsource := validSource_of_mem hvalid hs
  simp only [validSource, Bool.and_eq_true] at hsource
  rw [<- hid]
  exact hsource.1.1

theorem mem_of_get {β : Type} {map : Dictionary β} {key : String} {value : β}
    (h : map.get key = some value) : (key, value) ∈ map := by
  induction map with
  | nil => cases h
  | cons entry _ ih =>
    rcases entry with ⟨_, _⟩
    rw [get_cons] at h
    split_ifs at h with hname
    · cases h
      rw [hname]
      exact mem_cons_self
    · exact mem_cons_of_mem _ (ih h)

/-!
## Sending
-/

def World.sent (w : World) (source : Source) (request : Pending)
    (requests : Dictionary Pending) : World where
  storage := { w.storage with requests := requests.erase source.sourceId }
  memory := w.memory
  tick := w.tick + 3
  drawn := w.drawn + 1
  log := .requests (requests.erase source.sourceId) ::
    .accepted source.sourceId request.id request.method ::
    .posted source.sourceId request.id request.method ::
    .requests (requests.put source.sourceId request) :: w.log

def Api.chosen (api : Api) (w : World) (method : Method) (pending : Option Pending) :
    World × Pending :=
  match pending with
  | some request => (w, ⟨request.id, method⟩)
  | none => ({ w with drawn := w.drawn + 1 }, ⟨api.randomId w.drawn, method⟩)

def Api.held (pending : Option Pending) (method : Method) : Bool :=
  pending.any (fun request => request.method != method || method == .importGrant)

def World.passed (w : World) (api : Api) (source : Source) (method : Method) : World :=
  let chosen := api.chosen w.ticked.ticked method (w.storage.requests.get source.sourceId)
  chosen.1.sent source chosen.2 (w.storage.requests.keep (isEntry w.storage.metadata))

theorem passed_eq (w : World) (api : Api) (source : Source) (method : Method) :
    (w.passed api source method).memory = w.memory ∧
      (w.passed api source method).tick = w.tick + 5 ∧
      (w.passed api source method).storage = { w.storage with
        requests := (w.storage.requests.keep (isEntry w.storage.metadata)).erase
          source.sourceId } := by
  unfold World.passed Api.chosen
  cases w.storage.requests.get source.sourceId <;> exact ⟨rfl, rfl, rfl⟩

def World.cleared (w : World) (api : Api) (source : Source) : World :=
  if Api.resolvesFirst (w.storage.requests.get source.sourceId) .disconnect then
    (w.ticked.ticked.passed api source .connect).passed api source .disconnect
  else w.passed api source .disconnect

theorem cleared_eq (w : World) (api : Api) (source : Source) :
    exists requests, (w.cleared api source).storage = { w.storage with requests } ∧
      requests.get source.sourceId = none := by
  have hlast := fun v => (passed_eq v api source .disconnect).2.2
  have hnone : forall requests : Dictionary Pending,
      (requests.erase source.sourceId).get source.sourceId = none :=
    fun _ => (get_erase _ _ _).trans (if_pos rfl)
  unfold World.cleared
  split
  · rw [hlast, (passed_eq w.ticked.ticked api source .connect).2.2]
    exact ⟨_, rfl, hnone _⟩
  · rw [hlast]
    exact ⟨_, rfl, hnone _⟩

/-- Nothing is pending that a disconnect cannot pass. -/
def Passable (pending : Option Pending) : Prop :=
  forall request, pending = some request ->
    request.method = .connect ∨ request.method = .disconnect

theorem resolvesFirst_eq_true {pending : Option Pending} :
    Api.resolvesFirst pending .disconnect = true ↔ exists id, pending = some ⟨id, .connect⟩ := by
  cases pending with
  | none => simp [Api.resolvesFirst]
  | some request =>
    rcases request with ⟨id, _⟩
    simp [Api.resolvesFirst]

theorem passable_iff_of_direct {pending : Option Pending}
    (h : Api.resolvesFirst pending .disconnect = false) :
    Api.held pending .disconnect = false ↔ Passable pending := by
  cases pending with
  | none => simp [Api.held, Passable]
  | some request =>
    rcases request with ⟨_, method⟩
    cases method <;> simp_all [Api.held, Passable, Api.resolvesFirst]

section

variable (hc : Cooperates api)

include hc

theorem post_eq {id : String} {method : Method} {requests : Dictionary Pending}
    (hid : isTextId 64 id = true) (hsource : isTextId 128 source.sourceId = true)
    (hhost : api.Accepts ⟨w.tick + 1, api.randomId w.drawn, id⟩) :
    (do
        api.requireEnvelope id source.sourceId
        api.storageSet (World.setRequests (requests.put source.sourceId ⟨id, method⟩))
        api.spendBudget none
        api.deliver source id method (requests.put source.sourceId ⟨id, method⟩)) w =
      (.done (), w.sent source ⟨id, method⟩ requests) := by
  have herase : (requests.put source.sourceId ⟨id, method⟩).erase source.sourceId =
      requests.erase source.sourceId := by
    simp [Dictionary.put, Dictionary.erase]
  have hdeliver := @deliver_eq api source
    (World.setRequests (requests.put source.sourceId ⟨id, method⟩) w.ticked) id method
    (requests.put source.sourceId ⟨id, method⟩) (hc.randomId _) hhost
  rw [hc.killed, herase, if_neg Bool.false_ne_true, Api.storageSet, hc.set] at hdeliver
  simp only [Api.requireEnvelope, bind_eq_done, storageSet_eq_done hc, failWhen_eq_done]
  refine ⟨(), w, ⟨true, w, ?_, ?_, rfl⟩, (), _, rfl, (), _, rfl, hdeliver⟩
  · rw [Task.read, hc.makeEnvelope]
  · rw [hid, hsource]
    rfl

theorem submit_eq_done {method : Method} {requests : Dictionary Pending}
    (hvalid : validRequests requests = true) (hsource : isTextId 128 source.sourceId = true)
    (hhost : api.Accepts (api.asks (w.tick + 1) w.drawn (requests.get source.sourceId)))
    {u : Unit} : api.submit source method none requests w = (.done u, t) ↔
      Api.held (requests.get source.sourceId) method = false ∧
      t = (api.chosen w method (requests.get source.sourceId)).1.sent source
        (api.chosen w method (requests.get source.sourceId)).2 requests := by
  have hpost : (do
      let id <- api.requestIdFor (requests.get source.sourceId)
      api.requireEnvelope id source.sourceId
      api.storageSet (World.setRequests (requests.put source.sourceId ⟨id, method⟩))
      api.deliver source id method (requests.put source.sourceId ⟨id, method⟩)) w =
      (.done (), (api.chosen w method (requests.get source.sourceId)).1.sent source
        (api.chosen w method (requests.get source.sourceId)).2 requests) := by
    cases hpend : requests.get source.sourceId with
    | none =>
      rw [hpend] at hhost
      exact @post_eq api { w with drawn := w.drawn + 1 } source hc _ method requests
        (hc.randomId _) hsource hhost
    | some =>
      rw [hpend] at hhost
      simp only [validRequests, Bool.and_eq_true, all_eq_true] at hvalid
      exact post_eq hc (hvalid.2 _ (mem_of_get hpend)).2 hsource hhost
  simp only [Api.submit, bind_eq_done (f := Task.failWhen _ _), failWhen_eq_done]
  constructor
  · rintro ⟨_, _, ⟨hfree, rfl⟩, hrun⟩
    cases hpost.symm.trans hrun
    exact ⟨hfree, rfl⟩
  · rintro ⟨hfree, rfl⟩
    exact ⟨(), w, ⟨hfree, rfl⟩, hpost⟩

theorem sendWithin_reads (hidle : w.memory.activeBudget = none)
    (hmem : source ∈ w.storage.metadata) {method : Method} {depth : Nat} {u : Unit} :
    api.sendWithin (depth + 1) source method w = (.done u, t) ↔
      (api.Known w.storage.metadata ∧ validRequests w.storage.requests = true) ∧
      (if Api.resolvesFirst (w.storage.requests.get source.sourceId) method then do
          api.sendWithin depth source .connect
          api.sendWithin depth source method
        else api.submit source method none
          (w.storage.requests.keep (isEntry w.storage.metadata))) w.ticked.ticked =
        (.done u, t) := by
  simp only [Api.sendWithin, bind_eq_done (f := Task.read _),
    bind_eq_done (f := api.requireBudget _), bind_eq_done (f := api.pendingRequests),
    pendingRequests_eq_done hc]
  constructor
  · rintro ⟨_, _, hbudget, _, _, hpass, _, _, ⟨hknown, hvalid, rfl, rfl⟩, hrun⟩
    cases hbudget
    dsimp only at hpass hrun
    rw [hidle] at hpass hrun
    cases hpass
    rw [get_kept hmem] at hrun
    exact ⟨⟨hknown, hvalid⟩, hrun⟩
  · rintro ⟨⟨hknown, hvalid⟩, hrun⟩
    rw [<- get_kept hmem] at hrun
    exact ⟨none, w, by rw [Task.read, hidle], (), w, rfl, _, _, ⟨hknown, hvalid, rfl, rfl⟩, hrun⟩

theorem sendWithin_eq_done (hidle : w.memory.activeBudget = none)
    (hmem : source ∈ w.storage.metadata) {method : Method}
    (hdirect : Api.resolvesFirst (w.storage.requests.get source.sourceId) method = false)
    (hhost : api.Accepts (api.asks (w.tick + 3) w.drawn (w.storage.requests.get source.sourceId)))
    {depth : Nat} {u : Unit} : api.sendWithin (depth + 1) source method w = (.done u, t) ↔
      (api.Known w.storage.metadata ∧ validRequests w.storage.requests = true) ∧
      Api.held (w.storage.requests.get source.sourceId) method = false ∧
      t = w.passed api source method := by
  rw [sendWithin_reads hc hidle hmem, hdirect]
  apply and_congr_right
  intro h
  have hsource := validSource_of_mem h.1.1 hmem
  simp only [validSource, Bool.and_eq_true] at hsource
  have hsubmit := @submit_eq_done api w.ticked.ticked t source hc method
    (w.storage.requests.keep (isEntry w.storage.metadata)) (validRequests_filter h.2 _)
    hsource.1.1 (by rw [get_kept hmem]; exact hhost) u
  rw [get_kept hmem] at hsubmit
  exact hsubmit

theorem sendDisconnect_eq_done (hdepth : 2 <= api.depth) (hidle : w.memory.activeBudget = none)
    (hmem : source ∈ w.storage.metadata)
    (hhost : forall asked, asked ∈ api.disconnectAsks w.tick w.drawn
      (w.storage.requests.get source.sourceId) -> api.Accepts asked) {u : Unit} :
    api.send source .disconnect w = (.done u, t) ↔
      (api.Known w.storage.metadata ∧ validRequests w.storage.requests = true) ∧
      Passable (w.storage.requests.get source.sourceId) ∧ t = w.cleared api source := by
  rcases Nat.exists_eq_add_of_le' hdepth with ⟨depth, hsum⟩
  rw [Api.send, hsum]
  unfold Api.disconnectAsks at hhost
  unfold World.cleared
  cases hfirst : Api.resolvesFirst (w.storage.requests.get source.sourceId) .disconnect with
  | false =>
    rw [hfirst] at hhost
    rw [sendWithin_eq_done hc hidle hmem hfirst (hhost _ mem_cons_self),
      passable_iff_of_direct hfirst]
    rfl
  | true =>
    rw [hfirst] at hhost
    rcases resolvesFirst_eq_true.mp hfirst with ⟨id, hpend⟩
    rw [sendWithin_reads hc hidle hmem, hfirst, if_pos rfl, bind_eq_done]
    apply and_congr_right
    intro hread
    -- the connection is resolved with its own id, the disconnect finds nothing pending
    have hconnect := fun v => @sendWithin_eq_done api w.ticked.ticked v source hc hidle hmem
      .connect (by rw [show w.ticked.ticked.storage = w.storage from rfl, hpend]; rfl)
      (hhost _ mem_cons_self) depth ()
    generalize hnext : w.ticked.ticked.passed api source .connect = v at hconnect ⊢
    rcases passed_eq w.ticked.ticked api source .connect with ⟨hmemory, htick, hstore⟩
    have hdrawn : v.drawn = w.drawn + 1 := by
      rw [<- hnext]
      simp [World.passed, Api.chosen, World.ticked, hpend, World.sent]
    rw [hnext] at hmemory htick hstore
    have hnone : v.storage.requests.get source.sourceId = none := by
      rw [hstore, get_erase, if_pos rfl]
    have hmeta : v.storage.metadata = w.storage.metadata := by
      rw [hstore]
      rfl
    have hvalid : validRequests v.storage.requests = true := by
      rw [hstore]
      exact validRequests_filter (validRequests_filter hread.2 _) _
    have hdisconnect := @sendWithin_eq_done api v t source hc (hmemory ▸ hidle)
      (hmeta ▸ hmem) .disconnect (by rw [hnone]; rfl)
      (by rw [hnone, htick, hdrawn]; exact hhost _ (mem_cons_of_mem _ mem_cons_self))
    have hpass : Passable (w.storage.requests.get source.sourceId) := by
      intro _ hreq
      cases hpend.symm.trans hreq
      exact Or.inl rfl
    constructor
    · rintro ⟨_, mid, hrun, hlast⟩
      cases ((hconnect mid).mp hrun).2.2
      exact ⟨hpass, (hdisconnect.mp hlast).2.2⟩
    · intro h
      refine ⟨(), v, (hconnect v).mpr ⟨hread, ?_, rfl⟩, hdisconnect.mpr ⟨?_, ?_, h.2⟩⟩
      · rw [show w.ticked.ticked.storage = w.storage from rfl, hpend]
        rfl
      · rw [hmeta]
        exact ⟨hread.1, hvalid⟩
      · rw [hnone]
        rfl

/-!
## The command
-/

/-- A source is removed exactly if all tables can be read and a disconnect may pass. -/
theorem disconnectSource_iff (hdepth : 2 <= api.depth) (hidle : w.memory.activeBudget = none)
    (hmem : source ∈ w.storage.metadata) (hkeys : (w.storage.states.map Prod.fst).Nodup)
    (hhost : forall asked, asked ∈ api.disconnectAsks (w.tick + 3) w.drawn
      (w.storage.requests.get source.sourceId) -> api.Accepts asked) :
    ((exists u t, api.disconnectSource source w = (.done u, t)) ↔
      Readable api w.storage ∧ Passable (w.storage.requests.get source.sourceId)) ∧
    forall u t, api.disconnectSource source w = (.done u, t) ->
      t.storage.metadata =
        w.storage.metadata.filter (fun entry => entry.sourceId != source.sourceId) ∧
      Removed source.sourceId t.storage := by
  have hsend := fun t u => @sendDisconnect_eq_done api
    (w.ticked.ticked.ticked.setStates (nextStates w source .pendingDisconnect)) t source hc
    hdepth hidle hmem hhost u
  have hcleared := cleared_eq
    (w.ticked.ticked.ticked.setStates (nextStates w source .pendingDisconnect)) api source
  generalize World.cleared _ api source = v at hsend hcleared
  rcases hcleared with ⟨_, hstore, hnone⟩
  simp only [Api.disconnectSource, bind_eq_done, setState_eq_done hc, Api.saveMetadata,
    metadata_eq_done hc, states_eq_done hc, storageSet_eq_done hc]
  refine ⟨⟨?_, ?_⟩, ?_⟩
  · rintro ⟨_, _, _, _, ⟨hknown, hstates, rfl⟩, _, _, hrun, _⟩
    rcases (hsend _ _).mp hrun with ⟨⟨_, hreqs⟩, hpass, _⟩
    exact ⟨⟨hknown, hstates, hreqs⟩, hpass⟩
  · rintro ⟨⟨hknown, hstates, hreqs⟩, hpass⟩
    refine ⟨(), _, (), _, ⟨hknown, hstates, rfl⟩, (), v, (hsend v ()).mpr ⟨⟨hknown, hreqs⟩,
      hpass, rfl⟩, _, _, ⟨?_, rfl, rfl⟩, (), _, rfl, _, _, ⟨?_, rfl, rfl⟩, rfl⟩
    · rw [hstore]
      exact hknown
    · change validStates v.storage.states = true
      rw [hstore]
      exact validStates_next hknown.1 hkeys hmem rfl .pendingDisconnect
  · rintro _ _ ⟨_, _, ⟨_, _, rfl⟩, _, _, hrun, _, _, ⟨_, rfl, rfl⟩, _, _, rfl, _, _,
      ⟨_, rfl, rfl⟩, rfl⟩
    cases ((hsend _ _).mp hrun).2.2
    have hmeta : v.storage.metadata = w.storage.metadata := by
      rw [hstore]
      rfl
    refine ⟨?_, ?_, ?_, ?_⟩
    · exact congrArg _ hmeta
    · change isEntry (v.storage.metadata.filter _) _ = false
      rw [isEntry_filter]
      simp
    · exact (get_erase _ _ _).trans (if_pos rfl)
    · change v.storage.requests.get _ = none
      rw [hstore]
      exact hnone

end

theorem getAdapter_id {allowFixture : Bool} {id : String} {adapter : Adapter}
    (h : getAdapter allowFixture id = some adapter) : adapter.id = id := by
  unfold getAdapter at h
  split at h
  · rename_i hfixture
    cases h
    exact (beq_iff_eq.mp (Bool.and_eq_true_iff.mp hfixture).2).symm
  · simpa using List.find?_some h

theorem find_source (hvalid : validMetadata entries = true) (hmem : source ∈ entries) :
    entries.find? (fun entry => decide (entry.adapter = source.adapter) &&
      decide (entry.storeId = source.storeId)) = some source := by
  simp only [validMetadata, Bool.and_eq_true, decide_eq_true_eq] at hvalid
  cases hfound : entries.find? (fun entry => decide (entry.adapter = source.adapter) &&
      decide (entry.storeId = source.storeId)) with
  | none =>
    have hmiss := List.find?_eq_none.mp hfound source hmem
    simp at hmiss
  | some entry =>
    have hsame := List.find?_some hfound
    simp only [Bool.and_eq_true, decide_eq_true_eq] at hsame
    rw [inj_on_of_nodup_map hvalid.2 (mem_of_find?_eq_some hfound) hmem (Prod.ext hsame.1 hsame.2)]

section

variable (hc : Cooperates api) {adapter : Adapter} {tab : Tab}
  (htab : ActiveTab api adapter source tab) (hid : source.adapter = adapter.id)

include hc htab

theorem tabStore_eq_done (hstore : source.storeId ≠ "") {id : Option String} :
    api.tabStore tab w = (.done id, t) ↔
      id = some source.storeId ∧ t = { w with tick := w.tick + tab.lookups } := by
  unfold Api.tabStore Api.tabStores Tab.lookups
  rcases htab.store with hgiven | ⟨hnone, hstores⟩
  · simp [hgiven, hstore, bind_eq_done, pure_eq_done]
    exact and_comm
  · rcases hstores w.tick with ⟨_, hanswer, hid⟩
    simp [hnone, bind_eq_done, await_eq_done hc, hanswer, pure_eq_done, hid]
    exact and_comm

include hid

theorem selectSource_eq_done (hvalid : validMetadata entries = true)
    (hmem : source ∈ entries) {found : Source} :
    api.selectSource adapter (entries.filter (fun entry => entry.adapter == adapter.id)) w =
      (.done found, t) ↔ found = source ∧ t = { w with tick := w.tick + 1 + tab.lookups } := by
  have hsource := validSource_of_mem hvalid hmem
  simp only [validSource, Bool.and_eq_true] at hsource
  have hfind := find_source hvalid hmem
  rw [hid] at hfind
  rcases htab.query w.tick with ⟨_, hquery⟩
  simp [Api.selectSource, bind_eq_done, await_eq_done hc, hquery, htab.visible,
    htab.origin, failWhen_eq_done, tabStore_eq_done hc htab (by simpa using hsource.1.2),
    hfind, Task.orFail, pure_eq_done, World.ticked]

theorem performDisconnect_iff (hdepth : 2 <= api.depth) (hidle : w.memory.activeBudget = none)
    (hmem : source ∈ w.storage.metadata) (hkeys : (w.storage.states.map Prod.fst).Nodup)
    (hhost : forall asked, asked ∈ api.disconnectAsks (w.tick + 2 + tab.lookups + 3) w.drawn
      (w.storage.requests.get source.sourceId) -> api.Accepts asked) :
    (exists reply t, api.performNamed .disconnect adapter w = (.done reply, t) ∧
        Removed source.sourceId t.storage) ↔
      Readable api w.storage ∧ Passable (w.storage.requests.get source.sourceId) := by
  have hremove := disconnectSource_iff hc
    (w := { w.ticked with tick := w.ticked.tick + 1 + tab.lookups }) hdepth hidle hmem hkeys hhost
  simp only [Api.performNamed, Api.disconnect, bind_eq_done, metadata_eq_done hc]
  constructor
  · rintro ⟨_, _, ⟨_, _, ⟨hknown, rfl, rfl⟩, _, _, ⟨_, _, hselect, _, _, hrun, _⟩, _⟩, _⟩
    rcases (selectSource_eq_done hc htab hid hknown.1 hmem).mp hselect with ⟨rfl, rfl⟩
    exact hremove.1.mp ⟨_, _, hrun⟩
  · intro h
    rcases hremove.1.mpr h with ⟨_, t, hrun⟩
    rcases hremove.2 _ t hrun with ⟨hmeta, hremoved⟩
    have hknown : api.Known t.storage.metadata := by
      rw [hmeta]
      refine ⟨validMetadata_filter h.1.metadata.1 _, any_eq_false.mpr ?_⟩
      intro entry hentry
      exact any_eq_false.mp h.1.metadata.2 entry (mem_of_mem_filter hentry)
    have hlast : exists last, (if t.storage.metadata.any (fun entry => entry.adapter == adapter.id)
        then pure () else api.await (fun tick => if api.remove tick then some () else none))
        t.ticked = (Outcome.done (), last) ∧ last.storage = t.storage := by
      split
      · exact ⟨t.ticked, rfl, rfl⟩
      · exact ⟨t.ticked.ticked, (await_eq_done hc).mpr ⟨if_pos (hc.remove _), rfl⟩, rfl⟩
    rcases hlast with ⟨last, hlast, hsame⟩
    refine ⟨.disconnected, last, ⟨_, _, ⟨h.1.metadata, rfl, rfl⟩, (), last, ⟨source, _,
      (selectSource_eq_done hc htab hid h.1.metadata.1 hmem).mpr ⟨rfl, rfl⟩, _, t, hrun, _, _,
      ⟨hknown, rfl, rfl⟩, hlast⟩, rfl⟩, ?_⟩
    rw [hsame]
    exact hremoved

end

theorem performCommand_disconnect {adapter : Adapter} {id : String}
    (hadapt : getAdapter api.allowFixture id = some adapter)
    (hflight : adapter.id ∉ w.memory.inflight) : api.performCommand (.named .disconnect id) w =
      Task.always (api.performNamed .disconnect adapter)
        (World.mapMemory (Api.leaveFlight adapter.id))
        (w.mapMemory (Api.enterFlight adapter.id)) := by
  have hfree : w.memory.inflight.contains adapter.id = false := by simpa using hflight
  simp only [Api.performCommand, hadapt]
  change (Task.failWhen (w.memory.inflight.contains adapter.id) Code.operationInProgress >>= _)
    w = _
  rw [hfree]
  rfl

end

/-- With the host accepting each request of the command, the disconnect command of a source
removes it exactly if what is stored can be read and no reconciliation of the source is
pending. -/
theorem disconnect_removes_iff (api : Api) (w : World) (source : Source) (adapter : Adapter)
    (tab : Tab) (hc : Cooperates api) (htab : ActiveTab api adapter source tab)
    (hdepth : 2 <= api.depth) (hidle : w.memory.activeBudget = none)
    (hflight : adapter.id ∉ w.memory.inflight)
    (hadapt : getAdapter api.allowFixture source.adapter = some adapter)
    (hmem : source ∈ w.storage.metadata) (hkeys : (w.storage.states.map Prod.fst).Nodup)
    (himport : forall request, w.storage.requests.get source.sourceId = some request ->
      request.method ≠ .importGrant)
    (hhost : forall asked, asked ∈ api.disconnectAsks (w.tick + 2 + tab.lookups + 3) w.drawn
      (w.storage.requests.get source.sourceId) -> api.Accepts asked) :
    (exists reply next, api.performCommand (.named .disconnect source.adapter) w =
        (.done reply, next) ∧ Removed source.sourceId next.storage) ↔ Readable api w.storage ∧
        forall request, w.storage.requests.get source.sourceId = some request ->
          request.method ≠ .reconcile := by
  have hpassable : Passable (w.storage.requests.get source.sourceId) ↔
      forall request, w.storage.requests.get source.sourceId = some request ->
        request.method ≠ .reconcile := by
    refine forall_congr' (fun request => forall_congr' (fun _ => ?_))
    cases hmethod : request.method <;> simp_all
  have hiff := performDisconnect_iff (w := w.mapMemory (Api.enterFlight adapter.id)) hc htab
    (getAdapter_id hadapt).symm hdepth hidle hmem hkeys hhost
  rw [<- hpassable, performCommand_disconnect hadapt hflight]
  refine Iff.trans ?_ hiff
  simp only [Task.always_eq_done]
  constructor
  · rintro ⟨reply, _, ⟨t, hrun, rfl⟩, hremoved⟩
    exact ⟨reply, t, hrun, hremoved⟩
  · rintro ⟨reply, t, hrun, hremoved⟩
    exact ⟨reply, _, ⟨t, hrun, rfl⟩, hremoved⟩

/-- A browser with one tab at the provider, and a host that accepts. -/
def acceptingApi : Api :=
  { sampleApi with
    randomId := fun n => sampleId (n % 64)
    port := fun _ => ⟨true, true,
      [.message (.result "aaa" true .ready), .message (.result "aa" true .ready)]⟩ }

theorem disconnect_removes_connected :
    exists reply next, acceptingApi.performCommand (.named .disconnect "github")
        { storage := ⟨[sampleSource], [("a", .connectedSchemaUnproven)], []⟩, drawn := 1 } =
      (.done reply, next) ∧ Removed "a" next.storage := by
  refine (disconnect_removes_iff acceptingApi _ sampleSource
    ⟨"github", "https://github.com", false⟩ ⟨some 1, some "https://github.com", false, none⟩
    ⟨fun _ => rfl, fun _ => rfl, fun _ => rfl, fun _ => rfl, fun _ => rfl,
      fun n => (by decide +kernel : forall m : Fin 64, isTextId 64 (sampleId m) = true)
        ⟨n % 64, n.mod_lt (by decide)⟩⟩
    ⟨fun _ => ⟨[], rfl⟩, rfl, rfl, .inr ⟨rfl, fun _ => ⟨_, rfl, by decide⟩⟩⟩
    (by decide) rfl (by decide) (by decide) mem_cons_self (by decide)
    (fun request h => by cases h) ?_).mpr
    ⟨⟨⟨by decide, by decide⟩, by decide, by decide⟩, nofun⟩
  intro _ hasked
  cases mem_singleton.mp hasked
  exact ⟨rfl, rfl, true, .ready, [], rfl⟩

def lostReconcile : World :=
  run sampleApi.step {} [.command (.named .connect "github"), .command (.named .reconcile "github")]

/-- Whatever the host answers from then on, the disconnect command fails before it asks the
host anything, and after it neither the reconcile nor the connect command goes through. -/
theorem disconnect_refused_by_lost_reconcile :
    lostReconcile.storage.requests.get "a" = some ⟨"aaaa", .reconcile⟩ ∧
    forall port : Nat -> Connection, let api := { sampleApi with port }
      let next := api.step lostReconcile (.command (.named .disconnect "github"))
      (api.performCommand (.named .disconnect "github") lostReconcile).1 =
        .failed .uncertainOperation ∧
      next.storage.metadata = [sampleSource] ∧
      (api.performCommand (.named .reconcile "github") next).1 = .failed .disconnectPending ∧
      (api.performCommand (.named .connect "github") next).1 = .failed .uncertainOperation := by
  refine ⟨rfl, ?_⟩
  intro port
  exact ⟨rfl, rfl, rfl, rfl⟩

end Omux.Browser
