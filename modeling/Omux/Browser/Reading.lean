import Omux.Browser.Service

/-!
# What the service reads

The parts of the service that only ask the browser for something.  They keep every
assertion about the storage and the log, and what they return was in the storage.
-/

namespace Omux.Browser

open Library

structure Steady (P : World -> Prop) : Prop where
  ticked : forall w, P w -> P w.ticked
  memory : forall w f, P w -> P (w.mapMemory f)
  drawn : forall w, P w -> P { w with drawn := w.drawn + 1 }

/-- However the task stops, `R` holds. -/
abbrev Leaves {α : Type} (P : World -> Prop) (task : Action α) (R : World -> Prop) : Prop :=
  Meets P task (fun _ => R) (fun _ => R) R

/-- The assertion holds at every point of the task. -/
abbrev Keeps {α : Type} (P : World -> Prop) (task : Action α) : Prop :=
  Meets P task (fun _ => P) (fun _ => P) P

theorem keeps_into {α : Type} {P R : World -> Prop} {task : Action α} (h : Keeps P task)
    (hout : forall w, P w -> R w) : Meets P task (fun _ => P) (fun _ => R) R :=
  h.post (fun _ _ hw => hw) (fun _ => hout) hout

theorem keeps_killed {α : Type} {P R : World -> Prop} {task : Action α} (h : Keeps P task)
    (hout : forall w, P w -> R w) : Meets P task (fun _ => P) (fun _ => P) R :=
  h.post (fun _ _ hw => hw) (fun _ _ hw => hw) hout

theorem Steady.and {P Q : World -> Prop} (hp : Steady P) (hq : Steady Q) :
    Steady (fun w => P w ∧ Q w) := by
  constructor
  · intro w h
    exact ⟨hp.ticked w h.1, hq.ticked w h.2⟩
  · intro w f h
    exact ⟨hp.memory w f h.1, hq.memory w f h.2⟩
  · intro w h
    exact ⟨hp.drawn w h.1, hq.drawn w h.2⟩

theorem steady_storage (P : Storage -> Prop) : Steady (fun w => P w.storage) := by
  constructor
  · intro w h
    exact h
  · intro w f h
    exact h
  · intro w h
    exact h

section

variable {P : World -> Prop} {α : Type} (api : Api)

theorem keeps_pure (a : α) : Keeps P (pure a : Action α) :=
  meets_pure (fun _ hw => hw)

theorem keeps_fail (code : Code) : Keeps P (Task.fail code : Action α) :=
  meets_fail (fun _ hw => hw)

theorem keeps_failWhen (cond : Bool) (code : Code) :
    Keeps P (Task.failWhen cond code : Action Unit) :=
  meets_failWhen (fun _ _ hw => hw) (fun _ hw => hw)

theorem keeps_orFail (value : Option α) (code : Code) :
    Keeps P (Task.orFail value code : Action α) :=
  meets_orFail (fun _ _ _ hw => hw) (fun _ hw => hw)

theorem keeps_bind {β : Type} {task : Action α} {next : α -> Action β} (htask : Keeps P task)
    (hnext : forall a, Keeps P (next a)) : Keeps P (task >>= next) :=
  meets_bind htask hnext

theorem keeps_liftExcept (value : Except Code α) : Keeps P (liftExcept value) := by
  cases value with
  | ok a => exact keeps_pure a
  | error code => exact keeps_fail code

section

variable (h : Steady P)
include h

theorem keeps_memory (f : Memory -> Memory) :
    Keeps P (Task.modify (World.mapMemory f) : Action Unit) :=
  meets_modify (fun w hw => h.memory w f hw)

theorem keeps_await (answer : Nat -> Option α) : Keeps P (api.await answer) := by
  intro w hw
  unfold Api.await
  split_ifs with hkilled
  · exact h.ticked w hw
  · cases answer w.tick with
    | none | some => exact h.ticked w hw

theorem keeps_draw : Keeps P api.draw := by
  intro w hw
  exact h.drawn w hw

theorem keeps_now : Keeps P api.now := by
  intro w hw
  exact h.ticked w hw

theorem storageGet_meets (value : Storage -> α) :
    Meets P (api.storageGet value) (fun a w => P w ∧ value w.storage = a) (fun _ => P) P := by
  refine meets_bind (keeps_await api h _) (fun _ => ?_)
  exact meets_read (fun w hw => ⟨hw, rfl⟩)

theorem metadata_meets : Meets P api.metadata
      (fun entries w => P w ∧ w.storage.metadata = entries ∧ validMetadata entries = true)
      (fun _ => P) P := by
  refine meets_bind (storageGet_meets api h Storage.metadata) (fun entries => ?_)
  refine meets_bind (Q := fun _ w =>
    P w ∧ w.storage.metadata = entries ∧ validMetadata entries = true) ?_ (fun _ => ?_)
  · apply meets_failWhen
    · intro w hvalid hw
      exact ⟨hw.1, hw.2, by simpa using hvalid⟩
    · intro w hw
      exact hw.1
  · refine meets_bind (Q := fun _ w =>
      P w ∧ w.storage.metadata = entries ∧ validMetadata entries = true) ?_ (fun _ => ?_)
    · exact meets_failWhen (fun w _ hw => hw) (fun w hw => hw.1)
    · exact meets_pure (fun w hw => hw)

theorem states_meets : Meets P api.states (fun states w => P w ∧ w.storage.states = states)
      (fun _ => P) P := by
  refine meets_bind (storageGet_meets api h Storage.states) (fun states => ?_)
  refine meets_bind (Q := fun _ w => P w ∧ w.storage.states = states) ?_ (fun _ => ?_)
  · exact meets_failWhen (fun w _ hw => hw) (fun w hw => hw.1)
  · exact meets_pure (fun w hw => hw)

theorem keeps_metadata : Keeps P api.metadata :=
  (metadata_meets api h).post (fun _ _ hw => hw.1) (fun _ _ hw => hw) (fun _ hw => hw)

theorem keeps_states : Keeps P api.states :=
  (states_meets api h).post (fun _ _ hw => hw.1) (fun _ _ hw => hw) (fun _ hw => hw)

theorem pendingRequests_meets : Meets P api.pendingRequests
      (fun requests w => P w ∧ requests = w.storage.requests.keep (isEntry w.storage.metadata))
      (fun _ => P) P := by
  refine meets_bind (storageGet_meets api h Storage.requests) (fun requests => ?_)
  have hsteady : Steady (fun w => P w ∧ w.storage.requests = requests) :=
    h.and (steady_storage (fun storage => storage.requests = requests))
  refine meets_bind (Q := fun _ w => P w ∧ w.storage.requests = requests) ?_ (fun _ => ?_)
  · exact meets_failWhen (fun w _ hw => hw) (fun w hw => hw.1)
  · refine meets_bind ((metadata_meets api hsteady).post (fun _ _ hw => hw) (fun _ _ hw => hw.1)
      (fun _ hw => hw.1)) (fun _ => ?_)
    intro w hw
    rcases hw with ⟨⟨hpre, hreqs⟩, hentries, _⟩
    exact ⟨hpre, by rw [hreqs, hentries]⟩

theorem keeps_requireBudget (budget : Option Budget) : Keeps P (api.requireBudget budget) := by
  cases budget with
  | none => exact keeps_pure ()
  | some => exact keeps_bind (keeps_now api h) (fun _ => keeps_failWhen _ _)

theorem keeps_spendBudget (budget : Option Budget) : Keeps P (api.spendBudget budget) := by
  cases budget with
  | none => exact keeps_pure ()
  | some =>
    refine keeps_bind (keeps_now api h) (fun _ => ?_)
    exact keeps_bind (keeps_failWhen _ _) (fun _ => keeps_memory h _)

end

theorem keeps_requireEnvelope (requestId sourceId : String) :
    Keeps P (api.requireEnvelope requestId sourceId) := by
  refine keeps_bind (meets_read (fun _ hw => hw)) (fun _ => ?_)
  exact keeps_failWhen _ _

section

variable (h : Steady P)
include h

theorem keeps_withinBudget : Keeps P api.withinBudget :=
  keeps_bind (keeps_now api h) (fun _ => meets_read (fun _ hw => hw))

theorem keeps_newBudget : Keeps P api.newBudget :=
  keeps_bind (keeps_now api h) (fun _ => keeps_pure _)

theorem keeps_health : Keeps P api.health := by
  refine keeps_bind (keeps_draw api h) (fun _ => ?_)
  refine keeps_bind (keeps_failWhen _ _) (fun _ => ?_)
  refine keeps_bind (keeps_await api h _) (fun connection => ?_)
  refine keeps_bind (keeps_failWhen _ _) (fun _ => ?_)
  cases connection.events with
  | nil => exact meets_kill (fun _ hw => hw)
  | cons event _ =>
    cases event with
    | message => exact keeps_liftExcept _
    | disconnected | timedOut => exact keeps_fail _

theorem keeps_context (adapter : Adapter) : Keeps P (api.context adapter) := by
  refine keeps_bind (keeps_await api h _) (fun _ => ?_)
  refine keeps_bind (keeps_failWhen _ _) (fun _ => ?_)
  refine keeps_bind (keeps_await api h _) (fun _ => ?_)
  refine keeps_bind (keeps_orFail _ _) (fun _ => ?_)
  refine keeps_bind (keeps_orFail _ _) (fun _ => ?_)
  refine keeps_bind (keeps_failWhen _ _) (fun _ => ?_)
  exact keeps_bind (keeps_await api h _) (fun _ => keeps_orFail _ _)

theorem keeps_tabStore (tab : Tab) : Keeps P (api.tabStore tab) := by
  refine keeps_bind ?_ (fun _ => keeps_pure _)
  unfold Api.tabStores
  split_ifs with hempty
  · exact keeps_await api h _
  · exact keeps_pure _

theorem keeps_standing (sources : List Source)
    (states : Dictionary SourceState) (selected : Option Adapter) :
    Keeps P (api.standing sources states selected) := by
  cases selected with
  | none => exact keeps_pure _
  | some adapter =>
    refine keeps_bind (keeps_await api h _) (fun tabs => ?_)
    cases tabs.head? with
    | none => exact keeps_pure _
    | some tab =>
      by_cases hhere : (!tab.incognito && tab.origin == some adapter.origin) = true
      · simp only [if_pos hhere]
        exact keeps_bind (keeps_tabStore api h tab) (fun _ => keeps_pure _)
      · simp only [if_neg hhere]
        exact keeps_pure _

theorem keeps_status (selected : Option Adapter) : Keeps P (api.status selected) := by
  refine keeps_bind (keeps_metadata api h) (fun _ => ?_)
  refine keeps_bind (keeps_states api h) (fun states => ?_)
  exact keeps_bind (keeps_standing api h _ states selected) (fun _ => keeps_pure _)

theorem selectSource_meets (adapter : Adapter) (sources : List Source) :
    Meets P (api.selectSource adapter sources) (fun source w => P w ∧ source ∈ sources)
      (fun _ => P) P := by
  refine meets_bind (keeps_await api h _) (fun tabs => ?_)
  cases tabs.head? with
  | none =>
    cases sources with
    | nil => exact meets_fail (fun _ hw => hw)
    | cons source rest =>
      cases rest with
      | nil => exact meets_pure (fun _ hw => ⟨hw, by simp⟩)
      | cons => exact meets_fail (fun _ hw => hw)
  | some tab =>
    refine meets_bind (keeps_failWhen _ _) (fun _ => ?_)
    refine meets_bind (keeps_tabStore api h tab) (fun _ => ?_)
    exact meets_orFail (fun _ _ hfound hw => ⟨hw, List.mem_of_find?_eq_some hfound⟩)
      (fun _ hw => hw)

end

theorem keeps_failWith (failure : Option Code) : Keeps P (Api.failWith failure) := by
  cases failure with
  | none => exact keeps_pure _
  | some code => exact keeps_fail code

theorem storageSet_meets {Q : World -> Prop} (h : Steady P) (change : World -> World)
    (hchange : forall w, P w -> Q (change w)) :
    Meets P (api.storageSet change) (fun _ => Q) (fun _ w => P w ∨ Q w) (fun w => P w ∨ Q w) := by
  intro w hw
  have hticked := h.ticked w hw
  unfold Api.storageSet
  cases api.set w.tick with
  | resolved => exact hchange w.ticked hticked
  | rejected landed =>
    cases landed with
    | true => exact Or.inr (hchange w.ticked hticked)
    | false => exact Or.inl hticked
  | killed landed =>
    cases landed with
    | true => exact Or.inr (hchange w.ticked hticked)
    | false => exact Or.inl hticked

theorem storageSet_into {Q R : World -> Prop} (h : Steady P) {change : World -> World}
    (hchange : forall w, P w -> Q (change w)) (hbefore : forall w, P w -> R w)
    (hafter : forall w, Q w -> R w) : Meets P (api.storageSet change) (fun _ => Q) (fun _ => R) R :=
  (storageSet_meets api h change hchange).post (fun _ _ hw => hw)
    (fun _ w hw => hw.elim (hbefore w) (hafter w)) (fun w hw => hw.elim (hbefore w) (hafter w))

/-!
## Sending
-/

/-- What the steps of a delivery make of the world; `safe` holds wherever it ends. -/
structure Delivery (source id : String) (method : Method) (requests : Dictionary Pending)
    (before posted accepted after safe : World -> Prop) : Prop where
  steady : Steady before
  posts : forall w, before w -> posted (w.record (.posted source id method))
  accepts : forall w, posted w -> accepted (w.record (.accepted source id method))
  settled : Steady accepted
  settles : forall w, accepted w -> after (w.setRequests (requests.erase source))
  safe : forall w, before w ∨ posted w ∨ accepted w ∨ after w -> safe w

/-- After an answer: the request is accepted, or only posted. -/
def Answered (id : String) (posted accepted : World -> Prop) (response : NativeMessage)
    (w : World) : Prop :=
  if response.accepts id then accepted w else posted w

section

variable {id : String} {method : Method} {requests : Dictionary Pending}
  {before posted accepted after safe : World -> Prop}

theorem Delivery.awaitResponse {source : String}
    (h : Delivery source id method requests before posted accepted after safe)
    (events : List PortEvent) : Meets posted (awaitResponse source id method events)
      (Answered id posted accepted) (fun _ => safe) safe := by
  have hsafe : forall w, posted w -> safe w := fun w hw => h.safe w (.inr (.inl hw))
  cases events with
  | nil => exact meets_kill hsafe
  | cons event _ =>
    cases event with
    | message response =>
      refine meets_bind (Q := fun _ => Answered id posted accepted response) ?_
        (fun _ => meets_pure (fun _ hw => hw))
      unfold noteAnswer Answered
      split_ifs with haccepts
      · exact meets_modify h.accepts
      · exact meets_pure (fun _ hw => hw)
    | disconnected | timedOut => exact meets_fail hsafe

theorem Delivery.awaitHealth {source : String}
    (h : Delivery source id method requests before posted accepted after safe)
    (healthId : String) (posts : Bool) (events : List PortEvent) :
    Meets before (awaitHealth healthId source id method posts events)
      (Answered id posted accepted) (fun _ => safe) safe := by
  have hsafe : forall w, before w -> safe w := fun w hw => h.safe w (.inl hw)
  cases events with
  | nil => exact meets_kill hsafe
  | cons event later =>
    cases event with
    | message =>
      refine meets_bind (keeps_into (keeps_liftExcept _) hsafe) (fun _ => ?_)
      refine meets_bind (keeps_into (keeps_failWhen _ _) hsafe) (fun _ => ?_)
      exact meets_bind (meets_modify h.posts) (fun _ => h.awaitResponse later)
    | disconnected | timedOut => exact meets_fail hsafe

theorem Delivery.meets {source : Source}
    (h : Delivery source.sourceId id method requests before posted accepted after safe) :
    Meets before (api.deliver source id method requests) (fun _ => after) (fun _ => safe) safe := by
  have hsafe : forall w, before w -> safe w := fun w hw => h.safe w (.inl hw)
  refine meets_bind (keeps_into (keeps_draw api h.steady) hsafe) (fun healthId => ?_)
  refine meets_bind (Q := Answered id posted accepted)
    (meets_handle (F := fun _ => safe) ?_ (fun _ => ?_)) (fun response => ?_)
  · refine meets_bind (keeps_into (keeps_failWhen _ _) hsafe) (fun _ => ?_)
    refine meets_bind (keeps_into (keeps_await api h.steady _) hsafe) (fun connection => ?_)
    refine meets_bind (keeps_into (keeps_failWhen _ _) hsafe) (fun _ => ?_)
    exact h.awaitHealth healthId connection.posts connection.events
  · split <;> exact meets_fail (fun _ hw => hw)
  · have hanswered : forall w, Answered id posted accepted response w -> safe w := by
      intro w hw
      unfold Answered at hw
      split at hw
      · exact h.safe w (.inr (.inr (.inl hw)))
      · exact h.safe w (.inr (.inl hw))
    refine meets_bind (keeps_into (keeps_liftExcept _) hanswered) (fun _ => ?_)
    refine meets_bind (Q := fun _ => accepted) (meets_failWhen ?_ hanswered) (fun _ => ?_)
    · intro w haccepts hw
      rwa [Answered, if_pos (by simpa using haccepts)] at hw
    · exact storageSet_into api h.settled h.settles
        (fun w hw => h.safe w (.inr (.inr (.inl hw))))
        (fun w hw => h.safe w (.inr (.inr (.inr hw))))

end

theorem sendWithin_meets {source : Source} {Q : Method -> World -> Prop} (h : Steady P)
    (hconnect : forall w, Q .connect w -> P w)
    (hsubmit : forall method budget saved, Meets
      (fun w => P w ∧ saved = w.storage.requests.keep (isEntry w.storage.metadata))
      (api.submit source method budget saved) (fun _ => Q method) (fun _ => P) P)
    (depth : Nat) (method : Method) :
    Meets P (api.sendWithin depth source method) (fun _ => Q method) (fun _ => P) P := by
  induction depth generalizing method with
  | zero => exact meets_kill (fun _ hw => hw)
  | succ depth ih =>
    refine meets_bind (Q := fun _ => P) (meets_read (fun _ hw => hw)) (fun budget => ?_)
    refine meets_bind (keeps_requireBudget api h budget) (fun _ => ?_)
    refine meets_bind (pendingRequests_meets api h) (fun saved => ?_)
    split_ifs with hfirst
    · exact meets_bind ((ih .connect).weaken (fun _ hw => hw.1) (fun _ => hconnect)
        (fun _ _ hw => hw) (fun _ hw => hw)) (fun _ => ih method)
    · exact hsubmit method budget saved

end

end Omux.Browser
