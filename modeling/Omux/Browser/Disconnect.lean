import Omux.Browser.Unresolved

/-!
# Disconnect intent

A source that is to be disconnected is marked in the stored states before anything is
sent.  The mark may go only after the host accepted the disconnect and the metadata was
removed, or after a later connection was accepted.
-/

namespace Omux.Browser

open Library List

/-- What takes the mark from a source; the entries are newest first. -/
def Released (source : String) (between : List Entry) : Prop :=
  (exists newer sources older id, between = newer ++ .metadata sources :: older ∧
    isEntry sources source = false ∧ Entry.accepted source id .disconnect ∈ older) ∨
  (exists newer older id, between = newer ++ .accepted source id .connect :: older ∧
    Entry.posted source id .connect ∈ older)

/-- Once stored, a mark is in every later stored state until it is released. -/
def Durable (log : List Entry) : Prop :=
  forall newer later between earlier older source,
    log = newer ++ .states later :: (between ++ .states earlier :: older) ->
    Dictionary.get earlier source = some .pendingDisconnect ->
    Dictionary.get later source = some .pendingDisconnect ∨ Released source between

/-- The source was marked and not released since. -/
def Marked (source : String) (log : List Entry) : Prop :=
  exists between states older, log = between ++ .states states :: older ∧
    Dictionary.get states source = some .pendingDisconnect ∧ ¬ Released source between

variable {source : String} {log recent : List Entry}

theorem Released.cons {between : List Entry} (h : Released source between) (entry : Entry) :
    Released source (entry :: between) := by
  cases h with
  | inl hremoved =>
    rcases hremoved with ⟨newer, sources, older, id, hsplit, hentry, hacc⟩
    exact Or.inl ⟨entry :: newer, sources, older, id, by rw [hsplit]; rfl, hentry, hacc⟩
  | inr hconn =>
    rcases hconn with ⟨newer, older, id, hsplit, hposted⟩
    exact Or.inr ⟨entry :: newer, older, id, by rw [hsplit]; rfl, hposted⟩

theorem Marked.of_cons {entry : Entry} (h : Marked source (entry :: log)) : (Marked source log) ∨
      exists states, entry = .states states ∧
        Dictionary.get states source = some .pendingDisconnect := by
  rcases h with ⟨between, states, older, hsplit, hstate, hheld⟩
  cases between with
  | nil =>
    rw [nil_append, List.cons.injEq] at hsplit
    exact Or.inr ⟨states, hsplit.1, hstate⟩
  | cons first rest =>
    rw [cons_append, List.cons.injEq] at hsplit
    refine Or.inl ⟨rest, states, older, hsplit.2, hstate, ?_⟩
    intro hreleased
    exact hheld (hreleased.cons first)

theorem Durable.cons {entry : Entry} (h : Durable log)
    (hother : forall states, entry ≠ .states states) : Durable (entry :: log) := by
  intro newer later between earlier older source hsplit hmarked
  cases newer with
  | nil =>
    rw [nil_append, List.cons.injEq] at hsplit
    exact absurd hsplit.1 (hother later)
  | cons _ rest =>
    rw [cons_append, List.cons.injEq] at hsplit
    exact h rest later between earlier older source hsplit.2 hmarked

theorem Durable.states {states : Dictionary SourceState} (h : Durable log)
    (hmarks : forall source, Marked source log ->
      Dictionary.get states source = some .pendingDisconnect) :
    Durable (.states states :: log) := by
  intro newer later between earlier older source hsplit hmarked
  cases newer with
  | nil =>
    rw [nil_append, List.cons.injEq] at hsplit
    rcases hsplit with ⟨hstates, hlog⟩
    cases hstates
    by_cases hreleased : Released source between
    · exact Or.inr hreleased
    · exact Or.inl (hmarks source ⟨between, earlier, older, hlog, hmarked, hreleased⟩)
  | cons _ rest =>
    rw [cons_append, List.cons.injEq] at hsplit
    exact h rest later between earlier older source hsplit.2 hmarked

/-!
## The invariant
-/

structure Bound (api : Api) (w : World) : Prop where
  durable : Durable w.log
  marked : forall source, Marked source w.log ->
    w.storage.states.get source = some .pendingDisconnect ∧
      isEntry w.storage.metadata source = true
  drawn : forall source, source ∈ w.storage.metadata -> Drawn api w source.sourceId

theorem Bound.empty (api : Api) : Bound api {} := by
  constructor
  · intro newer _ between _ older source hsplit
    cases newer <;> cases hsplit
  · intro source hmarked
    rcases hmarked with ⟨between, _, older, hsplit, _⟩
    cases between <;> cases hsplit
  · nofun

theorem Bound.steady (api : Api) : Steady (Bound api) := by
  constructor
  · intro w h
    exact { h with }
  · intro w f h
    exact { h with }
  · intro w h
    refine ⟨h.durable, h.marked, ?_⟩
    intro source hsource
    exact Consistent.drawn_mono (h.drawn source hsource) (Nat.le_succ _) rfl

theorem Bound.setStates {api : Api} {w : World} (h : Bound api w)
    {states : Dictionary SourceState} (hkeep : forall source, Marked source w.log ->
      states.get source = some .pendingDisconnect)
    (hnew : forall source, states.get source = some .pendingDisconnect ->
      isEntry w.storage.metadata source = true) : Bound api (w.setStates states) := by
  constructor
  · exact h.durable.states hkeep
  · intro source hmarked
    cases hmarked.of_cons with
    | inl hold => exact ⟨hkeep source hold, (h.marked source hold).2⟩
    | inr hstored =>
      rcases hstored with ⟨_, hsame, hstate⟩
      cases hsame
      exact ⟨hstate, hnew source hstate⟩
  · exact h.drawn

theorem Bound.setMetadata {api : Api} {w : World} (h : Bound api w) {sources : List Source}
    (hkeep : forall source, Marked source (.metadata sources :: w.log) ->
      isEntry sources source = true)
    (hdrawn : forall source, source ∈ sources -> Drawn api w source.sourceId) :
    Bound api (w.setMetadata sources) := by
  have hold : forall {source : String}, Marked source (.metadata sources :: w.log) ->
      Marked source w.log := by
    intro source hmarked
    cases hmarked.of_cons with
    | inl hmarked => exact hmarked
    | inr hstored =>
      rcases hstored with ⟨_, hsame, _⟩
      cases hsame
  constructor
  · exact h.durable.cons nofun
  · intro source hmarked
    exact ⟨(h.marked source (hold hmarked)).1, hkeep source hmarked⟩
  · exact hdrawn

/-!
## What a send leaves behind
-/

/-- The entries of a send: no states, no metadata, and an answer only to a message. -/
structure Trace (recent : List Entry) : Prop where
  states : forall states, Entry.states states ∉ recent
  metadata : forall sources, Entry.metadata sources ∉ recent
  answered : forall newer older source id method,
    recent = newer ++ .accepted source id method :: older ->
      Entry.posted source id method ∈ older

theorem trace_nil : Trace [] := by
  constructor
  · nofun
  · nofun
  · intro newer _ _ _ _ h
    cases newer <;> cases h

theorem Trace.cons {entry : Entry} (h : Trace recent)
    (hstates : forall states, entry ≠ .states states)
    (hmeta : forall sources, entry ≠ .metadata sources)
    (hanswer : forall source id method, entry = .accepted source id method ->
      Entry.posted source id method ∈ recent) : Trace (entry :: recent) := by
  constructor
  · intro states hmem
    cases mem_cons.mp hmem with
    | inl hnew => exact hstates states hnew.symm
    | inr hold => exact h.states states hold
  · intro sources hmem
    cases mem_cons.mp hmem with
    | inl hnew => exact hmeta sources hnew.symm
    | inr hold => exact h.metadata sources hold
  · intro newer older source id method hsplit
    cases newer with
    | nil =>
      rw [nil_append, List.cons.injEq] at hsplit
      rw [<- hsplit.2]
      exact hanswer source id method hsplit.1
    | cons _ rest =>
      rw [cons_append, List.cons.injEq] at hsplit
      exact h.answered rest older source id method hsplit.2

theorem Trace.requests (h : Trace recent) (requests : Dictionary Pending) :
    Trace (.requests requests :: recent) :=
  h.cons nofun nofun nofun

theorem Trace.posted (h : Trace recent) (source id : String) (method : Method) :
    Trace (.posted source id method :: recent) :=
  h.cons nofun nofun nofun

theorem Trace.accepted (h : Trace recent) {id : String} {method : Method}
    (hposted : Entry.posted source id method ∈ recent) :
    Trace (.accepted source id method :: recent) := by
  refine h.cons nofun nofun ?_
  intro s i m hsame
  cases hsame
  exact hposted

/-- Since `base` only a send was at work, and its entries meet `P`. -/
structure SinceWith (base : World) (P : List Entry -> Prop) (w : World) : Prop where
  states : w.storage.states = base.storage.states
  metadata : w.storage.metadata = base.storage.metadata
  drawn : base.drawn <= w.drawn
  log : exists recent, w.log = recent ++ base.log ∧ Trace recent ∧ P recent

abbrev Since (base : World) : World -> Prop :=
  SinceWith base (fun _ => True)

section

variable {api : Api} {base w : World} {P : List Entry -> Prop}

theorem SinceWith.steady : Steady (SinceWith base P) := by
  constructor
  · intro w h
    exact { h with }
  · intro w f h
    exact { h with }
  · intro w h
    exact { h with drawn := Nat.le_succ_of_le h.drawn }

theorem SinceWith.since (h : SinceWith base P w) : Since base w := by
  rcases h.log with ⟨recent, hlog, htrace, _⟩
  exact ⟨h.states, h.metadata, h.drawn, recent, hlog, htrace, trivial⟩

theorem since_refl (w : World) : Since w w :=
  ⟨rfl, rfl, le_rfl, [], rfl, trace_nil, trivial⟩

theorem SinceWith.record {Q : List Entry -> Prop} {entry : Entry} (h : SinceWith base P w)
    (hcons : forall recent, Trace recent -> P recent ->
      Trace (entry :: recent) ∧ Q (entry :: recent)) : SinceWith base Q (w.record entry) := by
  rcases h.log with ⟨recent, hlog, htrace, hp⟩
  refine ⟨h.states, h.metadata, h.drawn, entry :: recent, ?_, hcons recent htrace hp⟩
  rw [World.record, hlog]
  rfl

theorem SinceWith.setRequests (h : SinceWith base P w) (requests : Dictionary Pending)
    (hcons : forall recent, P recent -> P (.requests requests :: recent)) :
    SinceWith base P (w.setRequests requests) := by
  rcases h.log with ⟨recent, hlog, htrace, hp⟩
  refine ⟨h.states, h.metadata, h.drawn, .requests requests :: recent, ?_,
    htrace.requests requests, hcons recent hp⟩
  rw [World.setRequests, hlog]
  rfl

theorem keeps_setRequests (requests : Dictionary Pending)
    (hcons : forall recent, P recent -> P (.requests requests :: recent)) :
    Keeps (SinceWith base P) (api.storageSet (World.setRequests requests)) :=
  storageSet_into api SinceWith.steady (fun _ h => h.setRequests requests hcons)
    (fun _ h => h) (fun _ h => h)

end

section

variable {api : Api} {base w : World} {id : String} {method : Method}

def Accepted (source : String) (method : Method) (recent : List Entry) : Prop :=
  exists id, Entry.accepted source id method ∈ recent

theorem deliver_since (source : Source) (requests : Dictionary Pending) :
    Meets (Since base) (api.deliver source id method requests)
      (fun _ => SinceWith base (Accepted source.sourceId method))
      (fun _ => Since base) (Since base) := by
  have hdelivery : Delivery source.sourceId id method requests (Since base)
      (SinceWith base (fun recent => Entry.posted source.sourceId id method ∈ recent))
      (SinceWith base (Accepted source.sourceId method))
      (SinceWith base (Accepted source.sourceId method)) (Since base) := by
    constructor
    · exact SinceWith.steady
    · exact fun _ h => h.record (fun _ htrace _ => ⟨htrace.posted _ _ _, mem_cons_self⟩)
    · exact fun _ h => h.record (fun _ htrace hposted =>
        ⟨htrace.accepted hposted, id, mem_cons_self⟩)
    · exact SinceWith.steady
    · exact fun _ h => h.setRequests _ (fun _ ⟨id, hmem⟩ => ⟨id, mem_cons_of_mem _ hmem⟩)
    · intro w h
      rcases h with h | h | h | h
      all_goals exact h.since
  exact hdelivery.meets api

theorem submit_since (source : Source) (budget : Option Budget) (requests : Dictionary Pending) :
    Meets (Since base) (api.submit source method budget requests)
      (fun _ => SinceWith base (Accepted source.sourceId method))
      (fun _ => Since base) (Since base) := by
  refine meets_bind (keeps_failWhen _ _) (fun _ => ?_)
  refine meets_bind (Q := fun _ => Since base) ?_ (fun id => ?_)
  · cases requests.get source.sourceId with
    | none => exact keeps_draw api SinceWith.steady
    | some request => exact keeps_pure request.id
  · refine meets_bind (keeps_requireEnvelope api id source.sourceId) (fun _ => ?_)
    refine meets_bind (keeps_setRequests _ (fun _ _ => trivial)) (fun _ => ?_)
    refine meets_bind (keeps_spendBudget api SinceWith.steady budget) (fun _ => ?_)
    exact deliver_since source _

/-- A successful send has the acceptance of its method in the log. -/
theorem send_since (source : Source) (method : Method) : Meets (Since base) (api.send source method)
      (fun _ => SinceWith base (Accepted source.sourceId method))
      (fun _ => Since base) (Since base) := by
  apply sendWithin_meets api (Q := fun method => SinceWith base (Accepted source.sourceId method))
    SinceWith.steady (fun _ h => h.since)
  intro method budget saved
  exact (submit_since source budget saved).pre (fun _ h => h.1)

/-!
## Marks and sends
-/

theorem Marked.of_trace (htrace : Trace recent) (h : Marked source (recent ++ log)) :
    Marked source log := by
  induction recent with
  | nil => exact h
  | cons entry rest ih =>
    have hrest : Trace rest := by
      constructor
      · intro states hmem
        exact htrace.states states (mem_cons_of_mem _ hmem)
      · intro sources hmem
        exact htrace.metadata sources (mem_cons_of_mem _ hmem)
      · intro newer older s i m hsplit
        exact htrace.answered (entry :: newer) older s i m (by rw [hsplit]; rfl)
    cases h.of_cons with
    | inl hmarked => exact ih hrest hmarked
    | inr hstored =>
      rcases hstored with ⟨states, rfl, _⟩
      exact absurd mem_cons_self (htrace.states states)

theorem Durable.append (h : Durable log) (hstates : forall states, Entry.states states ∉ recent) :
    Durable (recent ++ log) := by
  induction recent with
  | nil => exact h
  | cons _ _ ih =>
    apply Durable.cons
    · apply ih
      intro states hmem
      exact hstates states (mem_cons_of_mem _ hmem)
    · intro states hsame
      rw [hsame] at hstates
      exact hstates states mem_cons_self

theorem Bound.since (h : Bound api base) (hsince : Since base w) : Bound api w := by
  rcases hsince.log with ⟨_, hlog, htrace, _⟩
  constructor
  · rw [hlog]
    exact h.durable.append htrace.states
  · intro source hmarked
    rw [hlog] at hmarked
    rw [hsince.states, hsince.metadata]
    exact h.marked source (hmarked.of_trace htrace)
  · intro source hsource
    rw [hsince.metadata] at hsource
    exact Consistent.drawn_mono (h.drawn source hsource) hsince.drawn rfl

theorem trace_prefix {between older : List Entry} {states : Dictionary SourceState}
    (htrace : Trace recent) (h : recent ++ log = between ++ .states states :: older) :
    exists rest, between = recent ++ rest := by
  rcases append_eq_append_iff.mp h with hcase | hcase
  · rcases hcase with ⟨rest, hbetween, _⟩
    exact ⟨rest, hbetween⟩
  · rcases hcase with ⟨rest, hrecent, hrest⟩
    cases rest with
    | nil => exact ⟨[], by rw [hrecent]; simp⟩
    | cons =>
      rw [cons_append, List.cons.injEq] at hrest
      rw [<- hrest.1] at hrecent
      exact absurd (by rw [hrecent]; simp) (htrace.states states)

theorem not_marked_of_connect (h : SinceWith base (Accepted source .connect) w) :
    ¬ Marked source w.log := by
  intro hmarked
  rcases h.log with ⟨_, hlog, htrace, ⟨id, hacc⟩⟩
  rcases hmarked with ⟨_, _, _, hsplit, _, hheld⟩
  rw [hlog] at hsplit
  rcases trace_prefix htrace hsplit with ⟨rest, rfl⟩
  rcases append_of_mem hacc with ⟨newer, earlier, hrecent⟩
  apply hheld
  refine Or.inr ⟨newer, earlier ++ rest, id, ?_, ?_⟩
  · rw [hrecent, append_assoc]
    rfl
  · exact mem_append_left _ (htrace.answered newer earlier source id .connect hrecent)

/-- So does the removal of its metadata after an accepted disconnect. -/
theorem not_marked_of_removal (h : SinceWith base (Accepted source .disconnect) w)
    {sources : List Source} (hgone : isEntry sources source = false) :
    ¬ Marked source (.metadata sources :: w.log) := by
  intro hmarked
  rcases h.log with ⟨_, hlog, htrace, ⟨id, hacc⟩⟩
  rcases hmarked with ⟨between, _, _, hsplit, _, hheld⟩
  cases between with
  | nil => cases hsplit
  | cons _ later =>
    rw [cons_append, List.cons.injEq, hlog] at hsplit
    rcases hsplit with ⟨hfirst, hrest⟩
    rcases trace_prefix htrace hrest with ⟨_, hlater⟩
    apply hheld
    refine Or.inl ⟨[], sources, later, id, by rw [hfirst]; rfl, hgone, ?_⟩
    rw [hlater]
    exact mem_append_left _ hacc

end

end Omux.Browser
