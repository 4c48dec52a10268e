import Mathlib.Logic.Function.Basic
import Omux.Browser.Reading
import Omux.Library.Run

/-!
# One unresolved mutation for each source

A request is stored before it is posted and deleted after the host accepted it.  The
invariant ties the stored requests to the log.
-/

namespace Omux.Browser

open Library List Dictionary

/-!
## Facts of a log

Logs have their newest entry first.
-/

def lastPost (source : String) : List Entry -> Option Pending
  | [] => none
  | .posted s id method :: older => if s = source then some ⟨id, method⟩ else lastPost source older
  | _ :: older => lastPost source older

/-- The last mutation posted for the source, if any, was answered and accepted. -/
def Resolved (source : String) : List Entry -> Prop
  | [] => True
  | .posted s _ _ :: older => s ≠ source ∧ Resolved source older
  | .accepted s id method :: older =>
    (s = source ∧ lastPost source older = some ⟨id, method⟩) ∨ Resolved source older
  | _ :: older => Resolved source older

def storedRequests : List Entry -> Dictionary Pending
  | [] => []
  | .requests requests :: _ => requests
  | _ :: older => storedRequests older

structure PostAllowed (source id : String) (method : Method) (older : List Entry) : Prop where
  stored : (storedRequests older).get source = some ⟨id, method⟩
  resolved : (forall s m, Entry.posted s id m ∉ older) -> Resolved source older
  same : forall s m, Entry.posted s id m ∈ older -> s = source ∧ m = method
  once : method = .importGrant -> forall s m, Entry.posted s id m ∉ older

def AllAllowed : List Entry -> Prop
  | [] => True
  | .posted source id method :: older => PostAllowed source id method older ∧ AllAllowed older
  | _ :: older => AllAllowed older

theorem AllAllowed.split {newer older : List Entry} {source id : String} {method : Method}
    (h : AllAllowed (newer ++ .posted source id method :: older)) :
    PostAllowed source id method older := by
  induction newer with
  | nil => exact h.1
  | cons entry _ ih =>
    cases entry with
    | posted => exact ih h.2
    | metadata | states | requests | accepted => exact ih h

theorem posted_of_lastPost {source id : String} {method : Method} {log : List Entry}
    (h : lastPost source log = some ⟨id, method⟩) : Entry.posted source id method ∈ log := by
  induction log with
  | nil => cases h
  | cons entry _ ih =>
    cases entry with
    | posted =>
      rw [lastPost] at h
      split_ifs at h with hsame
      · cases h
        rw [hsame]
        exact mem_cons_self
      · exact mem_cons_of_mem _ (ih h)
    | metadata | states | requests | accepted => exact mem_cons_of_mem _ (ih h)

theorem resolved_of_unposted {source : String} {log : List Entry}
    (h : forall id m, Entry.posted source id m ∉ log) : Resolved source log := by
  induction log with
  | nil => trivial
  | cons entry older ih =>
    have holder : Resolved source older := by
      apply ih
      intro id m hmem
      exact h id m (mem_cons_of_mem _ hmem)
    cases entry with
    | posted s i m =>
      refine ⟨?_, holder⟩
      intro hsame
      rw [hsame] at h
      exact h i m mem_cons_self
    | metadata | states | requests => exact holder
    | accepted => exact Or.inr holder

/-!
## The invariant
-/

/-- The name came from `randomId`. -/
def Drawn (api : Api) (w : World) (name : String) : Prop :=
  exists k, k < w.drawn ∧ api.randomId k = name

structure Consistent (api : Api) (w : World) : Prop where
  allowed : AllAllowed w.log
  stored : w.storage.requests = storedRequests w.log
  postedDrawn : forall source id m, Entry.posted source id m ∈ w.log ->
    Drawn api w source ∧ Drawn api w id
  pendingDrawn : forall source id m, w.storage.requests.get source = some ⟨id, m⟩ ->
    Drawn api w id
  sourceDrawn : forall source, source ∈ w.storage.metadata -> Drawn api w source.sourceId
  /-- Only the owner of a stored request has posted it. -/
  owner : forall source id m, w.storage.requests.get source = some ⟨id, m⟩ ->
    forall s method, Entry.posted s id method ∈ w.log -> s = source ∧ method = m
  distinct : forall first second id m m', w.storage.requests.get first = some ⟨id, m⟩ ->
    w.storage.requests.get second = some ⟨id, m'⟩ -> first = second
  settled : forall source, isEntry w.storage.metadata source = true ->
    w.storage.requests.get source = none -> Resolved source w.log
  pending : forall source id m, isEntry w.storage.metadata source = true ->
    w.storage.requests.get source = some ⟨id, m⟩ ->
    Resolved source w.log ∨ lastPost source w.log = some ⟨id, m⟩

theorem consistent_empty (api : Api) : Consistent api {} := by
  constructor
  · trivial
  · rfl
  · nofun
  · nofun
  · nofun
  · nofun
  · nofun
  · nofun
  · nofun

theorem isEntry_iff {entries : List Source} {id : String} :
    isEntry entries id = true ↔ exists entry, entry ∈ entries ∧ entry.sourceId = id := by
  simp [isEntry]

theorem isEntry_of_mem {entries : List Source} {source : Source} (h : source ∈ entries) :
    isEntry entries source.sourceId = true :=
  isEntry_iff.mpr ⟨source, h, rfl⟩

namespace Consistent

variable {api : Api} {w : World}

theorem drawn_mono {n : Nat} {name : String} (h : Drawn api w name) (hle : w.drawn <= n)
    {next : World} (hnext : next.drawn = n) : Drawn api next name := by
  rcases h with ⟨k, hk, hname⟩
  refine ⟨k, ?_, hname⟩
  rw [hnext]
  exact Nat.lt_of_lt_of_le hk hle

theorem draw (h : Consistent api w) : Consistent api { w with drawn := w.drawn + 1 } := by
  have hmono : forall {name : String}, Drawn api w name ->
      Drawn api { w with drawn := w.drawn + 1 } name := by
    intro name hname
    exact drawn_mono hname (Nat.le_succ _) rfl
  refine { h with postedDrawn := ?_, pendingDrawn := ?_, sourceDrawn := ?_ }
  · intro source id m hposted
    exact ⟨hmono (h.postedDrawn source id m hposted).1, hmono (h.postedDrawn source id m hposted).2⟩
  · intro source id m hpend
    exact hmono (h.pendingDrawn source id m hpend)
  · intro source hsource
    exact hmono (h.sourceDrawn source hsource)

theorem steady : Steady (Consistent api) := by
  constructor
  · intro w h
    exact { h with }
  · intro w f h
    exact { h with }
  · intro w h
    exact h.draw

theorem setStates (h : Consistent api w) (states : Dictionary SourceState) :
    Consistent api (w.setStates states) := by
  refine { h with postedDrawn := ?_, owner := ?_ }
  · intro source id m hposted
    exact h.postedDrawn source id m (by simpa [World.setStates] using hposted)
  · intro source id m hpend s method hposted
    exact h.owner source id m hpend s method (by simpa [World.setStates] using hposted)

theorem setMetadata (h : Consistent api w) {sources : List Source}
    (hsrcs : forall source, source ∈ sources -> source ∈ w.storage.metadata ∨ (Drawn api w
      source.sourceId ∧ forall id m, Entry.posted source.sourceId id m ∉ w.log)) :
    Consistent api (w.setMetadata sources) := by
  have hcase : forall source, isEntry sources source = true ->
      isEntry w.storage.metadata source = true ∨ Resolved source w.log := by
    intro source hentry
    rcases isEntry_iff.mp hentry with ⟨entry, hmem, rfl⟩
    cases hsrcs entry hmem with
    | inl hold => exact Or.inl (isEntry_of_mem hold)
    | inr hnew => exact Or.inr (resolved_of_unposted hnew.2)
  constructor
  · exact h.allowed
  · exact h.stored
  · intro source id m hposted
    exact h.postedDrawn source id m (by simpa [World.setMetadata] using hposted)
  · exact h.pendingDrawn
  · intro source hsource
    cases hsrcs source hsource with
    | inl hold => exact h.sourceDrawn source hold
    | inr hnew => exact hnew.1
  · intro source id m hpend s method hposted
    exact h.owner source id m hpend s method (by simpa [World.setMetadata] using hposted)
  · exact h.distinct
  · intro source hentry hnone
    cases hcase source hentry with
    | inl hold => exact h.settled source hold hnone
    | inr hresolved => exact hresolved
  · intro source id m hentry hpend
    cases hcase source hentry with
    | inl hold => exact h.pending source id m hold hpend
    | inr hresolved => exact Or.inl hresolved

/-- Requests may be written when each of them is an old one or belongs to a resolved
source and has an id that was never posted. -/
theorem setRequests (h : Consistent api w) {requests : Dictionary Pending}
    (hdrawn : forall source id m, requests.get source = some ⟨id, m⟩ -> Drawn api w id)
    (howner : forall source id m, requests.get source = some ⟨id, m⟩ ->
      forall s method, Entry.posted s id method ∈ w.log -> s = source ∧ method = m)
    (hdist : forall first second id m m', requests.get first = some ⟨id, m⟩ ->
      requests.get second = some ⟨id, m'⟩ -> first = second)
    (hsettled : forall source, isEntry w.storage.metadata source = true ->
      requests.get source = none -> Resolved source w.log)
    (hpend : forall source id m, isEntry w.storage.metadata source = true ->
      requests.get source = some ⟨id, m⟩ ->
      Resolved source w.log ∨ lastPost source w.log = some ⟨id, m⟩) :
    Consistent api (w.setRequests requests) := by
  constructor
  · exact h.allowed
  · rfl
  · intro source id m hposted
    exact h.postedDrawn source id m (by simpa [World.setRequests] using hposted)
  · exact hdrawn
  · exact h.sourceDrawn
  · intro source id m hstored s method hposted
    exact howner source id m hstored s method (by simpa [World.setRequests] using hposted)
  · exact hdist
  · exact hsettled
  · exact hpend

end Consistent

/-!
## Sending
-/

def With (api : Api) (entries : List Source) (w : World) : Prop :=
  Consistent api w ∧ w.storage.metadata = entries

theorem With.steady (api : Api) (entries : List Source) : Steady (With api entries) :=
  Consistent.steady.and (steady_storage (fun storage => storage.metadata = entries))

/-- The request is stored for the source, and an import has not been posted yet. -/
structure Ready (api : Api) (entries : List Source) (source id : String) (method : Method)
    (saved : Dictionary Pending) (w : World) : Prop where
  consistent : Consistent api w
  metadata : w.storage.metadata = entries
  requests : w.storage.requests = saved
  stored : w.storage.requests.get source = some ⟨id, method⟩
  unposted : method = .importGrant -> forall s m, Entry.posted s id m ∉ w.log

/-- The request was posted, and the host accepted it if `accepted` holds. -/
structure Posted (api : Api) (entries : List Source) (source : String) (request : Pending)
    (saved : Dictionary Pending) (accepted : Prop) (w : World) : Prop where
  consistent : Consistent api w
  metadata : w.storage.metadata = entries
  requests : w.storage.requests = saved
  last : lastPost source w.log = some request
  resolved : accepted -> Resolved source w.log

section

variable {api : Api} {entries : List Source} {source id : String} {method : Method}
  {saved : Dictionary Pending} {w : World}

theorem Ready.steady : Steady (Ready api entries source id method saved) := by
  constructor
  · intro w h
    exact { h with consistent := Consistent.steady.ticked w h.consistent }
  · intro w f h
    exact { h with consistent := Consistent.steady.memory w f h.consistent }
  · intro w h
    exact { h with consistent := h.consistent.draw }

theorem Ready.toWith (h : Ready api entries source id method saved w) : With api entries w :=
  ⟨h.consistent, h.metadata⟩

variable {request : Pending}

theorem Posted.toWith {accepted : Prop}
    (h : Posted api entries source request saved accepted w) : With api entries w :=
  ⟨h.consistent, h.metadata⟩

theorem Ready.postAllowed (h : Ready api entries source id method saved w)
    (hentry : isEntry entries source = true) : PostAllowed source id method w.log := by
  have hentry' : isEntry w.storage.metadata source = true := by
    rw [h.metadata]
    exact hentry
  constructor
  · rw [<- h.consistent.stored]
    exact h.stored
  · intro hnew
    cases h.consistent.pending source id method hentry' h.stored with
    | inl hresolved => exact hresolved
    | inr hlast => exact absurd (posted_of_lastPost hlast) (hnew _ _)
  · intro s m hposted
    exact h.consistent.owner source id method h.stored s m hposted
  · exact h.unposted

theorem Ready.posted (h : Ready api entries source id method saved w)
    (hentry : isEntry entries source = true) : Posted api entries source ⟨id, method⟩ saved False
      (w.record (.posted source id method)) := by
  have hlast : lastPost source (w.record (.posted source id method)).log = some ⟨id, method⟩ := by
    rw [World.record, lastPost, if_pos rfl]
  refine ⟨{ h.consistent with
    allowed := ⟨h.postAllowed hentry, h.consistent.allowed⟩
    postedDrawn := ?_, owner := ?_, settled := ?_, pending := ?_ },
    h.metadata, h.requests, hlast, False.elim⟩
  · intro s i m hposted
    cases mem_cons.mp hposted with
    | inl hnew =>
      cases hnew
      rw [<- h.metadata] at hentry
      rcases isEntry_iff.mp hentry with ⟨entry, hmem, hid⟩
      rw [<- hid]
      exact ⟨h.consistent.sourceDrawn entry hmem,
        h.consistent.pendingDrawn source id method h.stored⟩
    | inr hold => exact h.consistent.postedDrawn s i m hold
  · intro other i m hpend s m' hposted
    cases mem_cons.mp hposted with
    | inl hnew =>
      cases hnew
      have hpend' : w.storage.requests.get other = some ⟨id, m⟩ := hpend
      have hsame := h.consistent.distinct source other id method m h.stored hpend'
      rw [<- hsame, h.stored] at hpend'
      cases hpend'
      exact ⟨hsame, rfl⟩
    | inr hold => exact h.consistent.owner other i m hpend s m' hold
  · intro other hother hnone
    have hne : source ≠ other := by
      intro hsame
      have hstored := h.stored
      rw [hsame] at hstored
      change w.storage.requests.get other = none at hnone
      rw [hstored] at hnone
      cases hnone
    exact ⟨hne, h.consistent.settled other hother hnone⟩
  · intro other i m hother hpend
    change w.storage.requests.get other = some ⟨i, m⟩ at hpend
    by_cases hsame : source = other
    · rw [<- hsame, h.stored] at hpend
      cases hpend
      rw [<- hsame]
      exact Or.inr hlast
    · cases h.consistent.pending other i m hother hpend with
      | inl hresolved => exact Or.inl ⟨hsame, hresolved⟩
      | inr hlast =>
        refine Or.inr ?_
        rw [World.record, lastPost, if_neg hsame]
        exact hlast

theorem Consistent.accepted (h : Consistent api w) :
    Consistent api (w.record (.accepted source id method)) := by
  have hmem : forall {s i : String} {m : Method},
      Entry.posted s i m ∈ (w.record (.accepted source id method)).log ->
        Entry.posted s i m ∈ w.log := by
    simp [World.record]
  refine { h with postedDrawn := ?_, owner := ?_, settled := ?_, pending := ?_ }
  · intro s i m hposted
    exact h.postedDrawn s i m (hmem hposted)
  · intro other i m hpend s m' hposted
    exact h.owner other i m hpend s m' (hmem hposted)
  · intro other hentry hnone
    exact Or.inr (h.settled other hentry hnone)
  · intro other i m hentry hpend
    cases h.pending other i m hentry hpend with
    | inl hresolved => exact Or.inl (.inr hresolved)
    | inr hlast => exact Or.inr hlast

theorem Posted.settle (h : Posted api entries source request saved True w) :
    With api entries (w.setRequests (saved.erase source)) := by
  refine ⟨?_, h.metadata⟩
  have hget : forall other, (saved.erase source).get other =
      if other = source then none else w.storage.requests.get other := by
    intro other
    rw [h.requests]
    exact get_erase saved source other
  have hold : forall {other : String} {found : Pending},
      (saved.erase source).get other = some found -> w.storage.requests.get other = some found := by
    intro other found hfound
    rw [hget] at hfound
    by_cases hsame : other = source
    · rw [if_pos hsame] at hfound
      cases hfound
    · rw [if_neg hsame] at hfound
      exact hfound
  apply h.consistent.setRequests
  · intro other i m hpend
    exact h.consistent.pendingDrawn other i m (hold hpend)
  · intro other i m hpend
    exact h.consistent.owner other i m (hold hpend)
  · intro first second i m m' hfirst hsecond
    exact h.consistent.distinct first second i m m' (hold hfirst) (hold hsecond)
  · intro other hentry hnone
    by_cases hsame : other = source
    · rw [hsame]
      exact h.resolved trivial
    · rw [hget, if_neg hsame] at hnone
      exact h.consistent.settled other hentry hnone
  · intro other i m hentry hpend
    exact h.consistent.pending other i m hentry (hold hpend)

theorem Posted.setSteady {accepted : Prop} :
    Steady (Posted api entries source request saved accepted) := by
  constructor
  · intro w h
    exact { h with consistent := Consistent.steady.ticked w h.consistent }
  · intro w f h
    exact { h with consistent := Consistent.steady.memory w f h.consistent }
  · intro w h
    exact { h with consistent := h.consistent.draw }

end

section

variable {api : Api} {entries : List Source} {source : Source} {id : String}
  {method : Method} {saved : Dictionary Pending}

theorem deliver_meets (hmem : source ∈ entries) :
    Leaves (Ready api entries source.sourceId id method saved)
      (api.deliver source id method saved) (With api entries) := by
  have hdelivery : Delivery source.sourceId id method saved
      (Ready api entries source.sourceId id method saved)
      (Posted api entries source.sourceId ⟨id, method⟩ saved False)
      (Posted api entries source.sourceId ⟨id, method⟩ saved True)
      (With api entries) (With api entries) := by
    constructor
    · exact Ready.steady
    · exact fun _ h => h.posted (isEntry_of_mem hmem)
    · intro w h
      exact ⟨h.consistent.accepted, h.metadata, h.requests, h.last, fun _ => .inl ⟨rfl, h.last⟩⟩
    · exact Posted.setSteady
    · exact fun _ h => h.settle
    · intro w h
      rcases h with h | h | h | h
      · exact h.toWith
      · exact h.toWith
      · exact h.toWith
      · exact h
  exact hdelivery.meets api

/-- The id chosen for a request: the retained one, or one that was never used. -/
structure Chosen (api : Api) (entries : List Source) (source id : String) (method : Method)
    (saved : Dictionary Pending) (w : World) : Prop where
  consistent : Consistent api w
  metadata : w.storage.metadata = entries
  kept : saved = w.storage.requests.keep (isEntry entries)
  drawn : Drawn api w id
  origin : (saved.get source = some ⟨id, method⟩ ∧ method ≠ .importGrant) ∨
    (saved.get source = none ∧ (forall s m, Entry.posted s id m ∉ w.log) ∧
      forall s m, w.storage.requests.get s ≠ some ⟨id, m⟩)

theorem Chosen.steady {source : String} : Steady (Chosen api entries source id method saved) := by
  constructor
  · intro w h
    exact { h with consistent := Consistent.steady.ticked w h.consistent }
  · intro w f h
    exact { h with consistent := Consistent.steady.memory w f h.consistent }
  · intro w h
    exact ⟨h.consistent.draw, h.metadata, h.kept,
      Consistent.drawn_mono h.drawn (Nat.le_succ _) rfl, h.origin⟩

theorem Chosen.toWith {source : String} {w : World}
    (h : Chosen api entries source id method saved w) : With api entries w :=
  ⟨h.consistent, h.metadata⟩

theorem Consistent.fresh {w : World} (h : Consistent api w)
    (hinj : Function.Injective api.randomId) :
    (forall s m, Entry.posted s (api.randomId w.drawn) m ∉ w.log) ∧
      (forall s m, w.storage.requests.get s ≠ some ⟨api.randomId w.drawn, m⟩) ∧
      forall i m, Entry.posted (api.randomId w.drawn) i m ∉ w.log := by
  have hnew : ¬ Drawn api w (api.randomId w.drawn) := by
    intro hdrawn
    rcases hdrawn with ⟨k, hk, hsame⟩
    rw [hinj hsame] at hk
    exact Nat.lt_irrefl _ hk
  refine ⟨?_, ?_, ?_⟩
  · intro s m hposted
    exact hnew (h.postedDrawn s _ m hposted).2
  · intro s m hpend
    exact hnew (h.pendingDrawn s _ m hpend)
  · intro i m hposted
    exact hnew (h.postedDrawn _ i m hposted).1

theorem requestIdFor_meets (hinj : Function.Injective api.randomId) {source : String}
    {pending : Option Pending} (hpend : saved.get source = pending)
    (huncertain : pending.any (fun request =>
      request.method != method || method == .importGrant) = false) :
    Meets
      (fun w => With api entries w ∧ saved = w.storage.requests.keep (isEntry entries))
      (api.requestIdFor pending) (fun id => Chosen api entries source id method saved)
      (fun _ => With api entries) (With api entries) := by
  cases pending with
  | none =>
    intro w hw
    rcases hw with ⟨⟨hcons, hmeta⟩, hkept⟩
    rcases hcons.fresh hinj with ⟨hposted, hstored, _⟩
    exact ⟨hcons.draw, hmeta, hkept, ⟨w.drawn, Nat.lt_succ_self _, rfl⟩,
      .inr ⟨hpend, hposted, hstored⟩⟩
  | some request =>
    intro w hw
    rcases hw with ⟨⟨hcons, hmeta⟩, hkept⟩
    rcases request with ⟨id, old⟩
    have hsame : old = method ∧ method ≠ .importGrant := by simpa using huncertain
    rw [hsame.1] at hpend
    refine ⟨hcons, hmeta, hkept, ?_, .inl ⟨hpend, hsame.2⟩⟩
    have hget := hpend
    rw [hkept, get_keep] at hget
    by_cases hentry : isEntry entries source = true
    · rw [if_pos hentry] at hget
      exact hcons.pendingDrawn source id method hget
    · rw [if_neg hentry] at hget
      cases hget

/-- Storing the chosen request keeps the invariant and makes it ready to be posted. -/
theorem Chosen.ready {source : String} {w : World}
    (h : Chosen api entries source id method saved w) (hentry : isEntry entries source = true) :
    Ready api entries source id method (saved.put source ⟨id, method⟩)
      (w.setRequests (saved.put source ⟨id, method⟩)) := by
  have hself : saved.get source = w.storage.requests.get source := by
    rw [h.kept, get_keep, if_pos hentry]
  -- a saved request was pending before, or it is the new one of the source
  have hcase : forall {other : String} {found : Pending},
      (saved.put source ⟨id, method⟩).get other = some found ->
        w.storage.requests.get other = some found ∨
          (other = source ∧ found = ⟨id, method⟩ ∧ saved.get source = none ∧
            (forall s m, Entry.posted s id m ∉ w.log) ∧
            forall s m, w.storage.requests.get s ≠ some ⟨id, m⟩) := by
    intro other found hfound
    rw [get_put] at hfound
    split_ifs at hfound with hsame
    · cases hfound
      cases h.origin with
      | inl hold => exact Or.inl (by rw [hsame, <- hself, hold.1])
      | inr hnew => exact Or.inr ⟨hsame, rfl, hnew⟩
    · rw [h.kept, get_keep] at hfound
      by_cases hkept : isEntry entries other = true
      · rw [if_pos hkept] at hfound
        exact Or.inl hfound
      · rw [if_neg hkept] at hfound
        cases hfound
  refine ⟨?_, h.metadata, rfl, ?_, ?_⟩
  · apply h.consistent.setRequests
    · intro other i m hpend
      rcases hcase hpend with hold | ⟨_, hnew, _⟩
      · exact h.consistent.pendingDrawn other i m hold
      · cases hnew
        exact h.drawn
    · intro other i m hpend s m' hposted
      rcases hcase hpend with hold | ⟨_, hnew, _, hunposted, _⟩
      · exact h.consistent.owner other i m hold s m' hposted
      · cases hnew
        exact absurd hposted (hunposted s m')
    · intro first second i m m' hfirst hsecond
      rcases hcase hfirst with hold | ⟨hsource, hnew, _, _, hfresh⟩
      · rcases hcase hsecond with hold' | ⟨_, hnew, _, _, hfresh⟩
        · exact h.consistent.distinct _ _ _ _ _ hold hold'
        · cases hnew
          exact absurd hold (hfresh first m)
      · rcases hcase hsecond with hold | ⟨rfl, _⟩
        · cases hnew
          exact absurd hold (hfresh second m')
        · rw [hsource]
    · intro other hother hnone
      rw [get_put] at hnone
      by_cases hsame : other = source
      · rw [if_pos hsame] at hnone
        cases hnone
      · rw [if_neg hsame, h.kept, get_keep, <- h.metadata, if_pos hother] at hnone
        exact h.consistent.settled other hother hnone
    · intro other i m hother hpend
      rcases hcase hpend with hold | ⟨hsource, _, hnone, _⟩
      · exact h.consistent.pending other i m hother hold
      · rw [hself, <- hsource] at hnone
        exact Or.inl (h.consistent.settled other hother hnone)
  · change (saved.put source ⟨id, method⟩).get source = _
    rw [get_put, if_pos rfl]
  · intro himport s m hposted
    cases h.origin with
    | inl hold => exact absurd himport hold.2
    | inr hnew => exact hnew.2.1 s m (by simpa [World.setRequests] using hposted)

section

variable (hinj : Function.Injective api.randomId) (hmem : source ∈ entries)
include hinj hmem

theorem submit_meets (budget : Option Budget) : Leaves
      (fun w => With api entries w ∧ saved = w.storage.requests.keep (isEntry entries))
      (api.submit source method budget saved) (With api entries) := by
  have hentry : isEntry entries source.sourceId = true := isEntry_of_mem hmem
  cases huncertain : (saved.get source.sourceId).any (fun request =>
      request.method != method || method == .importGrant) with
  | true =>
    refine meets_bind (Q := fun _ _ => False) ?_ (fun _ => ?_)
    · rw [huncertain]
      exact meets_fail (fun _ hw => hw.1)
    · intro w hw
      exact hw.elim
  | false =>
    refine meets_bind (keeps_into (keeps_failWhen _ _) (fun _ hw => hw.1)) (fun _ => ?_)
    refine meets_bind (requestIdFor_meets hinj rfl huncertain) (fun id => ?_)
    refine meets_bind (keeps_into (keeps_requireEnvelope api id source.sourceId)
      (fun _ h => h.toWith)) (fun _ => ?_)
    refine meets_bind (storageSet_into api Chosen.steady (fun w h => h.ready hentry)
      (fun _ h => h.toWith) (fun _ h => h.toWith)) (fun _ => ?_)
    refine meets_bind (keeps_into (keeps_spendBudget api Ready.steady budget)
      (fun _ h => h.toWith)) (fun _ => ?_)
    exact deliver_meets hmem

theorem send_keeps (method : Method) : Keeps (With api entries) (api.send source method) := by
  apply sendWithin_meets api (Q := fun _ => With api entries) (With.steady api entries)
    (fun _ hw => hw)
  intro method budget _
  refine (submit_meets hinj hmem budget).pre ?_
  intro w hw
  refine ⟨hw.1, ?_⟩
  rw [<- hw.1.2]
  exact hw.2

end

end

end Omux.Browser
