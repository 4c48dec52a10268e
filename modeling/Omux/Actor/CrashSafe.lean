import Omux.Actor.Staged
import Omux.Mutation.AtMostOnce

/-!
# Mutations are crash safe

Over any schedule of requests, handler steps, failures, crashes and starts the
committed authority moves in six ways only.
-/

namespace Omux.Actor

open Library List Live Authority
open Mutation (Platform)
open Mutation.Ledger (Starts newRecord valid_init valid_starts begin_inv answer_ne_execute)
open Admission (Key)

variable {δ γ : Type}

/-!
## Moves of the committed authority
-/

inductive Moves (platform : Platform) (b : Authority) : Authority -> Prop where
  | stay : Moves platform b b
  | enter {e : Entry} (hfresh : e.id ∉ b.ids) (hkind : e.intent.kind = .external)
      (hstate : e.state = .started)
      (hkey : e.key platform ∉ b.credits.map Prod.fst) :
      Moves platform b (b.enter platform e)
  | settle {slot : Nat} {e : Entry} (bytes : Bytes)
      (hslot : b.records[slot]? = some e) (hpend : e.Pending) :
      Moves platform b (b.settle platform slot e bytes)
  | fence {slot : Nat} {e : Entry} (hslot : b.records[slot]? = some e)
      (hpend : e.Pending) : Moves platform b (b.fence platform slot e)
  | atomic {e : Entry} (hfresh : e.id ∉ b.ids)
      (hkind : e.intent.kind = .localAtomic) : Moves platform b (b.start e)
  | recover : Moves platform b b.recover

theorem backed_moves {platform : Platform} {b b' : Authority}
    (hb : b.Backed platform) (h : Moves platform b b') : b'.Backed platform := by
  cases h with
  | stay => exact hb
  | enter hfresh hkind hstate hkey => exact backed_admit hb hfresh hkind hstate hkey
  | settle bytes hslot hpend => exact backed_settle bytes hb hslot hpend
  | fence hslot hpend => exact backed_fence hb hslot hpend
  | atomic hfresh hkind => exact backed_start hb hfresh hkind
  | recover => exact backed_recover hb

theorem count_ids_moves {platform : Platform} {b b' : Authority}
    (h : Moves platform b b') (id : Bytes) : b.ids.count id <= b'.ids.count id := by
  have hconcat : forall e : Entry, b.ids.count id <= (b.start e).ids.count id := by
    simp [Authority.ids, Authority.start]
  cases h with
  | stay => exact le_rfl
  | enter | atomic => exact hconcat _
  | settle bytes hslot hpend =>
    have hids := @ids_replace _ _ _ (Entry.complete _ bytes) hslot rfl
    exact (congrArg (List.count id) hids.symm).le
  | fence hslot hpend =>
    have hids := @ids_replace _ _ _ (Entry.doubt _) hslot rfl
    exact (congrArg (List.count id) hids.symm).le
  | recover =>
    have hids : b.recover.ids = b.ids := by
      simp only [Authority.ids, Authority.recover, map_map]
      rfl
    rw [hids]

/-!
## The invariant
-/

variable {t : Live δ γ}

namespace Live

structure External (env : Environment δ) (b : Authority) (c : Handling)
    (s : Live δ γ) : Prop where
  kind : c.kind = .external
  holding : Holding env b b s
  entry : exists e, b.records[c.slot]? = some e ∧ e.state = .started ∧
    e.intent.kind = .external ∧ e.id = c.operationId ∧
    c.key env.platform = e.key env.platform

structure Staging (env : Environment δ) (b : Authority) (c : Handling)
    (s : Live δ γ) : Prop where
  kind : c.kind = .localAtomic
  measured : c.measured = false
  slot : c.slot = b.records.length
  committed : Committed env b s
  entry : exists e, e.id ∉ b.ids ∧ e.id = c.operationId ∧
    e.intent.kind = .localAtomic ∧ Local env s.disk b e s

def Running (env : Environment δ) (b : Authority) : Phase -> Live δ γ -> Prop
  | .idle => Settled env b
  | .handling c => fun s => External env b c s ∨ Staging env b c s

def Lands (env : Environment δ) (b : Authority) (t : Live δ γ) (phase : Phase) : Prop :=
  exists b', Moves env.platform b b' ∧ Committed env b' t ∧
    Running env b' phase t

variable {env : Environment δ} {b : Authority}

theorem lands_settled {b' : Authority} (hmoves : Moves env.platform b b')
    (h : Settled env b' t) : Lands env b t .idle :=
  ⟨b', hmoves, committed_of_settled h, h⟩

/-!
## Requests
-/

def newEntry (r : Request δ) (kind : Mutation.Kind) : Entry :=
  Entry.ofRecord (Mutation.Ledger.newRecord r.operationId r.method r.fingerprint
    r.expectedRevision kind)

theorem newEntry_id (r : Request δ) (kind : Mutation.Kind) : (newEntry r kind).id = r.operationId :=
  Mutation.newRecord_idBytes r.operationId r.method r.fingerprint r.expectedRevision kind

theorem newEntry_key (r : Request δ) (kind : Mutation.Kind) :
    r.key env.platform = (newEntry r kind).key env.platform := by
  rw [Entry.key, newEntry_id]
  rfl

theorem stands_starts {r : Request δ} {kind : Mutation.Kind} {s : Live δ γ}
    {f : Frame δ γ} {next : Mutation.Ledger} (hs : Stands env b f s)
    (h : Starts s.engine.mutations r.operationId r.method r.fingerprint
      r.expectedRevision kind next) :
    Stands env (b.start (newEntry r kind)) f
        (s.setEngine { s.engine with mutations := next }) ∧
      (newEntry r kind).id ∉ b.ids ∧
      s.engine.mutations.records.length = b.records.length ∧
      next.records = s.engine.mutations.records ++ [newRecord
        r.operationId r.method r.fingerprint r.expectedRevision kind] := by
  have hrecs : next.records = s.engine.mutations.records ++
      [newRecord r.operationId r.method r.fingerprint r.expectedRevision kind] := by
    rcases h.reserves with ⟨_, _, _, hnext⟩
    rw [hnext]
  refine ⟨⟨valid_starts hs.valid h, hs.aligned, ?_, hs.frame⟩, ?_, ?_, hrecs⟩
  · rw [<- hs.authority]
    simp only [Engine.authority, setEngine, Authority.of, hrecs, map_append]
    rfl
  · rw [newEntry_id, <- hs.authority]
    intro hmem
    rcases mem_map.mp hmem with ⟨_, hentry, hid⟩
    rcases mem_map.mp hentry with ⟨record, hrecord, rfl⟩
    exact recordAt_eq_none.mp h.unknown record hrecord hid
  · rw [<- hs.authority]
    simp [Engine.authority, Authority.of]

/-- What a request may do, and what is committed when a handler is entered. -/
def Opens (env : Environment δ) (b : Authority) (s t : Live δ γ) (phase : Phase) : Prop :=
  exists b', Moves env.platform b b' ∧ Committed env b' t ∧
    Running env b' phase t ∧ forall c, phase = .handling c ->
      (c.kind = .external -> b'.ids = b.ids ++ [c.operationId]) ∧
      (c.kind = .localAtomic -> t.disk = s.disk)

theorem opens_idle {b' : Authority} {s t : Live δ γ}
    (hmoves : Moves env.platform b b') (h : Settled env b' t) : Opens env b s t .idle := by
  refine ⟨b', hmoves, committed_of_settled h, h, ?_⟩
  nofun

theorem opens_reject (r : Request δ) {b' : Authority} {s t : Live δ γ}
    (hmoves : Moves env.platform b b') (hquiet : Quiet t) (ht : Committed env b' t) :
    Opens env b s (reject env r t).1 (reject env r t).2.1 :=
  opens_idle hmoves ((@holds_restoreOrPoison _ _ env _ r.readable).result ⟨hquiet, ht⟩)

theorem opens_enter {r : Request δ} {kind : Mutation.Kind} {s : Live δ γ}
    {next : Mutation.Ledger} (hs : Holding env b b s)
    (h : Starts s.engine.mutations r.operationId r.method r.fingerprint
      r.expectedRevision kind next) :
    Opens env b s
      (enter env r s.engine.mutations.records.length
        (s.setEngine { s.engine with mutations := next }) kind).1
      (enter env r s.engine.mutations.records.length
        (s.setEngine { s.engine with mutations := next }) kind).2.1 := by
  rcases stands_starts hs.memory h with ⟨hstands, hfresh, hlength, hrecs⟩
  have hstart : Holding env b (b.start (newEntry r kind))
      (s.setEngine { s.engine with mutations := next }) :=
    holding_of_stands hs.quiet hs.committed rfl rfl rfl hstands
  cases kind with
  | external =>
    have hrun := @holds_prepareExternal _ _ env _ _ s.engine.mutations.records.length _
      (newEntry_key r .external) (newEntry_id r .external).symm _ hstart
    unfold enter
    rcases hprep : prepareExternal env r s.engine.mutations.records.length
      (s.setEngine { s.engine with mutations := next }) with ⟨t, flag⟩
    rw [hprep] at hrun
    cases flag with
    | true =>
      rcases hrun.left rfl with ⟨hholding, hkey⟩
      refine ⟨_, .enter hfresh rfl rfl hkey, ?_, .inl ⟨rfl, ?_, ?_⟩, ?_⟩
      · exact ⟨hholding.committed.saved, hholding.committed.authority⟩
      · exact ⟨hholding.quiet, ⟨hholding.committed.saved, hholding.committed.authority⟩,
          hholding.memory.valid, hholding.memory.aligned, hholding.memory.authority, rfl⟩
      · refine ⟨newEntry r .external, ?_, rfl, rfl, newEntry_id r .external,
          newEntry_key r .external⟩
        show (b.records ++ [newEntry r .external])[s.engine.mutations.records.length]? =
          some (newEntry r .external)
        rw [hlength]
        simp
      · intro c hc
        cases hc
        refine ⟨fun _ => ?_, nofun⟩
        show (b.records ++ [newEntry r .external]).map Entry.id = b.ids ++ [r.operationId]
        rw [map_append, map_cons, newEntry_id]
        rfl
    | false =>
      rcases hrun.right rfl with hback | hfenced
      · exact opens_reject r .stay hback.left hback.right
      · exact opens_reject r (.enter hfresh rfl rfl hfenced.right)
          hfenced.left.quiet hfenced.left.committed
  | localAtomic =>
    refine ⟨b, .stay, ⟨hs.committed.saved, hs.committed.authority⟩,
      .inr ⟨rfl, ?_, hlength, ⟨hs.committed.saved, hs.committed.authority⟩, ?_⟩, ?_⟩
    · show isMeasured s.engine.mutations.records.length
        (s.setEngine { s.engine with mutations := next }) = false
      simp only [isMeasured, setEngine, hrecs, List.getElem?_concat_length]
      rfl
    · refine ⟨newEntry r .localAtomic, hfresh, newEntry_id r .localAtomic, rfl,
        .inl ⟨rfl, rfl, hstands.valid, hstands.aligned, hstands.authority, rfl⟩⟩
    · intro c hc
      cases hc
      exact ⟨fun hkind => by (cases hkind), fun _ => rfl⟩

theorem opens_authorizedRequest (r : Request δ) {s : Live δ γ} (hs : Holding env b b s) :
    Opens env b s (authorizedRequest env r s).1
      (authorizedRequest env r s).2.1 := by
  have hstay : Opens env b s s .idle := opens_idle .stay (.inr hs)
  have hreject : Opens env b s (reject env r s).1 (reject env r s).2.1 :=
    opens_reject r .stay hs.quiet hs.committed
  unfold authorizedRequest
  split
  · exact hstay
  · split
    · exact hstay
    · split
      · exact hreject
      · split
        · exact hreject
        · split
          · exact hstay
          · exact hreject
        · exact hreject
        · rename_i mutations slot hbegin
          rcases begin_inv hbegin with ⟨_, hrev, hknown | hnew⟩
          · rcases hknown with ⟨record, _, _, _, hanswer⟩
            exact absurd hanswer.symm (answer_ne_execute record slot)
          · rcases hnew with ⟨_, hslot, hstarts⟩
            cases hrev
            cases hslot
            exact opens_enter hs hstarts

/-!
## Ends of handlers
-/

variable {c : Handling} {s : Live δ γ}

theorem pending_of_started {e : Entry} (hkind : e.intent.kind = .external)
    (hstate : e.state = .started) : e.Pending := by
  refine ⟨hkind, ?_⟩
  rw [hstate]
  decide

theorem return_external {finish : Finish δ} {failure : Failure} {e : Entry}
    (hkind : c.kind = .external) (hs : Holding env b b s)
    (hslot : b.records[c.slot]? = some e) (hkey : c.key env.platform = e.key env.platform) :
    (returnHandler env c finish failure s).2.1 = .idle ∧
      (((returnHandler env c finish failure s).2.2 = .completed ∧
          Settled env (b.settle env.platform c.slot e finish.cached)
            (returnHandler env c finish failure s).1) ∨
        ((returnHandler env c finish failure s).2.2 = .failed ∧
          Failed env b (b.settle env.platform c.slot e finish.cached)
            (b.fence env.platform c.slot e) (returnHandler env c finish failure s).1)) := by
  have hrun := @holds_completeExternal _ _ _ _ _ finish _ hkind hslot hkey s hs
  unfold returnHandler
  rcases hcomp : completeRequest env c finish s with ⟨t, flag⟩
  rw [hcomp] at hrun
  cases flag with
  | true =>
    refine ⟨rfl, .inl ⟨rfl, ?_⟩⟩
    exact (holds_succeedExternal c finish).result (hrun.left rfl)
  | false =>
    refine ⟨rfl, .inr ⟨rfl, ?_⟩⟩
    exact (holds_failExternal hkind hslot hkey).result (hrun.right rfl)

/-- A local handler that returned is committed in one step, or dropped. -/
theorem return_local {finish : Finish δ} {failure : Failure} {e : Entry}
    (hs : Staging env b c s) (he : Local env s.disk b e s) :
    (returnHandler env c finish failure s).2.1 = .idle ∧
      ((CommitsLocal env b e finish.cached s
            (returnHandler env c finish failure s).1 ∧
          Settled env (b.start (e.complete finish.cached))
            (returnHandler env c finish failure s).1) ∨
        ((returnHandler env c finish failure s).1.disk = s.disk ∧
          Settled env b (returnHandler env c finish failure s).1 ∧
          ((returnHandler env c finish failure s).1.engine.poisoned = true ∨
            (returnHandler env c finish failure s).1.engine.rest = s.disk.saved.rest))) := by
  have hrun := @complete_local _ _ _ _ _ _ _ _ finish hs.kind hs.slot he
  have hauth := hs.committed.authority
  unfold returnHandler
  rcases hcomp : completeRequest env c finish s with ⟨t, flag⟩
  rw [hcomp] at hrun
  cases flag with
  | true =>
    rcases hrun.left rfl with ⟨hcommits, hstands⟩
    rcases hcommits with ⟨saved, hsaved, hsavedAuth, hrest, hdisk⟩
    have htsaved : t.disk.saved = saved := by
      rw [hdisk]
      rfl
    have hdone := @succeed_local _ _ env t _ finish hs.measured (by rw [htsaved]; exact hsaved)
      (by rw [htsaved, hsavedAuth]; exact hstands)
    rw [htsaved, hsavedAuth] at hdone
    exact ⟨rfl, .inl ⟨⟨saved, hsaved, hsavedAuth, hrest, hdone.left.trans hdisk⟩, hdone.right⟩⟩
  | false =>
    refine ⟨rfl, ?_⟩
    rcases hrun.right rfl with hkept | hcomm
    · have hkeptDisk : t.disk = s.disk := hkept
      have hdone := @fail_local _ _ env t _ failure hs.kind
        (by rw [hkeptDisk]; exact hs.committed.saved)
      rw [hkeptDisk, hauth] at hdone
      exact Or.inr ⟨hdone.left, hdone.right.left, hdone.right.right.right⟩
    · rcases hcomm with ⟨_, saved, hsaved, hsavedAuth, hrest, hdisk⟩
      have htsaved : t.disk.saved = saved := by
        rw [hdisk]
        rfl
      have hdone := @fail_local _ _ env t _ failure hs.kind (by rw [htsaved]; exact hsaved)
      rw [htsaved, hsavedAuth] at hdone
      exact Or.inl ⟨⟨saved, hsaved, hsavedAuth, hrest, hdone.left.trans hdisk⟩, hdone.right.left⟩

theorem lands_failed {e : Entry} {settled : Authority}
    (hpend : e.Pending) (hslot : b.records[c.slot]? = some e)
    (hsettled : Moves env.platform b settled)
    (h : Failed env b settled (b.fence env.platform c.slot e) t) : Lands env b t .idle := by
  rcases h with hkept | hdone | hfenced
  · exact lands_settled .stay (.inl hkept)
  · exact lands_settled hsettled (.inl hdone)
  · exact lands_settled (.fence hslot hpend) hfenced

theorem lands_commitsLocal {e : Entry} {bytes : Bytes}
    (hfresh : e.id ∉ b.ids) (hkind : e.intent.kind = .localAtomic)
    (h : Settled env (b.start (e.complete bytes)) t) : Lands env b t .idle :=
  lands_settled (.atomic (e := e.complete bytes) hfresh hkind) h

end Live

/-!
## Runs of the system
-/

namespace System

variable {env : Environment δ} {s : System δ γ}

structure Sound (env : Environment δ) (s : System δ γ) : Prop where
  saved : SavedOk env s.disk.saved
  backed : s.disk.saved.authority.Backed env.platform
  running : forall e phase, s.process = some (e, phase) ->
    Live.Running env s.disk.saved.authority phase ⟨e, s.disk⟩

/-- One event moves the committed authority once and keeps the invariant. -/
def Advances (env : Environment δ) (s t : System δ γ) : Prop :=
  Moves env.platform s.disk.saved.authority t.disk.saved.authority ∧ Sound env t

theorem advances_of_lands {phase : Phase} (hs : Sound env s)
    (h : Live.Lands env s.disk.saved.authority t phase) :
    Advances env s { disk := t.disk, process := some (t.engine, phase) } := by
  rcases h with ⟨_, hmoves, hcomm, hrunning⟩
  have hauth := hcomm.authority
  rw [<- hauth] at hmoves hrunning
  refine ⟨hmoves, hcomm.saved, backed_moves hs.backed hmoves, ?_⟩
  intro e _ hproc
  cases hproc
  exact hrunning

theorem advances_stay (hs : Sound env s) : Advances env s s :=
  ⟨.stay, hs⟩

theorem advances_stopped {disk : Disk δ γ} (hs : Sound env s)
    (hmoves : Moves env.platform s.disk.saved.authority disk.saved.authority)
    (hsaved : SavedOk env disk.saved) : Advances env s { disk := disk } := by
  refine ⟨hmoves, hsaved, backed_moves hs.backed hmoves, ?_⟩
  nofun

theorem holding_of_idle {e : Engine δ γ} {credit : Option Key} (hs : Sound env s)
    (hproc : s.process = some (e, .idle)) (htakes : takes e credit = true) :
    Live.Holding env s.disk.saved.authority s.disk.saved.authority
      ⟨e, s.disk⟩ := by
  rcases hs.running e .idle hproc with hfenced | hholding
  · have hpois : e.poisoned = true := hfenced.poisoned
    rw [takes, hpois] at htakes
    cases htakes
  · exact hholding

theorem opens_request (r : Request δ) {e : Engine δ γ} (hs : Sound env s)
    (hproc : s.process = some (e, .idle)) (htakes : takes e none = true) :
    Live.Opens env s.disk.saved.authority ⟨e, s.disk⟩
      (Live.authorizedRequest env r ⟨e, s.disk⟩).1
      (Live.authorizedRequest env r ⟨e, s.disk⟩).2.1 :=
  opens_authorizedRequest r (holding_of_idle hs hproc htakes)

theorem advances_returned (finish : Finish δ) (failure : Failure) {e : Engine δ γ}
    {c : Handling} (hs : Sound env s) (hproc : s.process = some (e, .handling c)) :
    Advances env s
      (settle (Live.returnHandler env c finish failure ⟨e, s.disk⟩)).1 := by
  apply advances_of_lands hs
  rcases hs.running e _ hproc with hext | hstage
  · rcases hext.entry with ⟨entry, hslot, hstate, hkind, _, hkey⟩
    have hpend := pending_of_started hkind hstate
    rcases @return_external _ _ _ _ _ _ finish failure _ hext.kind
      hext.holding hslot hkey with ⟨hidle, hdone | hfailed⟩
    · rw [hidle]
      exact lands_settled (.settle finish.cached hslot hpend) hdone.right
    · rw [hidle]
      exact lands_failed hpend hslot (.settle finish.cached hslot hpend) hfailed.right
  · rcases hstage.entry with ⟨entry, hfresh, _, hkind, hlocal⟩
    rcases @return_local _ _ _ _ _ _ finish failure _ hstage hlocal with
      ⟨hidle, hdone | hdropped⟩
    · rw [hidle]
      exact lands_commitsLocal hfresh hkind hdone.right
    · rw [hidle]
      exact lands_settled .stay hdropped.right.left

theorem advances_raised (failure : Failure) {e : Engine δ γ} {c : Handling}
    (hs : Sound env s) (hproc : s.process = some (e, .handling c)) :
    Advances env s (settle ((Live.failRequest env c failure ⟨e, s.disk⟩).1, .idle,
      .failed)).1 := by
  apply advances_of_lands hs
  rcases hs.running e _ hproc with hext | hstage
  · rcases hext.entry with ⟨_, hslot, hstate, hkind, _, hkey⟩
    have hpend := pending_of_started hkind hstate
    have hfailed := (@holds_failExternal _ _ _ _ _ _ hext.kind hslot hkey failure
      s.disk.saved.authority).result
      (.inl ⟨hext.holding.quiet, hext.holding.committed⟩)
    exact lands_failed hpend hslot .stay hfailed
  · have hdone := fail_local failure hstage.kind hstage.committed.saved
    exact lands_settled .stay hdone.right.left

theorem advances_act (a : Act δ γ) {e : Engine δ γ} {c : Handling} {reply : Reply}
    (hs : Sound env s) (hproc : s.process = some (e, .handling c)) :
    Advances env s (settle ((Live.perform env a ⟨e, s.disk⟩).1, .handling c, reply)).1 := by
  apply advances_of_lands hs
  rcases hs.running e _ hproc with hext | hstage
  · have hrun := (holds_perform a).result hext.holding
    exact ⟨_, .stay, hrun.committed, .inl ⟨hext.kind, hrun, hext.entry⟩⟩
  · rcases hstage.entry with ⟨entry, hfresh, hid, hkind, hlocal⟩
    have hrun := (holds_perform_local a hstage.committed.saved
      hstage.committed.authority).result hlocal
    have hdisk : (Live.perform env a ⟨e, s.disk⟩).1.disk = s.disk := by
      rcases hrun with hrun | hrun <;> exact hrun.disk
    have hcomm : Live.Committed env s.disk.saved.authority (Live.perform env a ⟨e, s.disk⟩).1 := by
      refine ⟨?_, ?_⟩
      · rw [hdisk]
        exact hs.saved
      · rw [hdisk]
    refine ⟨_, .stay, hcomm, .inr ⟨hstage.kind, hstage.measured,
      hstage.slot, hcomm, entry, hfresh, hid, hkind, ?_⟩⟩
    rw [hdisk]
    exact hrun

theorem advances_boot (boot : Boot δ) (hs : Sound env s) (hproc : s.process = none) :
    Advances env s (s.step env (.boot boot)) := by
  have hrun := @holds_bootstrap _ _ env s.disk.saved.authority
    ⟨Engine.blank s.disk.saved.rest, s.disk⟩ boot ⟨rfl, rfl⟩ ⟨hs.saved, rfl⟩ _ rfl
  unfold step respond
  rw [hproc]
  dsimp only
  rcases hboot : Live.bootstrap env boot ⟨Engine.blank s.disk.saved.rest, s.disk⟩ with
    ⟨t, flag⟩
  rw [hboot] at hrun
  cases flag with
  | true =>
    have hholding := hrun.left rfl
    exact advances_of_lands hs (lands_settled .recover (.inr hholding))
  | false =>
    rcases hrun.right rfl with hkept | hrec
    · apply advances_stopped hs _ hkept.saved
      rw [hkept.authority]
      exact .stay
    · apply advances_stopped hs _ hrec.saved
      rw [hrec.authority]
      exact .recover

theorem advances_step (event : Event δ γ) (hs : Sound env s) :
    Advances env s (s.step env event) := by
  cases hproc : s.process with
  | none =>
    cases event with
    | crash => exact advances_stopped hs .stay hs.saved
    | boot b => exact advances_boot b hs hproc
    | _ => simpa only [step, respond, hproc] using advances_stay hs
  | some process =>
    rcases process with ⟨e, phase⟩
    cases phase with
    | idle =>
      cases event with
      | request r =>
        simp only [step, respond, hproc]
        split
        · rename_i htakes
          rcases opens_request r hs hproc htakes with
            ⟨b', hmoves, hcomm, hrunning, _⟩
          exact advances_of_lands hs ⟨b', hmoves, hcomm, hrunning⟩
        · exact advances_stay hs
      | background credit a =>
        simp only [step, respond, hproc]
        split
        · rename_i htakes
          have hrun := (@holds_background _ _ _ _ credit a).result
            (holding_of_idle hs hproc htakes)
          exact advances_of_lands hs (lands_settled .stay (.inr hrun))
        · exact advances_stay hs
      | crash => exact advances_stopped hs .stay hs.saved
      | _ => simpa only [step, respond, hproc] using advances_stay hs
    | handling =>
      cases event with
      | act a => simpa only [step, respond, hproc] using advances_act a hs hproc
      | returned finish failure =>
        simpa only [step, respond, hproc] using advances_returned finish failure hs hproc
      | raised failure =>
        simpa only [step, respond, hproc] using advances_raised failure hs hproc
      | crash => exact advances_stopped hs .stay hs.saved
      | _ => simpa only [step, respond, hproc] using advances_stay hs

theorem sound_installed (env : Environment δ) (rest : δ) :
    Sound env (installed rest : System δ γ) := by
  have hinit : Mutation.Ledger.init Mutation.maxRecords =
      .ok { capacity := Mutation.maxRecords
            witnessCeiling := Mutation.maximumSerializedBytes .lifecycle
            nativeWitnessCeiling := Mutation.maximumSerializedBytes .nativeRemoval } := by
    simp [Mutation.Ledger.init, Mutation.maxRecords, bind_ok]
  refine ⟨⟨⟨_, valid_init hinit, rfl⟩, ?_⟩, ?_, ?_⟩
  · exact ⟨nodup_nil, nodup_nil, fun _ => Iff.rfl⟩
  · exact ⟨nodup_nil, nodup_nil, nodup_nil, fun _ => Iff.rfl,
      fun _ _ h => (not_mem_nil h).elim, fun _ h => (not_mem_nil h).elim⟩
  · intro e _ hproc
    cases hproc

theorem sound_run (env : Environment δ) (rest : δ) (events : List (Event δ γ)) :
    Sound env (run (step env) (installed rest) events) :=
  run_invariant (P := Sound env) (fun _ event hs => (advances_step event hs).right)
    (sound_installed env rest) events

end System
end Omux.Actor
