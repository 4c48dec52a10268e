import Omux.Actor.CrashSafe

/-!
# What the engine guarantees about mutations

The invariant read back in the words of the database.  A crash inside an event is the
same event with its later commits refused, followed by a crash.
-/

namespace Omux.Actor

open Library List Live
open Mutation (Platform)
open Admission (Key)

variable {δ γ : Type}

def Disk.Keeps (platform : Platform) (d : Disk δ γ) (c : Handling)
    (state : Mutation.State) (credit : Admission.State) : Prop :=
  (exists record, record ∈ d.saved.mutationAuthority.records ∧
    record.idBytes = c.operationId ∧ record.kind = .external ∧ record.state = state) ∧
  (exists held, held ∈ d.saved.snapshotAdmission.credits ∧
    held.key = c.key platform ∧ held.state = credit) ∧
  exists intent, intent ∈ d.saved.outcomeIntents ∧
    intent.key = c.key platform ∧ intent.ownerId = c.operationId

/-- Nothing is kept for a record: no intent names it, and no credit has its key
unless the hash of another operation id is the same. -/
def Disk.Released (platform : Platform) (d : Disk δ γ) (record : Mutation.Record) : Prop :=
  (forall intent, intent ∈ d.saved.outcomeIntents -> intent.key.kind = .mutation ->
    intent.ownerId ≠ record.idBytes) ∧
  ((forall other, other ∈ d.saved.mutationAuthority.records -> platform.sha256 other.idBytes =
    platform.sha256 record.idBytes -> other.idBytes = record.idBytes) -> (forall held, held ∈
    d.saved.snapshotAdmission.credits -> held.key ≠ creditKey platform .mutation record.idBytes
    record.expectedRevision) ∧ forall intent, intent ∈ d.saved.outcomeIntents -> intent.key ≠
    creditKey platform .mutation record.idBytes record.expectedRevision)

namespace System

variable {env : Environment δ} {s : System δ γ} {e : Engine δ γ} {c : Handling}

/-- Entries of the external handler of an operation id, counted over a run. -/
def enteredFor (env : Environment δ) (id : Bytes) (s : System δ γ) (event : Event δ γ) : Nat :=
  match s.respond env event with
  | (t, .entered) =>
    match t.process with
    | some (_, .handling c) => if c.kind = .external ∧ c.operationId = id then 1 else 0
    | _ => 0
  | _ => 0

/-- The only commit of a local mutation: everything staged and its completed record. -/
def CommitsResult (c : Handling) (e : Engine δ γ) (before after : Disk δ γ)
    (cached : Bytes) : Prop :=
  after.revision = before.revision + 1 ∧
  after.changes = before.changes ++ e.stagedChanges ∧
  after.saved.rest = e.rest ∧
  exists record, record ∈ after.saved.mutationAuthority.records ∧
    record.idBytes = c.operationId ∧ record.kind = .localAtomic ∧
    record.state = .completed ∧ record.result = cached

/-- An engine that holds nothing beyond the committed snapshot, or writes no more. -/
def Dropped (d : Disk δ γ) (e : Engine δ γ) : Prop :=
  e.poisoned = true ∨ (e.rest = d.saved.rest ∧ e.stagedChanges = [])

/-!
## While a handler runs
-/

theorem keeps_of_pending {d : Disk δ γ} {entry : Entry}
    (hbacked : d.saved.authority.Backed env.platform)
    (hmem : entry ∈ d.saved.authority.records) (hpend : entry.Pending)
    (hid : entry.id = c.operationId) (hkey : c.key env.platform = entry.key env.platform) :
    d.Keeps env.platform c entry.state entry.creditState := by
  rcases hbacked.credited entry hmem hpend with ⟨hintent, hcredit⟩
  rw [<- hkey] at hintent hcredit
  refine ⟨?_, ?_, ?_⟩
  · rcases mem_map.mp hmem with ⟨record, hrecord, hof⟩
    refine ⟨record, hrecord, ?_, ?_, ?_⟩
    · rw [<- hid, <- hof]
      rfl
    · rw [<- hof] at hpend
      exact hpend.left
    · rw [<- hof]
      rfl
  · rcases mem_filterMap.mp hcredit with ⟨held, hheld, hview⟩
    unfold creditView at hview
    split at hview
    · rcases Prod.mk.inj (Option.some.inj hview) with ⟨hk, hstate⟩
      exact ⟨held, hheld, hk, hstate⟩
    · cases hview
  · rcases mem_filterMap.mp hintent with ⟨intent, hmemIntent, hview⟩
    unfold intentView at hview
    split at hview
    · rcases Prod.mk.inj (Option.some.inj hview) with ⟨hk, howner⟩
      exact ⟨intent, hmemIntent, hk, howner.trans hid⟩
    · cases hview

theorem keeps_handling (hs : Sound env s) (hproc : s.process = some (e, .handling c))
    (hkind : c.kind = .external) : s.disk.Keeps env.platform c .started .reserved := by
  rcases hs.running e _ hproc with hext | hstage
  · rcases hext.entry with ⟨_, hslot, hstate, hexternalKind, hid, hkey⟩
    have hkeeps := keeps_of_pending hs.backed (mem_of_getElem? hslot)
      (pending_of_started hexternalKind hstate) hid hkey
    rw [Entry.creditState, hstate] at hkeeps
    exact hkeeps
  · rw [hstage.kind] at hkind
    cases hkind

/-!
## Failures of external handlers
-/

theorem event_of_failed {event : Event δ γ} (hproc : s.process = some (e, .handling c))
    (hreply : (s.respond env event).2 = .failed) :
    (exists finish failure, event = .returned finish failure) ∨
      exists failure, event = .raised failure := by
  cases event with
  | returned finish failure => exact Or.inl ⟨finish, failure, rfl⟩
  | raised failure => exact Or.inr ⟨failure, rfl⟩
  | request | act | background | boot =>
    simp only [respond, hproc] at hreply
    cases hreply
  | crash => cases hreply

theorem fenced_of_failed {event : Event δ γ} (hs : Sound env s)
    (hproc : s.process = some (e, .handling c)) (hkind : c.kind = .external)
    (hreply : (s.respond env event).2 = .failed) :
    exists next, (s.step env event).process = some (next, .idle) ∧
      (next.poisoned = true ∨
        (s.step env event).disk.Keeps env.platform c .indeterminate .indeterminate) := by
  have hbacked := (advances_step event hs).right.backed
  rcases hs.running e _ hproc with hext | hstage
  · rcases hext.entry with ⟨entry, hslot, hstate, hexternalKind, hid, hkey⟩
    have hpend := pending_of_started hexternalKind hstate
    -- Every end of the failed handler is poisoned or has committed the uncertainty.
    have hfailed : forall (settled : Authority) (t : Live δ γ), t.disk = (s.step env event).disk ->
        Live.Failed env s.disk.saved.authority settled
          (s.disk.saved.authority.fence env.platform c.slot entry) t ->
        t.engine.poisoned = true ∨
          (s.step env event).disk.Keeps env.platform c .indeterminate .indeterminate := by
      intro settled t hdisk ht
      rcases ht with hkept | hdone | hfenced | hholding
      · exact Or.inl hkept.poisoned
      · exact Or.inl hdone.poisoned
      · exact Or.inl hfenced.poisoned
      · right
        have hauth := hholding.committed.authority
        rw [hdisk] at hauth
        have hmem : entry.doubt ∈ (s.step env event).disk.saved.authority.records := by
          rw [hauth]
          exact mem_set_self hslot
        exact keeps_of_pending hbacked hmem ⟨hpend.left, by simp [Entry.doubt]⟩ hid hkey
    rcases event_of_failed hproc hreply with ⟨finish, failure, rfl⟩ | ⟨failure, rfl⟩
    · rcases @return_external _ _ _ _ _ _ finish failure _ hext.kind
        hext.holding hslot hkey with ⟨hidle, hcompleted | hended⟩
      · simp only [respond, hproc, settle, hcompleted.left] at hreply
        cases hreply
      · have hstep : s.step env (.returned finish failure) =
            (settle (Live.returnHandler env c finish failure ⟨e, s.disk⟩)).1 := by
          simp [step, respond, hproc]
        refine ⟨(Live.returnHandler env c finish failure ⟨e, s.disk⟩).1.engine, ?_, ?_⟩
        · rw [hstep]
          simp [settle, hidle]
        · exact hfailed _ _ (by rw [hstep]; rfl) hended.right
    · have hended := (@holds_failExternal _ _ _ _ _ _ hext.kind hslot hkey failure
        s.disk.saved.authority).result
        (.inl ⟨hext.holding.quiet, hext.holding.committed⟩)
      have hstep : s.step env (.raised failure) =
          (settle ((Live.failRequest env c failure ⟨e, s.disk⟩).1, .idle, .failed)).1 := by
        simp [step, respond, hproc]
      refine ⟨(Live.failRequest env c failure ⟨e, s.disk⟩).1.engine, ?_, ?_⟩
      · rw [hstep]
        rfl
      · exact hfailed _ _ (by rw [hstep]; rfl) hended
  · rw [hstage.kind] at hkind
    cases hkind

/-!
## Local handlers
-/

theorem commitsResult_of_commitsLocal {b : Authority} {entry : Entry} {bytes : Bytes}
    {t : Live δ γ} (hid : entry.id = c.operationId) (hkind : entry.intent.kind = .localAtomic)
    (h : Live.CommitsLocal env b entry bytes ⟨e, s.disk⟩ t) :
    CommitsResult c e s.disk t.disk bytes := by
  rcases h with ⟨saved, _, hauth, hrest, hdisk⟩
  rw [hdisk]
  refine ⟨rfl, rfl, hrest, ?_⟩
  have hmem : entry.complete bytes ∈ saved.authority.records := by
    rw [hauth]
    simp [Authority.start]
  rcases mem_map.mp hmem with ⟨record, hrecord, hof⟩
  refine ⟨record, hrecord, ?_, ?_, ?_, ?_⟩
  · have hrecordId : record.idBytes = (entry.complete bytes).id := by
      rw [<- hof]
      rfl
    rw [hrecordId]
    exact hid
  · have hrecordKind : record.kind = (entry.complete bytes).intent.kind := by
      rw [<- hof]
      rfl
    rw [hrecordKind]
    exact hkind
  · exact congrArg Entry.state hof
  · exact congrArg Entry.result hof

theorem dropped_of_settled {b : Authority} {t : Live δ γ} (hsettled : Live.Settled env b t)
    (h : t.engine.poisoned = true ∨ t.engine.rest = s.disk.saved.rest) :
    Dropped s.disk t.engine := by
  rcases h with hpois | hrest
  · exact Or.inl hpois
  · exact Or.inr ⟨hrest, (quiet_of_settled hsettled).right⟩

/-- Nothing a local handler does is durable before the commit of its result. -/
theorem local_atomic (event : Event δ γ) (hs : Sound env s)
    (hproc : s.process = some (e, .handling c)) (hkind : c.kind = .localAtomic) :
    (exists finish failure, event = .returned finish failure ∧
      CommitsResult c e s.disk (s.step env event).disk finish.cached) ∨
    ((s.step env event).disk = s.disk ∧
      forall next, (s.step env event).process = some (next, .idle) ->
        Dropped s.disk next) := by
  rcases hs.running e _ hproc with hext | hstage
  · rw [hext.kind] at hkind
    cases hkind
  · rcases hstage.entry with ⟨_, _, hid, hlocalKind, hlocal⟩
    cases event with
    | act a =>
      right
      simp only [step, respond, hproc]
      have hrun := (holds_perform_local a hstage.committed.saved
        hstage.committed.authority).result hlocal
      refine ⟨?_, fun next hnext => by cases hnext⟩
      rcases hrun with hrun | hrun <;> exact hrun.disk
    | returned finish failure =>
      rcases @return_local _ _ _ _ _ _ finish failure _ hstage hlocal
        with ⟨hidle, hcomm | hdropped⟩
      · left
        refine ⟨finish, failure, rfl, ?_⟩
        simp only [step, respond, hproc]
        exact commitsResult_of_commitsLocal hid hlocalKind hcomm.left
      · right
        simp only [step, respond, hproc, settle, hidle]
        refine ⟨hdropped.left, ?_⟩
        intro next hnext
        cases hnext
        exact dropped_of_settled hdropped.right.left hdropped.right.right
    | raised failure =>
      right
      simp only [step, respond, hproc]
      have hdone := fail_local failure hstage.kind hstage.committed.saved
      refine ⟨hdone.left, ?_⟩
      intro next hnext
      cases hnext
      exact dropped_of_settled hdone.right.left hdone.right.right.right
    | _ =>
      right
      simp only [step, respond, hproc]
      exact ⟨trivial, fun next hnext => by cases hnext⟩

/-!
## Entries
-/

theorem event_of_entered {event : Event δ γ} (hreply : (s.respond env event).2 = .entered) :
    exists r e, event = .request r ∧ s.process = some (e, .idle) ∧
      takes e none = true ∧
      s.respond env event = settle (Live.authorizedRequest env r ⟨e, s.disk⟩) := by
  cases event with
  | request r =>
    unfold respond at hreply ⊢
    cases hproc : s.process with
    | none => cases hproc ▸ hreply
    | some process =>
      rcases process with ⟨e, phase⟩
      rw [hproc] at hreply
      cases phase with
      | handling => cases hreply
      | idle =>
        dsimp only at hreply ⊢
        cases htakes : takes e none with
        | true => exact ⟨r, e, rfl, rfl, htakes, if_pos rfl⟩
        | false => cases htakes ▸ hreply
  | act | raised =>
    simp only [respond] at hreply
    split at hreply <;> cases hreply
  | returned =>
    simp only [respond] at hreply
    split at hreply
    · unfold Live.returnHandler at hreply
      split at hreply <;> cases hreply
    · cases hreply
  | background =>
    simp only [respond] at hreply
    split at hreply
    · split at hreply <;> cases hreply
    · cases hreply
  | crash => cases hreply
  | boot =>
    simp only [respond] at hreply
    split at hreply
    · cases hreply
    · split at hreply <;> cases hreply

theorem entered_spec {event : Event δ γ} (hs : Sound env s)
    (hreply : (s.respond env event).2 = .entered)
    (hproc : (s.step env event).process = some (e, .handling c)) :
    (c.kind = .external -> (s.step env event).disk.saved.authority.ids =
      s.disk.saved.authority.ids ++ [c.operationId]) ∧
    (c.kind = .localAtomic -> (s.step env event).disk = s.disk) := by
  rcases event_of_entered hreply with ⟨r, before, _, hidle, htakes, hrespond⟩
  rcases opens_request r hs hidle htakes with ⟨_, _, hcomm, _, hopens⟩
  have hstep : s.step env event = (settle (Live.authorizedRequest env r ⟨before, s.disk⟩)).1 := by
    rw [step, hrespond]
  rw [hstep] at hproc ⊢
  have hphase : (Live.authorizedRequest env r ⟨before, s.disk⟩).2.1 = .handling c := by
    simp only [settle, Option.some.injEq, Prod.mk.injEq] at hproc
    exact hproc.right
  have hdone := hopens c hphase
  rw [<- hcomm.authority] at hdone
  exact hdone

theorem count_entered (id : Bytes) (event : Event δ γ) (hs : Sound env s) :
    s.disk.saved.authority.ids.count id + enteredFor env id s event <=
      (s.step env event).disk.saved.authority.ids.count id := by
  have hmoves := count_ids_moves (advances_step event hs).left id
  unfold enteredFor
  split
  · rename_i t hrespond
    split
    · rename_i next c hproc
      split
      · rename_i hext
        have hstep : s.step env event = t := by rw [step, hrespond]
        have hids := (entered_spec hs (by rw [hrespond])
          (by rw [hstep]; exact hproc)).left hext.left
        rw [hids, hext.right]
        simp
      · exact hmoves
    · exact hmoves
  · exact hmoves

/-!
## Finished records
-/

theorem released_of_completed {record : Mutation.Record} (hs : Sound env s)
    (hmem : record ∈ s.disk.saved.mutationAuthority.records)
    (hstate : record.state = .completed) : s.disk.Released env.platform record := by
  have hentry : Entry.ofRecord record ∈ s.disk.saved.authority.records :=
    mem_map_of_mem hmem
  rcases Authority.unbacked_of_completed hs.backed hentry hstate with ⟨hnone, hdigest⟩
  refine ⟨?_, ?_⟩
  · intro intent hintent hkind howner
    apply hnone intent.key
    refine mem_filterMap.mpr ⟨intent, hintent, ?_⟩
    rw [intentView, if_pos hkind, howner]
    rfl
  · intro hsame
    rcases hdigest (by
      intro x hx hhash
      rcases mem_map.mp hx with ⟨other, hother, rfl⟩
      exact hsame other hother hhash) with ⟨hcredit, hintent⟩
    constructor
    · intro held hheld hkey
      apply hcredit
      refine mem_map.mpr ⟨(held.key, held.state),
        mem_filterMap.mpr ⟨held, hheld, ?_⟩, hkey⟩
      rw [creditView, if_pos (by rw [hkey]; rfl)]
    · intro intent hmemIntent hkey
      apply hintent
      refine mem_map.mpr ⟨(intent.key, intent.ownerId),
        mem_filterMap.mpr ⟨intent, hmemIntent, ?_⟩, hkey⟩
      rw [intentView, if_pos (by rw [hkey]; rfl)]

theorem disk_of_poisoned (event : Event δ γ) (hproc : s.process = some (e, .idle))
    (hpois : e.poisoned = true) : (s.step env event).disk = s.disk := by
  have htakes : forall credit, takes e credit = false := by
    intro credit
    rw [takes, hpois]
    rfl
  cases event with
  | request | background => simp [step, respond, hproc, htakes]
  | act | returned | raised | boot => simp [step, respond, hproc]
  | crash => rfl

/-!
## The guarantees
-/

theorem mutations_crash_safe (env : Environment δ) (rest : δ) (events : List (Event δ γ)) :
    let start : System δ γ := installed rest
    let s := run (step env) start events
    (forall id, tally (step env) (enteredFor env id) start events <= 1) ∧
    (forall e c, s.process = some (e, .handling c) -> c.kind = .external ->
      s.disk.Keeps env.platform c .started .reserved) ∧
    (forall event e c, (s.respond env event).2 = .entered ->
      (s.step env event).process = some (e, .handling c) -> c.kind = .localAtomic ->
      (s.step env event).disk = s.disk) ∧
    (forall event e c, s.process = some (e, .handling c) -> c.kind = .localAtomic ->
      (exists finish failure, event = .returned finish failure ∧
        CommitsResult c e s.disk (s.step env event).disk finish.cached) ∨
      ((s.step env event).disk = s.disk ∧
        forall next, (s.step env event).process = some (next, .idle) -> Dropped s.disk next)) ∧
    (forall event e, s.process = some (e, .idle) -> e.poisoned = true ->
      (s.step env event).disk = s.disk) ∧
    (forall event e c, s.process = some (e, .handling c) -> c.kind = .external ->
      (s.respond env event).2 = .failed ->
      exists next, (s.step env event).process = some (next, .idle) ∧
        (next.poisoned = true ∨
          (s.step env event).disk.Keeps env.platform c .indeterminate .indeterminate)) ∧
    (forall record, record ∈ s.disk.saved.mutationAuthority.records ->
      record.state = .completed -> s.disk.Released env.platform record) := by
  intro start s
  have hs : Sound env s := sound_run env rest events
  refine ⟨?_, ?_, ?_, ?_, ?_, ?_, ?_⟩
  · intro id
    have hcount := le_measure_run (P := Sound env)
      (m := fun t => t.disk.saved.authority.ids.count id)
      (fun _ event ht => (advances_step event ht).right)
      (fun _ event ht => count_entered id event ht)
      (sound_installed (γ := γ) env rest) events
    have honce : s.disk.saved.authority.ids.count id <= 1 :=
      nodup_iff_count_le_one.mp hs.backed.ids id
    exact (Nat.le_trans (Nat.le_add_left _ _) hcount).trans honce
  · intro e c hproc hkind
    exact keeps_handling hs hproc hkind
  · intro event e c hreply hproc hkind
    exact (entered_spec hs hreply hproc).right hkind
  · intro event e c hproc hkind
    exact local_atomic event hs hproc hkind
  · intro event e hproc hpois
    exact disk_of_poisoned event hproc hpois
  · intro event e c hproc hkind hreply
    exact fenced_of_failed hs hproc hkind hreply
  · intro record hmem hstate
    exact released_of_completed hs hmem hstate

/-- Everything fits, and the hash of an operation id is its first byte. -/
def plainEnvironment : Environment Unit :=
  { platform :=
      { sha256 := fun id => Vector.replicate 32 (id.headD 1)
        parseJson := fun _ => none }
    nonledgerBytes := fun _ => some 0
    actualCounts := fun _ => Admission.Counts.zero
    maintenanceReservation := fun _ => some 0
    snapshotUsage := fun _ _ => .fits
    validatePersistedAdmission := fun _ _ => true }

def connecting : System Unit Unit :=
  run (step plainEnvironment) (installed ())
    [.boot {}, .request
      { method := ascii "source.connect", operationId := ascii "connect-1"
        expectedRevision := 1, fingerprint := Vector.replicate 32 1
        plan := some (1, Admission.Counts.zero) }]

def connectHandling : Handling :=
  { operationId := ascii "connect-1", method := ascii "source.connect"
    expectedRevision := 1, kind := .external, slot := 0, measured := false }

theorem connecting_keeps : connecting.process.map Prod.snd = some (.handling connectHandling) ∧
      connecting.disk.Keeps plainEnvironment.platform connectHandling .started
        .reserved ∧
      (connecting.step plainEnvironment (.raised {})).disk.Keeps
        plainEnvironment.platform connectHandling .indeterminate .indeterminate := by
  have heval : connecting.process.map Prod.snd = some (.handling connectHandling) ∧
      (connecting.respond plainEnvironment (.raised {})).2 = .failed ∧
      (connecting.step plainEnvironment (.raised {})).process.map
        (fun process => process.1.poisoned) = some false := by
    decide +kernel
  rcases heval with ⟨hphase, hreply, hsound⟩
  rcases Option.map_eq_some_iff.mp hphase with ⟨⟨e, phase⟩, hproc, hhandling⟩
  rw [show phase = .handling connectHandling from hhandling] at hproc
  rcases mutations_crash_safe (γ := Unit) plainEnvironment () _ with
    ⟨_, hkeeps, _, _, _, hfailed, _⟩
  refine ⟨hphase, hkeeps e connectHandling hproc rfl, ?_⟩
  rcases hfailed (.raised {}) e connectHandling hproc rfl hreply with
    ⟨next, hnext, hpois | hdone⟩
  · have hnextOf : (connecting.step plainEnvironment (.raised {})).process =
        some (next, .idle) := hnext
    rw [hnextOf] at hsound
    have hfalse : next.poisoned = false := Option.some.inj hsound
    rw [hpois] at hfalse
    cases hfalse
  · exact hdone

end System
end Omux.Actor
