import Omux.Actor.Authority
import Omux.Mutation.Restore

/-!
# The engine seen as an authority

Every part of the mutation path is a triple about what the engine stands for: an
authority in memory, and a frame of what the path leaves alone.
-/

namespace Omux.Actor

open Library List
open Mutation (Platform)
open Mutation.Ledger (Updates Valid)
open Admission (Key Credit)

variable {δ γ : Type}

/-!
## Views of the ledgers
-/

def Entry.ofRecord (record : Mutation.Record) : Entry :=
  { intent := record.intent, state := record.state, result := record.result }

def creditView (credit : Credit) : Option (Key × Admission.State) :=
  if credit.key.kind = .mutation then some (credit.key, credit.state) else none

def intentView (intent : OutcomeIntent) : Option (Key × Bytes) :=
  if intent.key.kind = .mutation then some (intent.key, intent.ownerId) else none

def Authority.of (records : List Mutation.Record) (credits : List Credit)
    (intents : List OutcomeIntent) : Authority :=
  { records := records.map Entry.ofRecord
    credits := credits.filterMap creditView
    intents := intents.filterMap intentView }

def Engine.authority (e : Engine δ γ) : Authority :=
  Authority.of e.mutations.records e.admission.credits e.outcomeIntents

def Persisted.authority (p : Persisted δ) : Authority :=
  Authority.of p.mutationAuthority.records p.snapshotAdmission.credits
    p.outcomeIntents

variable {credit : Credit} {intent : OutcomeIntent} {credits : List Credit}
  {intents : List OutcomeIntent}

theorem creditView_key {pair : Key × Admission.State} (h : creditView credit = some pair) :
    pair.1 = credit.key ∧ credit.key.kind = .mutation := by
  unfold creditView at h
  split at h
  · rename_i hkind
    cases h
    exact ⟨rfl, hkind⟩
  · cases h

theorem creditView_unsettle (credit : Credit) : creditView credit.unsettle =
      (creditView credit).map fun pair => (pair.1, Admission.State.indeterminate) := by
  unfold creditView Admission.Credit.unsettle
  split <;> rfl

theorem intentView_key {pair : Key × Bytes} (h : intentView intent = some pair) :
    pair.1 = intent.key ∧ intent.key.kind = .mutation := by
  unfold intentView at h
  split at h
  · rename_i hkind
    cases h
    exact ⟨rfl, hkind⟩
  · cases h

section Foreign

variable {records : List Mutation.Record} {key : Key}

section

variable (hkey : Live.foreign key = true)
include hkey

theorem credit_ne_foreign
    {pair : Key × Admission.State} (h : pair ∈ credits.filterMap creditView) : pair.1 ≠ key := by
  rcases mem_filterMap.mp h with ⟨_, _, hview⟩
  rcases creditView_key hview with ⟨hpair, hkind⟩
  intro heq
  rw [<- heq, hpair, Live.foreign, hkind] at hkey
  cases hkey

theorem intent_ne_foreign {pair : Key × Bytes}
    (h : pair ∈ intents.filterMap intentView) : pair.1 ≠ key := by
  rcases mem_filterMap.mp h with ⟨_, _, hview⟩
  rcases intentView_key hview with ⟨hpair, hkind⟩
  intro heq
  rw [<- heq, hpair, Live.foreign, hkind] at hkey
  cases hkey

theorem release_foreign :
    (Authority.of records credits intents).release key =
      Authority.of records credits intents := by
  have hcreds : (credits.filterMap creditView).filter (fun p => p.1 != key) =
      credits.filterMap creditView := by
    rw [filter_eq_self]
    intro p hp
    simpa using credit_ne_foreign hkey hp
  have hintents : (intents.filterMap intentView).filter (fun p => p.1 != key) =
      intents.filterMap intentView := by
    rw [filter_eq_self]
    intro p hp
    simpa using intent_ne_foreign hkey hp
  simp [Authority.release, Authority.of, hcreds, hintents]

theorem doubtCredit_foreign :
    (Authority.of records credits intents).doubtCredit key =
      Authority.of records credits intents := by
  have hcreds : (credits.filterMap creditView).map (fun p =>
      if p.1 = key then (p.1, Admission.State.indeterminate) else p) =
        credits.filterMap creditView := by
    rw [map_congr_left (g := id), map_id]
    intro p hp
    exact if_neg (credit_ne_foreign hkey hp)
  simp [Authority.doubtCredit, Authority.of, hcreds]

end

end Foreign

structure Aligned (credits : List Credit) (intents : List OutcomeIntent) : Prop where
  creditKeys : (credits.map Credit.key).Nodup
  intentKeys : (intents.map OutcomeIntent.key).Nodup
  matched : forall key, key ∈ credits.map Credit.key ↔ key ∈ intents.map OutcomeIntent.key

theorem aligned_of_keys {credits' : List Credit} {intents' : List OutcomeIntent}
    (h : Aligned credits intents) (hcreds : credits'.map Credit.key = credits.map Credit.key)
    (hintents : intents'.map OutcomeIntent.key = intents.map OutcomeIntent.key) :
    Aligned credits' intents' where
  creditKeys := by rw [hcreds]; exact h.creditKeys
  intentKeys := by rw [hintents]; exact h.intentKeys
  matched := by
    intro key
    rw [hcreds, hintents]
    exact h.matched key

theorem aligned_concat (h : Aligned credits intents) (hkey : credit.key = intent.key)
    (hfresh : forall y, y ∈ credits -> y.key ≠ credit.key) :
    Aligned (credits ++ [credit]) (intents ++ [intent]) where
  creditKeys := nodup_map_concat h.creditKeys hfresh
  intentKeys := by
    apply nodup_map_concat h.intentKeys
    intro y hy heq
    have hmem := (h.matched credit.key).mpr (mem_map.mpr ⟨y, hy, heq.trans hkey.symm⟩)
    rcases mem_map.mp hmem with ⟨x, hx, hxkey⟩
    exact hfresh x hx hxkey
  matched := by
    intro key
    have hold := h.matched key
    simp [hold, hkey]

theorem mem_keys_eraseIdx {α κ : Type} [DecidableEq κ] {key : α -> κ}
    {records : List α} {i : Nat} {x : α} {k k' : κ} (hnd : (records.map key).Nodup)
    (h : recordEntry key records k = some (i, x)) :
    k' ∈ (records.eraseIdx i).map key ↔ k' ∈ records.map key ∧ k' ≠ k := by
  rcases recordEntry_split hnd h with ⟨_, _, rfl, rfl, hx, hbefore, hafter⟩
  rw [eraseIdx_at_split]
  simp only [map_append, map_cons, mem_append, mem_cons, hx]
  constructor
  · intro hmem
    rcases hmem with hin | hin
    · rcases mem_map.mp hin with ⟨y, hy, hyk⟩
      exact ⟨.inl hin, hyk ▸ hbefore y hy⟩
    · rcases mem_map.mp hin with ⟨y, hy, hyk⟩
      exact ⟨.inr (.inr hin), hyk ▸ hafter y hy⟩
  · intro hmem
    rcases hmem with ⟨hin | heq | hin, hne⟩
    · exact Or.inl hin
    · exact absurd heq hne
    · exact Or.inr hin

theorem aligned_erase {key : Key} {i j : Nat} (h : Aligned credits intents)
    (hcredit : recordEntry Credit.key credits key = some (i, credit))
    (hintent : recordEntry OutcomeIntent.key intents key = some (j, intent)) :
    Aligned (credits.eraseIdx i) (intents.eraseIdx j) where
  creditKeys := nodup_map_eraseIdx h.creditKeys
  intentKeys := nodup_map_eraseIdx h.intentKeys
  matched := by
    intro k
    rw [mem_keys_eraseIdx h.creditKeys hcredit, mem_keys_eraseIdx h.intentKeys hintent, h.matched k]

/-!
## What the engine stands for
-/

structure SavedOk (env : Environment δ) (p : Persisted δ) : Prop where
  ledger : exists l, Mutation.Ledger.Valid env.platform l ∧
    p.mutationAuthority = l.snapshot
  aligned : Aligned p.snapshotAdmission.credits p.outcomeIntents

structure Frame (δ γ : Type) where
  disk : Disk δ γ
  rest : δ
  staging : Bool
  staged : List γ

def Live.frame (s : Live δ γ) : Frame δ γ :=
  { disk := s.disk, rest := s.engine.rest
    staging := s.engine.stagingMutation, staged := s.engine.stagedChanges }

structure Stands (env : Environment δ) (a : Authority) (f : Frame δ γ)
    (s : Live δ γ) : Prop where
  valid : Mutation.Ledger.Valid env.platform s.engine.mutations
  aligned : Aligned s.engine.admission.credits s.engine.outcomeIntents
  authority : s.engine.authority = a
  frame : s.frame = f

def Written (env : Environment δ) (a : Authority) (f : Frame δ γ)
    (changes : List γ) (f' : Frame δ γ) : Prop :=
  exists saved, SavedOk env saved ∧ saved.authority = a ∧ saved.rest = f.rest ∧
    f' = { f with disk := f.disk.commit saved changes }

namespace Live

/-- Success and failure promise the same. -/
abbrev Ends (P : Live δ γ -> Prop) (action : Action (Live δ γ)) (Q : Live δ γ -> Prop) : Prop :=
  Holds P action Q Q

abbrev Keeps (P : Live δ γ -> Prop) (action : Action (Live δ γ)) : Prop :=
  Ends P action P

variable {env : Environment δ} {a : Authority} {f : Frame δ γ}

variable {s : Live δ γ}

theorem savedOk_of_stands (h : Stands env a f s) : SavedOk env s.engine.persisted :=
  ⟨⟨s.engine.mutations, h.valid, rfl⟩, h.aligned⟩

theorem holds_poison : Keeps (Stands env a f) poison := by
  apply holds_modify
  intro s h
  exact { h with }

theorem holds_stage (changes : List γ) : Holds (Stands env a f) (stage changes)
      (Stands env a { f with staged := f.staged ++ changes }) (Stands env a f) := by
  apply holds_modify
  intro s h
  refine { h with frame := ?_ }
  rw [<- h.frame]
  rfl

theorem holds_reserveMaintenance : Keeps (Stands env a f) (reserveMaintenance env) := by
  apply holds_withValue
  · intro _
    apply holds_modify
    intro s h
    exact { h with }
  · intro s h
    exact h

theorem holds_checkUsage : Keeps (Stands env a f) (checkUsage env) :=
  holds_check (fun _ h => h) (fun _ h => h)

/-!
### Operations of the mutation ledger
-/

theorem holds_onMutations {P Q R : Live δ γ -> Prop}
    {operation : Mutation.Ledger -> Mutation.Result Mutation.Ledger}
    (hok : forall s next, P s -> operation s.engine.mutations = .ok next ->
      Q (s.setEngine { s.engine with mutations := next }))
    (hfail : forall s, P s -> R s) : Holds P (onMutations operation) Q R := by
  apply holds_update
  · intro s t hs hrun
    rcases Option.map_eq_some_iff.mp hrun with ⟨next, hnext, rfl⟩
    exact hok s next hs (toOption_eq_some.mp hnext)
  · intro s hs _
    exact hfail s hs

theorem stands_updates {i : Nat} {old new : Mutation.Record} {next : Mutation.Ledger}
    (h : Stands env a f s) (hupd : Updates env.platform s.engine.mutations i old new next) :
    a.records[i]? = some (Entry.ofRecord old) ∧
      Stands env (a.replace i (Entry.ofRecord new)) f
        (s.setEngine { s.engine with mutations := next }) := by
  have hrecs : next.records = s.engine.mutations.records.set i new := by rw [hupd.result]
  constructor
  · rw [<- h.authority]
    simp [Engine.authority, Authority.of, hupd.entry]
  · refine ⟨Mutation.Ledger.valid_updates h.valid hupd, h.aligned, ?_, h.frame⟩
    rw [<- h.authority]
    simp [Engine.authority, Authority.of, Authority.replace, setEngine, hrecs]

theorem ofRecord_withSlot (record : Mutation.Record) (measured : Mutation.Measured)
    (slot : Mutation.Slot) :
    Entry.ofRecord (record.withSlot measured slot) = Entry.ofRecord record := by
  cases measured <;> rfl

theorem replace_self {i : Nat} {e : Entry} (h : a.records[i]? = some e) : a.replace i e = a := by
  have hset : a.records.set i e = a.records := by simpa using map_set_of_eq (f := id) h rfl
  rw [Authority.replace, hset]

theorem stands_measurement {next : Mutation.Ledger} (h : Stands env a f s)
    (hnext : next = s.engine.mutations ∨ exists i old measured slot, Updates
      env.platform s.engine.mutations i old (old.withSlot measured slot) next) :
    Stands env a f (s.setEngine { s.engine with mutations := next }) := by
  rcases hnext with rfl | hupdated
  · exact h
  · rcases hupdated with ⟨i, old, measured, slot, hupd⟩
    rcases stands_updates h hupd with ⟨hentry, hstands⟩
    rw [ofRecord_withSlot, replace_self hentry] at hstands
    exact hstands

theorem holds_abandonWitness (slot : Nat) :
    Keeps (Stands env a f) (onMutations fun l => l.abandonLifecycleWitness slot) := by
  apply holds_onMutations
  · intro s _ h hnext
    rcases Mutation.Ledger.abandonWitness_updates h.valid hnext with ⟨old, written, hup⟩
    exact stands_measurement h (.inr ⟨slot, old, .lifecycle, written, hup⟩)
  · intro s h
    exact h

theorem holds_setWitnessOnce (slot : Nat) (fact : Mutation.Witness) (revision : Nat) :
    Keeps (Stands env a f)
      (onMutations fun l => l.setLifecycleWitnessOnce env.platform slot fact revision) := by
  apply holds_onMutations
  · intro s _ h hnext
    rcases Mutation.Ledger.setWitnessOnce_updates h.valid hnext with ⟨old, written, hup⟩
    exact stands_measurement h (.inr ⟨slot, old, .lifecycle, written, hup⟩)
  · intro s h
    exact h

theorem holds_complete (slot : Nat) (bytes : Bytes) :
    Holds (Stands env a f) (onMutations fun l => l.complete slot bytes)
      (fun s => exists e, a.records[slot]? = some e ∧ e.state = .started ∧
        Stands env (a.replace slot (e.complete bytes)) f s) (Stands env a f) := by
  apply holds_onMutations
  · intro s _ h hnext
    rcases Mutation.Ledger.complete_updates h.valid hnext with ⟨old, hstate, hup⟩
    rcases stands_updates h hup with ⟨hentry, hstands⟩
    exact ⟨Entry.ofRecord old, hentry, hstate, hstands⟩
  · intro s h
    exact h

theorem holds_markIndeterminate {slot : Nat} {e : Entry} (hslot : a.records[slot]? = some e) :
    Holds (Stands env a f) (onMutations fun l => l.markIndeterminate slot)
      (Stands env (a.replace slot e.doubt) f) (Stands env a f) := by
  apply holds_onMutations
  · intro s _ h hnext
    rcases Mutation.Ledger.markIndeterminate_updates h.valid hnext with ⟨_, _, hup⟩
    rcases stands_updates h hup with ⟨hentry, hstands⟩
    rw [hslot] at hentry
    rw [Option.some.inj hentry]
    exact hstands
  · intro s h
    exact h

/-!
### Operations of the admission ledger
-/

theorem holds_onAdmission {P Q R : Live δ γ -> Prop}
    {operation : Admission.Ledger -> Admission.Result Admission.Ledger}
    (hok : forall s next, P s -> operation s.engine.admission = .ok next ->
      Q (s.setEngine { s.engine with admission := next }))
    (hfail : forall s, P s -> R s) : Holds P (onAdmission operation) Q R := by
  apply holds_update
  · intro s t hs hrun
    rcases Option.map_eq_some_iff.mp hrun with ⟨next, hnext, rfl⟩
    exact hok s next hs (toOption_eq_some.mp hnext)
  · intro s hs _
    exact hfail s hs

theorem stands_setCredit {key : Key} {i : Nat} {credit new : Credit} {next : Admission.Ledger}
    {g : Key × Admission.State -> Key × Admission.State} (h : Stands env a f s)
    (hindex : s.engine.admission.index key = some (i, credit))
    (hcreds : next.credits = s.engine.admission.credits.set i new)
    (hkey : new.key = credit.key) (hnew : creditView new = (creditView credit).map g) :
    Stands env { a with
        credits := a.credits.map (fun p => if p.1 = key then g p else p) } f
      (s.setEngine { s.engine with admission := next }) := by
  have hkeys : next.credits.map Credit.key = s.engine.admission.credits.map Credit.key := by
    rw [hcreds]
    exact map_set_of_eq (recordEntry_eq_some hindex).left hkey
  have hview := filterMap_set_recordEntry (fun _ _ hp => (creditView_key hp).left)
    h.aligned.creditKeys hindex hnew
  rw [<- hcreds] at hview
  refine ⟨h.valid, aligned_of_keys h.aligned hkeys rfl, ?_, h.frame⟩
  rw [<- h.authority]
  simp [Engine.authority, Authority.of, setEngine, hview]

theorem holds_debitCredit (key : Key) (bytes : Nat) (counts : Admission.Counts) :
    Keeps (Stands env a f) (onAdmission fun l => l.consumeWithCounts key bytes counts) := by
  apply holds_onAdmission
  · intro s _ h hnext
    rcases Admission.Ledger.consumeWithCounts_inv hnext with ⟨i, credit, hindex, hcreds⟩
    have hdebit : creditView (credit.debit bytes counts) = (creditView credit).map id := by
      rw [Option.map_id]
      rfl
    simpa using stands_setCredit h hindex hcreds rfl hdebit
  · intro s h
    exact h

theorem holds_unsettleCredit (key : Key) :
    Holds (Stands env a f) (onAdmission fun l => l.markIndeterminate key)
      (Stands env (a.doubtCredit key) f) (Stands env a f) := by
  apply holds_onAdmission
  · intro s _ h hnext
    rcases Admission.Ledger.markIndeterminate_inv hnext with ⟨i, credit, hindex, hcreds⟩
    exact stands_setCredit h hindex hcreds rfl (creditView_unsettle credit)
  · intro s h
    exact h

theorem holds_debitIntent (key : Key) (bytes : Nat) :
    Keeps (Stands env a f) (debitIntent env key bytes) := by
  apply holds_update
  · intro s t h hrun
    cases hentry : recordEntry OutcomeIntent.key s.engine.outcomeIntents key with
    | none => cases hentry ▸ hrun
    | some =>
      simp only [hentry] at hrun
      split at hrun
      · cases hrun
      · cases hrun
        have hget := (recordEntry_eq_some hentry).left
        refine ⟨h.valid, aligned_of_keys h.aligned rfl (map_set_of_eq hget rfl), ?_, h.frame⟩
        rw [<- h.authority]
        simp only [Engine.authority, Authority.of, setEngine]
        rw [filterMap_set_recordEntry (f := id)
          (fun _ _ hp => (intentView_key hp).left) h.aligned.intentKeys hentry
          (by simp [intentView])]
        simp
  · intro s h _
    exact h

theorem holds_consumeGrowth (candidate : Nat) :
    Keeps (Stands env a f) (consumeGrowth env candidate) := by
  intro s h
  unfold consumeGrowth
  cases hcredit : s.engine.activeCredit with
  | none => exact ⟨fun _ => h, fun _ => h⟩
  | some key =>
    dsimp only
    split
    · exact ⟨fun _ => h, fun _ => h⟩
    · exact holds_andThen (holds_debitCredit key _ _) (holds_debitIntent key _) s h

theorem holds_reserveOutcome (input : OutcomeIntent) : Holds (Stands env a f) (reserveOutcome input)
      (fun s => Stands env
        (if input.key.kind = .mutation then a.reserve input.key input.ownerId else a) f s ∧
        input.key ∉ a.credits.map Prod.fst) (Stands env a f) := by
  apply holds_update
  · intro s t h hrun
    split at hrun
    · cases hrun
    · rcases Option.map_eq_some_iff.mp hrun with ⟨admission, hadm, rfl⟩
      cases hresv : s.engine.admission.reserveWithCounts input.key input.planBytes
          input.planCounts with
      | error _ => cases hresv ▸ hadm
      | ok _ =>
        rw [hresv] at hadm
        cases hadm
        rcases Admission.Ledger.reserveWithCounts_inv hresv with ⟨hnone, hcreds⟩
        have hfresh : forall y, y ∈ s.engine.admission.credits ->
            y.key ≠ input.key := recordAt_eq_none.mp hnone
        constructor
        · refine ⟨h.valid, ?_, ?_, h.frame⟩
          · show Aligned admission.credits (s.engine.outcomeIntents ++ [input])
            rw [hcreds]
            exact aligned_concat h.aligned rfl hfresh
          · rw [<- h.authority]
            simp only [Engine.authority, setEngine, hcreds, Authority.of, Authority.reserve]
            by_cases hkind : input.key.kind = .mutation <;> simp [creditView, intentView, hkind]
        · rw [<- h.authority]
          intro hmem
          rcases mem_map.mp hmem with ⟨_, hpair, hkey⟩
          rcases key_of_mem_view (fun _ _ hp => (creditView_key hp).left) hpair with
            ⟨credit, hcredit, hpk⟩
          exact hfresh credit hcredit (hpk.symm.trans hkey)
  · intro s h _
    exact h

theorem holds_releaseOutcome (key : Key) : Holds (Stands env a f) (releaseOutcome key)
      (Stands env (a.release key) f) (Stands env a f) := by
  -- Between the two parts the credit is gone and the intent is still there.
  apply holds_andThen (M := fun s => exists t i credit, Stands env a f t ∧ recordEntry
    Credit.key t.engine.admission.credits key = some (i, credit) ∧ s.engine.admission.credits =
    t.engine.admission.credits.eraseIdx i ∧ s.engine.outcomeIntents = t.engine.outcomeIntents ∧
    s.engine.mutations = t.engine.mutations ∧ s.frame = f)
  · apply holds_onAdmission
    · intro s _ h hnext
      rcases Admission.Ledger.release_inv hnext with ⟨i, credit, hindex, hcreds⟩
      exact ⟨s, i, credit, h, hindex, hcreds, rfl, rfl, h.frame⟩
    · intro s h
      exact h
  · apply holds_update
    · intro s t h hrun
      rcases h with ⟨old, i, credit, hold, hindex, hcreds, hintents, hmuts, hframe⟩
      rcases Option.map_eq_some_iff.mp hrun with ⟨⟨j, intent⟩, hentry, rfl⟩
      rw [hintents] at hentry
      refine ⟨?_, ?_, ?_, hframe⟩
      · show Valid env.platform s.engine.mutations
        rw [hmuts]
        exact hold.valid
      · show Aligned s.engine.admission.credits (s.engine.outcomeIntents.eraseIdx j)
        rw [hcreds, hintents]
        exact aligned_erase hold.aligned hindex hentry
      · rw [<- hold.authority]
        simp only [Engine.authority, setEngine, Authority.of, Authority.release,
          hcreds, hintents, hmuts]
        rw [filterMap_eraseIdx_recordEntry (fun _ _ hp => (creditView_key hp).left)
            hold.aligned.creditKeys hindex,
          filterMap_eraseIdx_recordEntry (fun _ _ hp => (intentView_key hp).left)
            hold.aligned.intentKeys hentry]
    · intro s h hrun
      rcases h with ⟨old, i, credit, hold, hindex, hcreds, hintents, hmuts, hframe⟩
      rw [hintents, Option.map_eq_none_iff] at hrun
      have hmem : key ∈ old.engine.admission.credits.map Credit.key :=
        mem_map.mpr ⟨credit, recordEntry_mem hindex, (recordEntry_eq_some hindex).right⟩
      rcases mem_map.mp ((hold.aligned.matched key).mp hmem) with
        ⟨intent, hintent, hkey⟩
      exact absurd hkey (recordEntry_eq_none.mp hrun intent hintent)

/-!
### Writing and reading the snapshot
-/

/-- After a failure the snapshot may be committed, but then the engine is fenced. -/
def Unwritten (env : Environment δ) (a : Authority) (f : Frame δ γ)
    (changes : List γ) (s : Live δ γ) : Prop :=
  Stands env a f s ∨
    (s.engine.poisoned = true ∧ exists f', Written env a f changes f' ∧ Stands env a f' s)

abbrev Writes (env : Environment δ) (a : Authority) (f : Frame δ γ) (changes : List γ)
    (action : Action (Live δ γ)) : Prop :=
  Holds (Stands env a f) action
    (fun s => exists f', Written env a f changes f' ∧ Stands env a f' s)
    (Unwritten env a f changes)

theorem holds_commitSnapshot (changes : List γ) (outcome : Commit) (bytes : Nat) :
    Writes env a f changes (commitSnapshot env changes outcome bytes) := by
  intro s h
  have hfence : Writes env a f changes poisonAndFail :=
    holds_andThen (holds_poison.fails (fun _ h => .inl h)) (holds_fail fun _ h => .inl h)
  have hwritten : Written env a f changes
      { f with disk := f.disk.commit s.engine.persisted changes } := by
    refine ⟨s.engine.persisted, savedOk_of_stands h, h.authority, ?_, rfl⟩
    rw [<- h.frame]
    rfl
  unfold commitSnapshot
  split
  · exact hfence s h
  · cases outcome with
    | durable =>
      refine ⟨fun _ => ⟨_, hwritten, h.valid, h.aligned, h.authority, ?_⟩, nofun⟩
      rw [<- h.frame]
      rfl
    | refused => exact hfence s h
    | ambiguous =>
      refine ⟨fun hflag => by (cases hflag), fun _ => .inr ⟨rfl, _, hwritten,
        h.valid, h.aligned, h.authority, ?_⟩⟩
      rw [<- h.frame]
      rfl

theorem holds_write (changes : List γ) (outcome : Commit) :
    Writes env a f changes (write env changes outcome) := by
  have hkeep : forall s : Live δ γ, Stands env a f s ->
      Unwritten env a f changes s := fun _ h => .inl h
  apply holds_withValue
  · intro candidate
    apply holds_andThen ((holds_consumeGrowth candidate).fails hkeep)
    apply holds_andThen (holds_reserveMaintenance.fails hkeep)
    apply holds_andThen (holds_checkUsage.fails hkeep)
    apply holds_withValue
    · intro committed
      exact holds_commitSnapshot changes outcome committed
    · exact hkeep
  · exact hkeep

theorem holds_persist (changes : List γ) (outcome : Commit) (hstage : f.staging = false) :
    Writes env a f changes (persist env changes outcome) := by
  intro s h
  have hflag : s.engine.stagingMutation = false := by
    rw [<- hstage, <- h.frame]
    rfl
  unfold persist
  rw [hflag]
  exact holds_write changes outcome s h

/-- While a mutation is staged, a nested write changes nothing but the stage. -/
theorem holds_persist_staging (changes : List γ) (outcome : Commit)
    (hstage : f.staging = true) : Holds (Stands env a f) (persist env changes outcome)
      (Stands env a { f with staged := f.staged ++ changes }) (Stands env a f) := by
  intro s h
  have hflag : s.engine.stagingMutation = true := by
    rw [<- hstage, <- h.frame]
    rfl
  unfold persist
  rw [hflag]
  exact holds_stage changes s h

def Frame.restored (f : Frame δ γ) : Frame δ γ :=
  { f with rest := f.disk.saved.rest }

theorem committedEngine_inv {e : Engine δ γ} (hsaved : SavedOk env s.disk.saved)
    (h : committedEngine env s.disk s.engine = some e) :
    Stands env s.disk.saved.authority (Frame.restored s.frame) (s.setEngine e) := by
  unfold committedEngine at h
  split at h
  · cases h
  · split at h
    · rename_i mutations admission hmuts hadm
      cases h
      rcases hsaved.ledger with ⟨l, hl, hsnap⟩
      rw [hsnap] at hmuts
      have hrest := Mutation.Ledger.fromSnapshotAtRevision_inv hl hmuts
      have hcreds := Admission.Ledger.fromSnapshot_inv hadm
      refine ⟨?_, ?_, ?_, rfl⟩
      · rw [hrest]
        exact hl
      · show Aligned admission.credits s.disk.saved.outcomeIntents
        rw [hcreds]
        exact hsaved.aligned
      · show Authority.of mutations.records admission.credits
          s.disk.saved.outcomeIntents = s.disk.saved.authority
        rw [hrest, hcreds, Persisted.authority, hsnap]
        rfl
    · cases h

/-- Reading back succeeds, or leaves the engine as it was, or stops after it. -/
theorem holds_restoreCommitted (readable : Bool) (hsaved : SavedOk env s.disk.saved) :
    Holds (fun x => x = s) (restoreCommitted env readable)
      (Stands env s.disk.saved.authority (Frame.restored s.frame))
      (fun x => x = s ∨
        Stands env s.disk.saved.authority (Frame.restored s.frame) x) := by
  apply holds_andThen (holds_check (fun _ h => h) (fun _ h => .inl h))
  apply holds_andThen (M := Stands env s.disk.saved.authority (Frame.restored s.frame))
  · apply holds_update
    · intro x t hx hrun
      rw [hx] at hrun
      rcases Option.map_eq_some_iff.mp hrun with ⟨e, he, rfl⟩
      exact committedEngine_inv hsaved he
    · intro x hx _
      exact Or.inl hx
  · apply holds_andThen (holds_reserveMaintenance.fails (fun _ h => .inr h))
    apply holds_andThen (holds_checkUsage.fails (fun _ h => .inr h))
    apply holds_withValue
    · intro _
      apply holds_modify
      intro x h
      exact { h with }
    · intro x h
      exact Or.inr h

end Live
end Omux.Actor
