import Omux.Storage.Fencing

/-!
# The history is a run of the mutations

Whatever fails and whatever database is put back in the meantime, each committed
database comes from the one committed before it by one mutation.
-/

namespace Omux.Storage

open Library List

variable {platform : Platform}

inductive Lineage (platform : Platform) : List Committed -> Prop where
  | nil : Lineage platform []
  | initialised {entry : Committed} (hfresh : entry.tables.Fresh)
      (hcause : entry.cause = .initialised) : Lineage platform [entry]
  | mutated {entry last : Committed} {rest : List Committed} {root : Root}
      {mutation : Mutation} {tables : Tables} {reply : Reply}
      (hbefore : Lineage platform (last :: rest))
      (hbody : mutation.Yields platform root last.tables (.changed tables reply))
      (htables : entry.tables = Disk.writeCheckpoint tables entry.checkpoint)
      (hcause : entry.cause = .mutated root mutation) :
      Lineage platform (entry :: last :: rest)

theorem lineage_transacted {disk after : Disk} {store store' : Store}
    {mutation : Mutation} {nonce : Block} {result : Result Reply}
    (hcur : disk.Current store) (hlineage : Lineage platform disk.history)
    (h : Transacted platform disk store mutation nonce after store' result) :
    Lineage platform after.history ∧ disk.history <:+ after.history := by
  cases h with
  | refused | answered | reserved => exact ⟨hlineage, suffix_refl _⟩
  | committed hresv _ _ =>
    rcases hcur with ⟨_, _, hhist, hdb, _⟩
    rcases hresv.body with ⟨_, hbefore, hbody⟩
    rw [Disk.tables, hdb] at hbefore
    cases hbefore
    refine ⟨?_, suffix_cons _ _⟩
    show Lineage platform (_ :: disk.history)
    rw [hhist] at hlineage ⊢
    exact .mutated hlineage hbody rfl rfl

theorem lineage_opened {disk after : Disk} {result : Result Store}
    (hfenced : disk.Fenced platform) (hlineage : Lineage platform disk.history)
    (h : Opened platform disk after result) :
    Lineage platform after.history ∧ disk.history <:+ after.history := by
  cases h with
  | refused | blank | initialising | existing => exact ⟨hlineage, suffix_refl _⟩
  | created _ habsent _ hfresh _ =>
    refine ⟨?_, suffix_cons _ _⟩
    show Lineage platform (_ :: disk.history)
    rw [history_of_absent hfenced habsent]
    exact .initialised hfresh rfl

theorem lineage_openRoot {disk : Disk} (request : OpenRequest) (faults : OpenFaults)
    (hfenced : disk.Fenced platform) (hlineage : Lineage platform disk.history) :
    Lineage platform (Store.openRoot platform request disk faults).1.history ∧
      disk.history <:+ (Store.openRoot platform request disk faults).1.history := by
  have hcases := @openDatabase_opened platform request disk faults
  have hopened := lineage_opened hfenced hlineage hcases
  rcases @openRoot_transacted platform request disk faults with
    ⟨hdisk, _⟩ | ⟨opened, hok, _, _, htx, _⟩
  · rw [hdisk]
    exact hopened
  · have hcur := (fenced_opened hfenced hcases).right opened hok
    have hafter := lineage_transacted hcur hopened.left htx
    exact ⟨hafter.left, hopened.right.trans hafter.right⟩

namespace System

structure Traced (platform : Platform) (system : System) : Prop where
  sound : Sound platform system
  lineage : Lineage platform system.disk.history

theorem lineage_step (system : System) (event : Event) (h : Traced platform system) :
    Lineage platform (system.step platform event).disk.history ∧
      system.disk.history <:+ (system.step platform event).disk.history := by
  have hsame : Lineage platform system.disk.history ∧ system.disk.history <:+ system.disk.history :=
    ⟨h.lineage, suffix_refl _⟩
  cases event with
  | openStore request faults crash =>
    cases hstore : system.store with
    | some => simpa only [step, respond, hstore] using hsame
    | none =>
      simpa only [step, respond, hstore] using
        lineage_openRoot request faults h.sound.fenced h.lineage
  | mutate mutation nonce faults crash =>
    cases hstore : system.store with
    | none => simpa only [step, respond, hstore] using hsame
    | some store =>
      simpa only [step, respond, hstore] using
        lineage_transacted (h.sound.current store hstore) h.lineage
          (transact_transacted store system.disk mutation nonce faults)
  | close | powerLoss kept => exact hsame
  | restoreDatabase | deleteDatabase =>
    unfold step respond
    dsimp only
    split <;> exact hsame

theorem traced_step (system : System) (event : Event) (h : Traced platform system) :
    Traced platform (system.step platform event) :=
  ⟨sound_step system event h.sound, (lineage_step system event h).left⟩

theorem traced_installed : Traced platform installed :=
  ⟨sound_installed, .nil⟩

theorem traced_run (events : List Event) : Traced platform (run (step platform) installed events) :=
  run_invariant traced_step traced_installed events

theorem history_suffix {system : System} (h : Traced platform system) (events : List Event) :
    system.disk.history <:+ (run (step platform) system events).disk.history := by
  have hstep : forall later event,
      Traced platform later ∧ system.disk.history <:+ later.disk.history ->
      Traced platform (later.step platform event) ∧
        system.disk.history <:+ (later.step platform event).disk.history := by
    intro later event hlater
    exact ⟨traced_step later event hlater.left,
      hlater.right.trans (lineage_step later event hlater.left).right⟩
  exact (run_invariant hstep ⟨h, suffix_refl _⟩ events).right

end System

end Omux.Storage
