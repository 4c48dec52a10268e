import Omux.Mutation.RecordInvariant

/-!
# Well-formed mutation ledgers

Every operation but `begin` and a restart rewrites one record; what such an update does is
said once.
-/

namespace Omux.Mutation

open Library List

namespace Ledger

variable {platform : Platform} {l next : Ledger}

structure Valid (platform : Platform) (l : Ledger) : Prop where
  capacity : 0 < l.capacity ∧ l.capacity <= maxRecords
  bounded : l.records.length <= l.capacity
  ceilings : l.witnessCeiling = maximumSerializedBytes .lifecycle ∧
    l.nativeWitnessCeiling = maximumSerializedBytes .nativeRemoval
  ids : (l.records.map Record.idBytes).Nodup
  each : forall record, record ∈ l.records -> RecordOk platform record
  reserved : l.reservedSnapshotBytes = snapshotOverhead + (l.records.map recordBytes).sum
  fits : l.reservedSnapshotBytes <= maximumSnapshotBytes

theorem init_inv {capacity : Nat} (h : init capacity = .ok l) :
    0 < capacity ∧ capacity <= maxRecords ∧
      l = { capacity := capacity
            witnessCeiling := maximumSerializedBytes .lifecycle
            nativeWitnessCeiling := maximumSerializedBytes .nativeRemoval } := by
  simp only [init, ok_iff, bool_iff, not_lt] at h
  rcases h with ⟨_, ⟨hzero, hmax⟩, hl⟩
  exact ⟨Nat.pos_of_ne_zero hzero, hmax, hl.symm⟩

theorem valid_init {capacity : Nat} (h : init capacity = .ok l) : Valid platform l := by
  rcases init_inv h with ⟨hpos, hmax, rfl⟩
  exact
    { capacity := ⟨hpos, hmax⟩
      bounded := Nat.zero_le _
      ceilings := by simp
      ids := nodup_nil
      each := by simp
      reserved := by simp
      fits := by simp [snapshotOverhead, maximumSnapshotBytes] }

theorem ceiling_of_valid (hl : Valid platform l) (measured : Measured) :
    l.ceiling measured = maximumSerializedBytes measured := by
  cases measured with
  | lifecycle => exact hl.ceilings.left
  | nativeRemoval => exact hl.ceilings.right

variable {i : Nat} {measured : Measured} {record : Record}

theorem reservation_of_valid (hl : Valid platform l) (hrecord : RecordOk platform record) :
    l.reservation record = .ok (recordBytes record) := by
  rw [reservation, hl.ceilings.left, hl.ceilings.right, recordReservation_of_ok platform hrecord]

theorem length_of_reservation {fact : Witness} {bytes : Nat} (hl : Valid platform l)
    (h : l.reservation (record.withSlot measured
      { reserved := false, fact := some fact }) = .ok bytes) :
    (fact.json measured).length <= maximumSerializedBytes measured := by
  simp only [reservation, recordReservation, ok_iff, hl.ceilings.left, hl.ceilings.right] at h
  rcases h with ⟨_, hlifecycle, _, hnative, _⟩
  cases measured with
  | lifecycle =>
    simp [Record.withSlot, slotReservation, countWithin] at hlifecycle
    exact hlifecycle.left
  | nativeRemoval =>
    simp [Record.withSlot, slotReservation, countWithin] at hnative
    exact hnative.left

theorem recordBytes_le_reserved (hl : Valid platform l) (hmem : record ∈ l.records) :
    recordBytes record <= l.reservedSnapshotBytes := by
  have hsum : recordBytes record <= (l.records.map recordBytes).sum :=
    single_le_sum (by simp) _ (mem_map_of_mem hmem)
  rw [hl.reserved]
  exact hsum.trans (Nat.le_add_left _ _)

/-!
## One record changes
-/

structure Updates (platform : Platform) (l : Ledger) (i : Nat) (old new : Record)
    (next : Ledger) : Prop where
  entry : l.records[i]? = some old
  later : Later old new
  ok : RecordOk platform new
  bytes : next.reservedSnapshotBytes + recordBytes old = l.reservedSnapshotBytes + recordBytes new
  fits : next.reservedSnapshotBytes <= maximumSnapshotBytes
  result : next = { l with
    records := l.records.set i new
    reservedSnapshotBytes := next.reservedSnapshotBytes }

section

variable (hl : Valid platform l)
include hl

theorem valid_updates {old new : Record} (h : Updates platform l i old new next) :
    Valid platform next := by
  have hsum := sum_map_set (f := recordBytes) new h.entry
  have hids : ((l.records.set i new).map Record.idBytes).Nodup :=
    nodup_map_set hl.ids h.entry (idBytes_of_intent h.later.intent)
  have hresv := hl.reserved
  have hbytes := h.bytes
  rw [h.result]
  exact
    { capacity := hl.capacity
      bounded := by rw [length_set]; exact hl.bounded
      ceilings := hl.ceilings
      ids := hids
      each := forall_mem_set hl.each h.ok
      reserved := by
        show next.reservedSnapshotBytes =
          snapshotOverhead + ((l.records.set i new).map recordBytes).sum
        omega
      fits := h.fits }

theorem complete_updates {bytes : Bytes} (h : l.complete i bytes = .ok next) :
    exists old, old.state = .started ∧
      Updates platform l i old (completedRecord old bytes) next := by
  simp only [complete, ok_iff, bool_iff, not_lt] at h
  rcases h with ⟨old, hentry, _, hlen, _, hstate, hnext⟩
  have hold := hl.each old (mem_of_getElem? hentry)
  have hbytes := recordBytes_completed bytes hstate
  have hle := recordBytes_le_reserved hl (mem_of_getElem? hentry)
  have hreservation := stringReservation_le bytes
  have hfits := hl.fits
  refine ⟨old, hstate, hentry, ⟨rfl, fun hnot => absurd hstate hnot⟩,
    recordOk_completed platform hold hstate hlen, ?_, ?_, ?_⟩
  · rw [<- hnext]
    show l.reservedSnapshotBytes -
      (maxResultBytes * 6 + 2 - stringReservation bytes) + recordBytes old =
        l.reservedSnapshotBytes + recordBytes (completedRecord old bytes)
    omega
  · rw [<- hnext]
    exact (Nat.sub_le _ _).trans hfits
  · rw [<- hnext]

theorem markIndeterminate_updates (h : l.markIndeterminate i = .ok next) :
    exists old, old.state = .started ∧
      Updates platform l i old { old with state := .indeterminate } next := by
  simp only [markIndeterminate, ok_iff, bool_iff] at h
  rcases h with ⟨old, hentry, _, hstate, hnext⟩
  have hold := hl.each old (mem_of_getElem? hentry)
  refine ⟨old, hstate, hentry, ⟨rfl, fun hnot => absurd hstate hnot⟩,
    recordOk_indeterminate platform hold hstate, ?_, ?_, ?_⟩
  · rw [recordBytes_indeterminate hstate, <- hnext]
  · rw [<- hnext]
    exact hl.fits
  · rw [<- hnext]

/-- Every operation on a measurement rewrites one slot of one record. -/
theorem updates_withSlot {old : Record} {slot : Slot} {reserved : Nat}
    (hentry : l.records[i]? = some old) (hslot : SlotOk platform measured old slot)
    (hbytes : reserved + slotBytes measured (old.slot measured) =
      l.reservedSnapshotBytes + slotBytes measured slot) (hfits : reserved <= maximumSnapshotBytes)
    : Updates platform l i old (old.withSlot measured slot)
      { l with
        records := l.records.set i (old.withSlot measured slot)
        reservedSnapshotBytes := reserved } := by
  have hold := hl.each old (mem_of_getElem? hentry)
  have hrecord := recordBytes_withSlot old measured slot
  refine ⟨hentry, later_withSlot old measured slot,
    recordOk_withSlot platform hold hslot, ?_, hfits, rfl⟩
  show reserved + recordBytes old =
    l.reservedSnapshotBytes + recordBytes (old.withSlot measured slot)
  omega

theorem tryReserveWitness_updates {granted : Bool}
    (h : l.tryReserveWitness platform measured i = .ok (next, granted)) :
    next = l ∨ exists old slot, Updates platform l i old (old.withSlot measured slot) next := by
  simp only [tryReserveWitness, ok_iff, bool_iff, isSome_eq_false]
    at h
  rcases h with ⟨old, hentry, anchor, hanchor, _, ⟨_, hnone⟩, h⟩
  split at h
  · exact Or.inl (Prod.mk.inj (Except.ok.inj h)).left.symm
  · rename_i hfree
    split at h
    · exact Or.inl (Prod.mk.inj (Except.ok.inj h)).left.symm
    · rename_i hroom
      right
      have hanchorable := (anchorOf_isOk platform).mp ⟨anchor, hanchor⟩
      have hceiling := ceiling_of_valid hl measured
      have hmaximum := nullBytes_le_maximum measured
      have hfits := hl.fits
      have hbefore : slotBytes measured (old.slot measured) = nullBytes := by
        simp [slotBytes, hfree, hnone]
      have hafter : slotBytes measured (old.slot measured).reserve =
          maximumSerializedBytes measured := by
        simp [slotBytes, Slot.reserve]
      rw [<- (Prod.mk.inj (Except.ok.inj h)).left]
      refine ⟨old, _, updates_withSlot hl hentry ?_ ?_ ?_⟩
      · constructor
        · intro _
          exact ⟨hanchorable, hnone⟩
        · intro fact hfact
          have hsome : (old.slot measured).fact = some fact := hfact
          rw [hnone] at hsome
          cases hsome
      · omega
      · rw [remainingSnapshotBytes] at hroom
        omega

theorem abandonWitness_updates (h : l.abandonWitness measured i = .ok next) :
    exists old slot, Updates platform l i old (old.withSlot measured slot) next := by
  simp only [abandonWitness, ok_iff] at h
  rcases h with ⟨old, hentry, _, _, _, hbefore, _, hafter, rfl⟩
  have hmem := mem_of_getElem? hentry
  have hold := hl.each old hmem
  have hslot := slotOk_release platform (hold.slots measured)
  have hreleased := slotBytes_release (hold.slots measured)
  have hrecord := recordBytes_withSlot old measured (old.slot measured).release
  rw [reservation_of_valid hl hold] at hbefore
  rw [reservation_of_valid hl (recordOk_withSlot platform hold hslot)] at hafter
  cases hbefore
  cases hafter
  have hle := recordBytes_le_reserved hl hmem
  have hfits := hl.fits
  refine ⟨old, _, updates_withSlot hl hentry hslot ?_ ?_⟩
  all_goals omega

theorem setWitnessOnce_updates {fact : Witness} {currentRevision : Nat}
    (h : l.setWitnessOnce platform measured i fact currentRevision = .ok next) :
    exists old slot, Updates platform l i old (old.withSlot measured slot) next := by
  simp only [setWitnessOnce, ok_iff, bool_iff] at h
  rcases h with ⟨old, hentry, _, _, _, _, _, hvalid, _, hbefore, _, hafter, _, _, rfl⟩
  have hmem := mem_of_getElem? hentry
  have hold := hl.each old hmem
  have hmatches := ((validateForRecord_eq_ok platform).mp hvalid).left
  rw [reservation_of_valid hl hold] at hbefore
  cases hbefore
  have hfact := length_of_reservation hl hafter
  have hslot : SlotOk platform measured old { reserved := false, fact := some fact } := by
    constructor
    · nofun
    · intro _ hstored
      cases hstored
      exact ⟨hmatches, hfact⟩
  rw [reservation_of_valid hl (recordOk_withSlot platform hold hslot)] at hafter
  cases hafter
  have hrecord := recordBytes_withSlot old measured
    { reserved := false, fact := some fact }
  have hreservedLe := recordBytes_le_reserved hl hmem
  have hfits := hl.fits
  refine ⟨old, _, updates_withSlot hl hentry hslot ?_ ?_⟩
  all_goals omega

end

/-!
## A new record
-/

/-- What an execution of a new operation id checks and appends. -/
structure Starts (l : Ledger) (id method : Bytes) (fingerprint : Digest)
    (revision : Nat) (kind : Kind) (next : Ledger) : Prop where
  idOk : validId id = true
  methodOk : validMethod method = true
  unknown : recordAt Record.idBytes l.records id = none
  room : l.records.length < l.capacity
  reserves : exists bytes,
    l.reservation (newRecord id method fingerprint revision kind) = .ok bytes ∧
    bytes <= l.remainingSnapshotBytes ∧
    next = { l with
      records := l.records ++ [newRecord id method fingerprint revision kind]
      reservedSnapshotBytes := l.reservedSnapshotBytes + bytes }

/-- Everything a successful `begin` can do. -/
theorem begin_inv {id method : Bytes} {fingerprint : Digest}
    {expectedRevision : Option Nat} {currentRevision : Nat} {kind : Kind} {outcome : Begin}
    (h : l.begin id method fingerprint expectedRevision currentRevision kind =
      .ok (next, outcome)) :
    exists revision, expectedRevision = some revision ∧
      ((exists record, recordAt Record.idBytes l.records id = some record ∧
          sameIntent record method fingerprint revision kind = true ∧
          next = l ∧ outcome = answer record) ∨
        (revision = currentRevision ∧ outcome = .execute l.records.length ∧
          Starts l id method fingerprint revision kind next)) := by
  simp only [begin, ok_iff, bool_iff] at h
  rcases h with ⟨_, hid, _, hmethod, revision, hrev, h⟩
  refine ⟨revision, hrev, ?_⟩
  cases hfound : recordAt Record.idBytes l.records id with
  | some record =>
    simp only [hfound, ok_iff, bool_iff, Prod.mk.injEq] at h
    rcases h with ⟨_, hsame, hnext, houtcome⟩
    exact Or.inl ⟨record, rfl, hsame, hnext.symm, houtcome.symm⟩
  | none =>
    simp only [hfound, ok_iff, bool_iff, not_lt, Prod.mk.injEq, remainingCapacity] at h
    rcases h with ⟨_, hcur, bytes, hbytes, _, ⟨_, hfits⟩, hnext, houtcome⟩
    exact Or.inr ⟨hcur, houtcome.symm, hid, hmethod, hfound, by omega,
      bytes, hbytes, hfits, hnext.symm⟩

theorem valid_starts {id method : Bytes} {fingerprint : Digest} {revision : Nat}
    {kind : Kind} (hl : Valid platform l)
    (h : Starts l id method fingerprint revision kind next) : Valid platform next := by
  rcases h.reserves with ⟨_, hbytes, hfits, rfl⟩
  have hnew := recordOk_new platform fingerprint revision kind h.idOk h.methodOk
  rw [reservation_of_valid hl hnew] at hbytes
  cases hbytes
  have hresv := hl.reserved
  have hmaximum := hl.fits
  rw [remainingSnapshotBytes] at hfits
  exact
    { capacity := hl.capacity
      bounded := length_concat_le h.room
      ceilings := hl.ceilings
      ids := by
        apply nodup_map_concat hl.ids
        rw [newRecord_idBytes]
        exact recordAt_eq_none.mp h.unknown
      each := forall_mem_concat hl.each hnew
      reserved := by
        simp only [map_append, sum_append, map_cons, map_nil, sum_cons, sum_nil]
        omega
      fits := by
        show l.reservedSnapshotBytes + _ <= maximumSnapshotBytes
        omega }

/-!
## Restart
-/

theorem valid_recover (hl : Valid platform l) : Valid platform l.recoverAfterRestart := by
  have hreleased : forall record, l.releasedBytes record =
      heldBytes .nativeRemoval record.nativeRemovalWitness +
        heldBytes .lifecycle record.lifecycleWitness := by
    intro record
    rw [releasedBytes, hl.ceilings.left, hl.ceilings.right]
    rfl
  have hsum : ((l.records.map recoverRecord).map recordBytes).sum +
      (l.records.map l.releasedBytes).sum = (l.records.map recordBytes).sum := by
    have heach := hl.each
    generalize l.records = records at heach
    induction records with
    | nil => rfl
    | cons record _ ih =>
      have hrest := ih (fun x hx => heach x (by simp [hx]))
      have hrecord := recordBytes_recover (heach record (by simp))
      have hbytes := hreleased record
      simp only [map_cons, sum_cons]
      omega
  have hresv := hl.reserved
  have hfits := hl.fits
  exact
    { capacity := hl.capacity
      bounded := by
        show (l.records.map recoverRecord).length <= l.capacity
        rw [length_map]
        exact hl.bounded
      ceilings := hl.ceilings
      ids := by
        show ((l.records.map recoverRecord).map Record.idBytes).Nodup
        rw [map_map]
        exact hl.ids
      each := by
        intro record hrecord
        rcases mem_map.mp hrecord with ⟨old, hold, rfl⟩
        exact recordOk_recover platform (hl.each old hold)
      reserved := by
        show l.reservedSnapshotBytes - (l.records.map l.releasedBytes).sum =
          snapshotOverhead + ((l.records.map recoverRecord).map recordBytes).sum
        omega
      fits := by
        show l.reservedSnapshotBytes - (l.records.map l.releasedBytes).sum <= maximumSnapshotBytes
        omega }

end Ledger

end Omux.Mutation
