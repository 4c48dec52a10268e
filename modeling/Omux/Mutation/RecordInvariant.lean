import Omux.Library.Schema
import Omux.Mutation.Ledger

/-!
# What holds of one mutation record

A reserved measurement belongs to a record that can anchor it; a stored one
matches the completed result.
-/

namespace Omux.Mutation

open Library Ledger

/-!
## Reserved bytes
-/

theorem decimalWidthFrom_le {fuel value digits : Nat} (hdigits : 0 < digits)
    (hvalue : value < 10 ^ digits) : decimalWidthFrom fuel value <= digits := by
  induction fuel generalizing value digits with
  | zero => exact hdigits
  | succ fuel ih =>
    unfold decimalWidthFrom
    split
    · cases digits with
      | zero => cases hdigits
      | succ digits =>
        have hpositive : 0 < digits := by
          apply Nat.pos_of_ne_zero
          intro hzero
          rw [hzero] at hvalue
          omega
        have hquotient : value / 10 < 10 ^ digits := by omega
        exact Nat.succ_le_succ (ih hpositive hquotient)
    · exact hdigits

theorem decimalWidthFrom_le_fuel (fuel value : Nat) : decimalWidthFrom fuel value <= fuel + 1 := by
  induction fuel generalizing value with
  | zero => exact Nat.le_refl 1
  | succ fuel ih =>
    unfold decimalWidthFrom
    split
    · exact Nat.succ_le_succ (ih _)
    · exact Nat.le_add_left 1 _

theorem decimalWidth_le (value : Nat) : decimalWidth value <= 20 :=
  decimalWidthFrom_le_fuel 19 value

theorem decimalWidth_byte_le (byte : UInt8) : decimalWidth byte.toNat <= 3 := by
  have hbyte := byte.toNat_lt
  exact decimalWidthFrom_le (by decide) (by omega)

theorem stringReservation_le (value : Bytes) : stringReservation value <= 2 + 6 * value.length :=
  reservedLength_le decimalWidth_byte_le value

theorem nullBytes_le_json (measured : Measured) (fact : Witness) :
    nullBytes <= (fact.json measured).length := by
  refine Nat.le_trans ?_ (Nat.le_of_lt (length_lt_jsonObject _))
  show 4 <= 15
  decide

theorem nullBytes_le_maximum (measured : Measured) :
    nullBytes <= maximumSerializedBytes measured := by
  let provenance := maximumProvenance .unknown .unknown .unknown .unknown
  have hlegal : provenance ∈ maximumProvenances.filter Provenance.isValid :=
    List.mem_filter.mpr ⟨by decide, by decide⟩
  refine Nat.le_trans (nullBytes_le_json measured
    (maximumWitness measured provenance { missing := some .unobserved }))
    (le_foldl_max id 0 (List.mem_flatMap.mpr ⟨provenance, hlegal, ?_⟩))
  exact List.mem_map.mpr ⟨{ missing := some .unobserved }, by decide, rfl⟩

/-!
## Anchors
-/

variable {record : Record}

theorem anchorable_eq_true {measured : Measured} :
    anchorable measured record = true ↔ measured.admitsId record = true ∧
        (record.idLen ≠ 0 ∧ record.idLen <= 64 ∧ record.methodLen = measured.method.length ∧
          record.methodBytes = measured.method ∧ record.kind = .external ∧ record.resultLen =
          record.result.length ∧ record.resultLen <= 1024) ∧
        record.idBytes.all isIdByte = true ∧
        (record.id.drop record.idLen).all (fun byte => byte == 0) = true ∧
        (record.method.drop record.methodLen).all (fun byte => byte == 0) = true ∧
        (record.state = .completed ∨ record.resultLen = 0) := by
  simp [anchorable, and_assoc]

/-- A record anchors measurements of one kind only: the methods differ. -/
theorem anchorable_unique {a b : Measured} (ha : anchorable a record = true)
    (hb : anchorable b record = true) : a = b := by
  have hmethod : a.method = b.method := by
    rw [<- (anchorable_eq_true.mp ha).right.left.right.right.right.left,
      <- (anchorable_eq_true.mp hb).right.left.right.right.right.left]
  cases a with
  | lifecycle =>
    cases b with
    | lifecycle => rfl
    | nativeRemoval =>
      revert hmethod
      decide
  | nativeRemoval =>
    cases b with
    | lifecycle =>
      revert hmethod
      decide
    | nativeRemoval => rfl

section Platform

variable (platform : Platform)

variable {measured : Measured} {slot : Slot} {fact : Witness}

theorem anchorOf_isOk : (exists anchor, anchorOf platform measured record = .ok anchor) ↔
      anchorable measured record = true := by
  unfold anchorOf
  cases anchorable measured record with
  | true => simp [bind_ok]
  | false => simp [bind_error]

/-- The measurement belongs to the record and its completed result. -/
structure Witness.Matches (fact : Witness) (measured : Measured)
    (record : Record) : Prop where
  valid : fact.validate = .ok ()
  anchor : anchorOf platform measured record = .ok fact.anchor
  terminal : requireTerminal platform measured record = .ok fact.outcome
  result : platform.sha256 record.result = fact.resultSha256

theorem validateForRecord_eq_ok {currentRevision : Nat} :
    fact.validateForRecord platform measured record currentRevision = .ok () ↔
      fact.Matches platform measured record ∧
        fact.outcomeRevision <= currentRevision := by
  simp only [Witness.validateForRecord, ok_iff, bool_iff, Nat.not_lt]
  constructor
  · intro h
    rcases h with ⟨_, hvalid, original, hanchor, _, ⟨⟨hdigest, hrev⟩, hle⟩,
      _, hterm, _, rfl, hresult⟩
    have horiginal : original = fact.anchor := by
      cases hfact : fact.anchor
      rw [hfact] at hdigest hrev
      cases hdigest
      cases hrev
      rfl
    rw [horiginal] at hanchor
    exact ⟨⟨hvalid, hanchor, hterm, hresult⟩, hle⟩
  · intro h
    rcases h with ⟨hmatches, hle⟩
    exact ⟨(), hmatches.valid, fact.anchor, hmatches.anchor, (), ⟨⟨rfl, rfl⟩, hle⟩,
      fact.outcome, hmatches.terminal, (), rfl, hmatches.result⟩

theorem anchorable_of_matches (h : fact.Matches platform measured record) :
    anchorable measured record = true :=
  (anchorOf_isOk platform).mp ⟨fact.anchor, h.anchor⟩

theorem completed_of_matches (h : fact.Matches platform measured record) :
    record.state = .completed := by
  have hterm := h.terminal
  simp only [requireTerminal, ok_iff, bool_iff] at hterm
  rcases hterm with ⟨_, hstate, _⟩
  exact hstate

/-!
## Well-formed records
-/

structure SlotOk (measured : Measured) (record : Record) (slot : Slot) : Prop where
  reserved : slot.reserved = true ->
    anchorable measured record = true ∧ slot.fact = none
  fact : forall fact, slot.fact = some fact ->
    fact.Matches platform measured record ∧
      (fact.json measured).length <= maximumSerializedBytes measured

structure RecordOk (record : Record) : Prop where
  arrays : record.id.length = maxIdBytes ∧ record.method.length = maxMethodBytes
  id : record.idLen <= maxIdBytes ∧ validId record.idBytes = true
  method : record.methodLen <= maxMethodBytes ∧ validMethod record.methodBytes = true
  result : record.resultLen = record.result.length ∧
    record.resultLen <= maxResultBytes
  unfinished : record.state ≠ .completed -> record.resultLen = 0
  slots : forall measured, SlotOk platform measured record (record.slot measured)

/-- Bytes of a measurement under the legal ceiling. -/
def slotBytes (measured : Measured) (slot : Slot) : Nat :=
  if slot.reserved then maximumSerializedBytes measured
  else
    match slot.fact with
    | some fact => (fact.json measured).length
    | none => nullBytes

def recordBytes (record : Record) : Nat :=
  recordMetadata record + slotBytes .lifecycle record.lifecycleWitness +
    slotBytes .nativeRemoval record.nativeRemovalWitness + resultReservation record

theorem slotReservation_of_ok (h : SlotOk platform measured record slot) :
    slotReservation measured (maximumSerializedBytes measured) slot =
      .ok (slotBytes measured slot) := by
  unfold slotReservation slotBytes
  cases slot.reserved with
  | true => rfl
  | false =>
    cases hfact : slot.fact with
    | none => rfl
    | some fact => simp [countWithin, (h.fact fact hfact).right]

theorem recordReservation_of_ok (h : RecordOk platform record) :
    recordReservation record (maximumSerializedBytes .lifecycle)
      (maximumSerializedBytes .nativeRemoval) = .ok (recordBytes record) := by
  have hlifecycle := slotReservation_of_ok platform (h.slots .lifecycle)
  have hnative := slotReservation_of_ok platform (h.slots .nativeRemoval)
  simp only [Record.slot] at hlifecycle hnative
  simp [recordReservation, hlifecycle, hnative, bind_ok, recordBytes]

theorem recordMetadata_le (h : RecordOk platform record) :
    recordMetadata record <= maximumRecordMetadataBytes := by
  have hfixed : recordFixedBytes = 269 := by decide +kernel
  have hid := stringReservation_le record.id
  have hmethod := stringReservation_le record.method
  have hprint := stringReservation_le record.fingerprint.toList
  have hidWidth := decimalWidth_le record.idLen
  have hmethodWidth := decimalWidth_le record.methodLen
  rw [h.arrays.left, maxIdBytes] at hid
  rw [h.arrays.right, maxMethodBytes] at hmethod
  rw [Vector.length_toList] at hprint
  rw [recordMetadata, maximumRecordMetadataBytes, arrayReservation,
    arrayReservation, arrayReservation]
  omega

theorem fact_none_of_unfinished (h : RecordOk platform record)
    (hstate : record.state ≠ .completed) (measured : Measured) :
    (record.slot measured).fact = none := by
  cases hfact : (record.slot measured).fact with
  | none => rfl
  | some fact =>
    exact absurd (completed_of_matches platform ((h.slots measured).fact fact hfact).left) hstate

theorem padded_length {length : Nat} {value : Bytes} (h : value.length <= length) :
    (padded length value).length = length := by
  rw [padded, List.length_append, List.length_replicate]
  omega

theorem newRecord_idBytes (id method : Bytes) (fingerprint : Digest)
    (revision : Nat) (kind : Kind) :
    (newRecord id method fingerprint revision kind).idBytes = id := by
  simp [newRecord, Record.idBytes, padded]

theorem newRecord_methodBytes (id method : Bytes) (fingerprint : Digest)
    (revision : Nat) (kind : Kind) :
    (newRecord id method fingerprint revision kind).methodBytes = method := by
  simp [newRecord, Record.methodBytes, padded]

theorem recordOk_new {id method : Bytes} (fingerprint : Digest) (revision : Nat)
    (kind : Kind) (hid : validId id = true) (hmethod : validMethod method = true) :
    RecordOk platform (newRecord id method fingerprint revision kind) := by
  have hidBytes := newRecord_idBytes id method fingerprint revision kind
  have hmethodBytes := newRecord_methodBytes id method fingerprint revision kind
  have hidLen : id.length <= maxIdBytes := by
    simp only [validId, bool_iff] at hid
    exact hid.left.right
  have hmethodLen : method.length <= maxMethodBytes := by
    simp only [validMethod, bool_iff] at hmethod
    exact hmethod.left.right
  refine ⟨⟨padded_length hidLen, padded_length hmethodLen⟩, ⟨hidLen, by rw [hidBytes]; exact hid⟩,
    ⟨hmethodLen, by rw [hmethodBytes]; exact hmethod⟩, ⟨rfl, Nat.zero_le _⟩, fun _ => rfl, ?_⟩
  · intro measured
    cases measured with
    | lifecycle | nativeRemoval =>
      constructor
      · nofun
      · intro _ h
        cases h

/-!
## The later value of a record
-/

/-- What an operation id stands for. -/
structure Intent where
  id : Bytes
  idLen : Nat
  method : Bytes
  methodLen : Nat
  fingerprint : Digest
  expectedRevision : Nat
  kind : Kind

def Record.intent (record : Record) : Intent :=
  { id := record.id, idLen := record.idLen
    method := record.method, methodLen := record.methodLen
    fingerprint := record.fingerprint
    expectedRevision := record.expectedRevision, kind := record.kind }

structure Later (old new : Record) : Prop where
  intent : new.intent = old.intent
  settled : old.state ≠ .started ->
    new.state = old.state ∧ new.result = old.result ∧ new.resultLen = old.resultLen

theorem later_refl (record : Record) : Later record record :=
  ⟨rfl, fun _ => ⟨rfl, rfl, rfl⟩⟩

theorem later_trans {a b c : Record} (hab : Later a b) (hbc : Later b c) : Later a c := by
  refine ⟨by rw [hbc.intent, hab.intent], ?_⟩
  intro hstate
  rcases hab.settled hstate with ⟨hb, hresult, hlen⟩
  rcases hbc.settled (by rw [hb]; exact hstate) with ⟨hc, hresult', hlen'⟩
  exact ⟨by rw [hc, hb], by rw [hresult', hresult], by rw [hlen', hlen]⟩

theorem idBytes_of_intent {old new : Record} (h : new.intent = old.intent) :
    new.idBytes = old.idBytes := by
  have hid := congrArg Intent.id h
  have hlen := congrArg Intent.idLen h
  simp only [Record.intent] at hid hlen
  rw [Record.idBytes, Record.idBytes, hid, hlen]

theorem later_withSlot (record : Record) (measured : Measured) (slot : Slot) :
    Later record (record.withSlot measured slot) := by
  cases measured with
  | lifecycle | nativeRemoval => exact ⟨rfl, fun _ => ⟨rfl, rfl, rfl⟩⟩

/-!
## Keeping records well formed
-/

theorem matches_withSlot (changed : Measured) (slot : Slot)
    (h : fact.Matches platform measured record) :
    fact.Matches platform measured (record.withSlot changed slot) := by
  cases changed with
  | lifecycle | nativeRemoval => exact { h with }

theorem anchorable_withSlot (measured changed : Measured) (record : Record) (slot : Slot) :
    anchorable measured (record.withSlot changed slot) = anchorable measured record := by
  cases changed with
  | lifecycle | nativeRemoval => rfl

theorem slotOk_withSlot (changed : Measured) (new : Slot)
    (h : SlotOk platform measured record slot) :
    SlotOk platform measured (record.withSlot changed new) slot := by
  constructor
  · rw [anchorable_withSlot]
    exact h.reserved
  · intro fact hfact
    rcases h.fact fact hfact with ⟨hmatches, hlength⟩
    exact ⟨matches_withSlot platform changed new hmatches, hlength⟩

theorem recordOk_withSlot (h : RecordOk platform record)
    (hslot : SlotOk platform measured record slot) :
    RecordOk platform (record.withSlot measured slot) := by
  have hslots : forall other, SlotOk platform other (record.withSlot measured slot)
      ((record.withSlot measured slot).slot other) := by
    intro other
    have hother := slotOk_withSlot platform measured slot (h.slots other)
    have hself := slotOk_withSlot platform measured slot hslot
    cases measured with
    | lifecycle =>
      cases other with
      | lifecycle => exact hself
      | nativeRemoval => exact hother
    | nativeRemoval =>
      cases other with
      | lifecycle => exact hother
      | nativeRemoval => exact hself
  cases measured with
  | lifecycle | nativeRemoval => exact { h with slots := hslots }

theorem slotOk_of_unfinished {old new : Record} (hnone : slot.fact = none)
    (hanchor : anchorable measured old = true -> anchorable measured new = true)
    (h : SlotOk platform measured old slot) : SlotOk platform measured new slot := by
  constructor
  · intro hresv
    exact ⟨hanchor (h.reserved hresv).left, hnone⟩
  · intro _
    rw [hnone]
    nofun

theorem anchorable_completed {bytes : Bytes} (hlen : bytes.length <= maxResultBytes)
    (h : anchorable measured record = true) :
    anchorable measured (completedRecord record bytes) = true := by
  rcases anchorable_eq_true.mp h with ⟨hadmits, hfields, hid, hidZero, hmethodZero, _⟩
  rcases hfields with ⟨hzero, hidLen, hmethodLen, hmethod, hkind, _, _⟩
  apply anchorable_eq_true.mpr
  refine ⟨?_, ⟨hzero, hidLen, hmethodLen, hmethod, hkind, rfl, hlen⟩, hid, hidZero,
    hmethodZero, .inl rfl⟩
  cases measured with
  | lifecycle => rfl
  | nativeRemoval => exact hadmits

theorem recordOk_completed {bytes : Bytes} (h : RecordOk platform record)
    (hstate : record.state = .started) (hlen : bytes.length <= maxResultBytes) :
    RecordOk platform (completedRecord record bytes) := by
  refine ⟨h.arrays, h.id, h.method, ⟨rfl, hlen⟩, fun hnot => absurd rfl hnot, ?_⟩
  intro measured
  have hnone := fact_none_of_unfinished platform h (by simp [hstate]) measured
  exact slotOk_of_unfinished platform hnone (anchorable_completed hlen) (h.slots measured)

theorem recordOk_indeterminate (h : RecordOk platform record) (hstate : record.state = .started) :
    RecordOk platform { record with state := .indeterminate } := by
  have hzero : record.resultLen = 0 := h.unfinished (by simp [hstate])
  refine ⟨h.arrays, h.id, h.method, h.result, fun _ => hzero, ?_⟩
  intro measured
  have hnone := fact_none_of_unfinished platform h (by simp [hstate]) measured
  have hanchor : anchorable measured record = true ->
      anchorable measured { record with state := .indeterminate } = true := by
    intro hold
    rcases anchorable_eq_true.mp hold with ⟨hadmits, hfields, hid, hidZero, hmethodZero, _⟩
    apply anchorable_eq_true.mpr
    refine ⟨?_, hfields, hid, hidZero, hmethodZero, .inr hzero⟩
    cases measured with
    | lifecycle => rfl
    | nativeRemoval => exact hadmits
  have hslot := slotOk_of_unfinished platform hnone hanchor (h.slots measured)
  cases measured with
  | lifecycle | nativeRemoval => exact hslot

theorem slotOk_release (h : SlotOk platform measured record slot) :
    SlotOk platform measured record slot.release := by
  constructor
  · nofun
  · exact h.fact

/-- Recovery is a state change followed by two released reservations. -/
theorem recoverRecord_eq (record : Record) : recoverRecord record = (({ record with
        state := if record.state == .started then .indeterminate
          else record.state } : Record).withSlot .lifecycle
            record.lifecycleWitness.release).withSlot
              .nativeRemoval record.nativeRemovalWitness.release := rfl

theorem recordOk_recover (h : RecordOk platform record) :
    RecordOk platform (recoverRecord record) := by
  have hstate : RecordOk platform
      { record with
        state := if record.state == .started then .indeterminate
          else record.state } := by
    by_cases hstart : record.state = .started
    · have hnext := recordOk_indeterminate platform h hstart
      simpa [hstart] using hnext
    · simpa [hstart] using h
  rw [recoverRecord_eq]
  apply recordOk_withSlot
  · apply recordOk_withSlot platform hstate
    exact slotOk_release platform (hstate.slots .lifecycle)
  · apply slotOk_withSlot
    exact slotOk_release platform (hstate.slots .nativeRemoval)

theorem later_recover (record : Record) : Later record (recoverRecord record) := by
  refine ⟨rfl, ?_⟩
  intro hstate
  simp [recoverRecord, hstate]

end Platform

/-!
## Bytes after a change
-/

theorem recordBytes_withSlot (record : Record) (measured : Measured) (slot : Slot) :
    recordBytes (record.withSlot measured slot) + slotBytes measured (record.slot measured) =
        recordBytes record + slotBytes measured slot := by
  cases measured with
  | lifecycle =>
    show recordMetadata record + slotBytes .lifecycle slot +
      slotBytes .nativeRemoval record.nativeRemovalWitness +
      resultReservation record + slotBytes .lifecycle record.lifecycleWitness =
        recordBytes record + slotBytes .lifecycle slot
    unfold recordBytes
    omega
  | nativeRemoval =>
    show recordMetadata record + slotBytes .lifecycle record.lifecycleWitness +
      slotBytes .nativeRemoval slot + resultReservation record +
      slotBytes .nativeRemoval record.nativeRemovalWitness =
        recordBytes record + slotBytes .nativeRemoval slot
    unfold recordBytes
    omega

theorem recordBytes_completed (bytes : Bytes) (hstate : record.state = .started) :
    recordBytes (completedRecord record bytes) + (maxResultBytes * 6 + 2) =
      recordBytes record + stringReservation bytes := by
  have hold : resultReservation record = maxResultBytes * 6 + 2 := by
    simp [resultReservation, hstate]
  show recordMetadata record + slotBytes .lifecycle record.lifecycleWitness +
    slotBytes .nativeRemoval record.nativeRemovalWitness + stringReservation bytes +
      (maxResultBytes * 6 + 2) = recordBytes record + stringReservation bytes
  rw [recordBytes]
  omega

theorem recordBytes_indeterminate (hstate : record.state = .started) :
    recordBytes { record with state := .indeterminate } = recordBytes record := by
  have hold : resultReservation record = maxResultBytes * 6 + 2 := by
    simp [resultReservation, hstate]
  rw [recordBytes, recordBytes, hold]
  rfl

theorem recordBytes_new_le (platform : Platform) {id method : Bytes}
    (fingerprint : Digest) (revision : Nat) (kind : Kind)
    (hid : validId id = true) (hmethod : validMethod method = true) :
    recordBytes (newRecord id method fingerprint revision kind) <=
      maximumRecordSnapshotBytes := by
  have hmeta := recordMetadata_le platform
    (recordOk_new platform fingerprint revision kind hid hmethod)
  have hbytes : recordBytes (newRecord id method fingerprint revision kind) =
      recordMetadata (newRecord id method fingerprint revision kind) +
        nullBytes + nullBytes + (maxResultBytes * 6 + 2) := rfl
  rw [hbytes, maximumRecordSnapshotBytes, nullBytes]
  omega

/-- Bytes that a slot gives up when its reservation ends. -/
def heldBytes (measured : Measured) (slot : Slot) : Nat :=
  if slot.reserved then maximumSerializedBytes measured - nullBytes else 0

theorem slotBytes_release {platform : Platform} {measured : Measured} {slot : Slot}
    (h : SlotOk platform measured record slot) :
    slotBytes measured slot.release + heldBytes measured slot = slotBytes measured slot := by
  have hmaximum := nullBytes_le_maximum measured
  cases hresv : slot.reserved with
  | false => simp [slotBytes, heldBytes, Slot.release, hresv]
  | true =>
    simp only [slotBytes, heldBytes, Slot.release, hresv, (h.reserved hresv).right, if_true]
    simp only [Bool.false_eq_true, if_false]
    omega

theorem recordBytes_recover {platform : Platform} (h : RecordOk platform record) :
    recordBytes (recoverRecord record) +
      (heldBytes .nativeRemoval record.nativeRemovalWitness +
        heldBytes .lifecycle record.lifecycleWitness) = recordBytes record := by
  have hlifecycle := slotBytes_release (h.slots .lifecycle)
  have hnative := slotBytes_release (h.slots .nativeRemoval)
  have hresult : resultReservation (recoverRecord record) = resultReservation record := by
    cases hstate : record.state <;> simp [resultReservation, recoverRecord, hstate]
  have hmeta : recordMetadata (recoverRecord record) = recordMetadata record := rfl
  simp only [Record.slot] at hlifecycle hnative
  rw [recordBytes, recordBytes, hresult, hmeta]
  simp only [recoverRecord]
  omega

end Omux.Mutation
