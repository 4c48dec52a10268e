import Omux.Library.Binary
import Omux.Library.Fallible
import Mathlib.Algebra.Order.BigOperators.Group.List

/-!
# The integration registry

The registry is the write-ahead record of the native configuration.  One record is stored,
sealed, with fixed-width numbers followed by five variable fields.
-/

namespace Omux.Setup

open Library

inductive SetupError where
  | alreadyInstalled | capabilityConflict | capabilityGenerationMismatch | configTooLarge
  | corruptIntegration | integrationConflict | integrationModified | integrationPathConflict
  | invalidAdapterCapability | invalidHelper | notInstalled | resultTooLarge | unsafeConfigFile
  | unsafePath
  -- a deadline, a cancellation or a system call that failed
  | system
deriving DecidableEq

abbrev Result := Except SetupError

abbrev Path := Bytes

abbrev Capability := Vector UInt8 64

abbrev Transaction := Vector UInt8 32

def maximumConfig : Nat := 1024 * 1024
def maximumRegistry : Nat := 4 * maximumConfig + 8192
def recordHeader : Nat := 4 + 3 * 4 + 64 + 32 + 5 * 4

inductive Phase where
  | pendingInstall | installed | pendingRemove | removed
deriving DecidableEq

def Phase.pending : Phase -> Bool
  | .pendingInstall | .pendingRemove => true
  | .installed | .removed => false

structure Record where
  phase : Phase
  originalExisted : Bool
  beforeExisted : Bool
  afterExisted : Bool
  originalMode : Nat
  beforeMode : Nat
  afterMode : Nat
  capability : Capability
  transaction : Transaction
  configPath : Path
  original : Bytes
  installed : Bytes
  before : Bytes
  after : Bytes
deriving DecidableEq

def validateAbsolute (path : Path) : Result Unit := do
  failIf (path.length < 2 || path.head? != some 0x2F || path.getLast? == some 0x2F ||
    path.contains 0) .unsafePath
  checkAll (fun part => failIf (part.isEmpty || part == [0x2E] || part == [0x2E, 0x2E])
    .unsafePath) ((path.drop 1).splitOn 0x2F)

/-!
## Encoding
-/

def Phase.toByte : Phase -> UInt8
  | .pendingInstall => 0
  | .installed => 1
  | .pendingRemove => 2
  | .removed => 3

def Phase.ofByte (byte : UInt8) : Option Phase :=
  if byte = 0 then some .pendingInstall
  else if byte = 1 then some .installed
  else if byte = 2 then some .pendingRemove
  else if byte = 3 then some .removed
  else none

def boolByte (value : Bool) : UInt8 :=
  if value then 1 else 0

variable (record : Record)

def Record.fields : List Bytes :=
  [record.configPath, record.original, record.installed, record.before, record.after]

def Record.header : List Bytes :=
  [[record.phase.toByte], [boolByte record.originalExisted],
    [boolByte record.beforeExisted], [boolByte record.afterExisted],
    littleEndian 4 record.originalMode, littleEndian 4 record.beforeMode,
    littleEndian 4 record.afterMode, record.capability.toList, record.transaction.toList] ++
  record.fields.map (fun field => littleEndian 4 field.length)

def Record.bytes : Bytes :=
  record.header.flatten ++ record.fields.flatten

def encodedRecord : Result Bytes := do
  failIf (maximumRegistry < recordHeader + (record.fields.map List.length).sum)
    .configTooLarge
  pure record.bytes

/-!
## Decoding
-/

def headerWidths : List Nat := [1, 1, 1, 1, 4, 4, 4, 64, 32, 4, 4, 4, 4, 4]

def validMode (mode : Nat) : Bool :=
  mode <= 0o777 && mode &&& 0o022 == 0

def flag (bytes : Bytes) : Result Bool := do
  failIf (decide (1 < bytes.headD 0)) .corruptIntegration
  pure (bytes.headD 0 == 1)

def readMode (bytes : Bytes) : Result Nat := do
  failIf (!validMode (fromLittleEndian bytes)) .corruptIntegration
  pure (fromLittleEndian bytes)

/-- Each field with the most it may have; nothing may be left over. -/
def readFields : List (Nat × Nat) -> Bytes -> Result (List Bytes)
  | [], rest => do
    failIf (!rest.isEmpty) .corruptIntegration
    pure []
  | (limit, length) :: more, rest => do
    failIf (decide (limit < length) || decide (rest.length < length)) .corruptIntegration
    let fields <- readFields more (rest.drop length)
    pure (rest.take length :: fields)

def fieldLimits : List Nat :=
  [4096, maximumConfig, maximumConfig, maximumConfig, maximumConfig]

def decodedRecord (bytes : Bytes) : Result Record := do
  failIf (decide (bytes.length < recordHeader) || decide (maximumRegistry < bytes.length))
    .corruptIntegration
  match splitFields headerWidths bytes with
  | phase :: originalExisted :: beforeExisted :: afterExisted :: originalMode ::
      beforeMode :: afterMode :: capability :: transaction :: lengths => do
      let phase <- orFail (Phase.ofByte (phase.headD 0)) .corruptIntegration
      let originalExisted <- flag originalExisted
      let beforeExisted <- flag beforeExisted
      let afterExisted <- flag afterExisted
      let originalMode <- readMode originalMode
      let beforeMode <- readMode beforeMode
      let afterMode <- readMode afterMode
      failIf (!capability.all isHex) .corruptIntegration
      failIf (!transaction.all isHex) .corruptIntegration
      let fields <- readFields (fieldLimits.zip (lengths.map fromLittleEndian))
        (bytes.drop recordHeader)
      match fields with
      | [configPath, original, installed, before, after] => do
        validateAbsolute configPath
        pure {
          phase := phase
          originalExisted := originalExisted
          beforeExisted := beforeExisted
          afterExisted := afterExisted
          originalMode := originalMode
          beforeMode := beforeMode
          afterMode := afterMode
          capability := arrayOf 64 capability
          transaction := arrayOf 32 transaction
          configPath := configPath
          original := original
          installed := installed
          before := before
          after }
      | _ => .error .corruptIntegration
  | _ => .error .corruptIntegration

/-!
## Round trip
-/

/-- A record the decoder accepts. -/
structure Record.Encodable (record : Record) : Prop where
  originalMode : validMode record.originalMode = true
  beforeMode : validMode record.beforeMode = true
  afterMode : validMode record.afterMode = true
  capability : record.capability.toList.all isHex = true
  transaction : record.transaction.toList.all isHex = true
  path : validateAbsolute record.configPath = .ok ()
  lengths : List.Forall₂ (fun field limit => field.length <= limit) record.fields fieldLimits

theorem ofByte_toByte (phase : Phase) : Phase.ofByte phase.toByte = some phase := by
  cases phase <;> rfl

theorem flag_boolByte (value : Bool) : flag [boolByte value] = .ok value := by
  cases value <;> rfl

theorem readMode_littleEndian {mode : Nat} (h : validMode mode = true) :
    readMode (littleEndian 4 mode) = .ok mode := by
  have hbound : mode < 256 ^ 4 := by
    simp only [validMode, bool_iff] at h
    omega
  rw [readMode, fromLittleEndian_littleEndian hbound, h]
  rfl

variable {fields : List Bytes}

theorem readFields_flatten {limits : List Nat}
    (h : List.Forall₂ (fun field limit => field.length <= limit) fields limits) :
    readFields (limits.zip (fields.map List.length)) fields.flatten = .ok fields := by
  induction h with
  | nil => rfl
  | @cons field limit fields limits hfield hrest ih =>
    have hlength : ¬ (limit < field.length ∨ (field ++ fields.flatten).length < field.length) := by
      rw [List.length_append]
      omega
    simp only [List.map_cons, List.zip_cons_cons, List.flatten_cons, readFields]
    rw [<- Bool.decide_or, decide_eq_false hlength, List.drop_left, ih, List.take_left]
    rfl

theorem Record.header_widths (record : Record) : record.header.map List.length = headerWidths := by
  simp [header, fields, headerWidths]

theorem Record.length_header (record : Record) : record.header.flatten.length = recordHeader := by
  rw [List.length_flatten, header_widths]
  rfl

theorem Record.length_bytes (record : Record) :
    record.bytes.length = recordHeader + (record.fields.map List.length).sum := by
  rw [bytes, List.length_append, length_header, List.length_flatten]

theorem sum_le_of_forall₂ {limits : List Nat}
    (h : List.Forall₂ (fun field limit => field.length <= limit) fields limits) :
    (fields.map List.length).sum <= limits.sum := by
  induction h with
  | nil => exact Nat.le_refl 0
  | cons hfield _ ih => exact Nat.add_le_add hfield ih

namespace Record.Encodable

variable {record : Record} (h : record.Encodable)
include h

theorem length_le : record.bytes.length <= maximumRegistry := by
  have hfields := sum_le_of_forall₂ h.lengths
  have hlimits : recordHeader + fieldLimits.sum <= maximumRegistry := by decide
  rw [length_bytes]
  omega

theorem encodedRecord_eq : encodedRecord record = .ok record.bytes := by
  have hlength := h.length_le
  rw [length_bytes] at hlength
  rw [encodedRecord, decide_eq_false (not_lt.mpr hlength)]
  rfl

theorem field_lengths :
    (record.fields.map (fun field => littleEndian 4 field.length)).map fromLittleEndian =
      record.fields.map List.length := by
  have hbound : forall field, field ∈ record.fields -> field.length < 256 ^ 4 := by
    intro field hfield
    have hsum := List.single_le_sum (l := record.fields.map List.length)
      (fun _ _ => Nat.zero_le _) _ (List.mem_map_of_mem hfield)
    have hlimits : fieldLimits.sum < 256 ^ 4 := by decide
    exact Nat.lt_of_le_of_lt (hsum.trans (sum_le_of_forall₂ h.lengths)) hlimits
  rw [List.map_map]
  apply List.map_congr_left
  intro field hfield
  exact fromLittleEndian_littleEndian (hbound field hfield)

theorem decodedRecord_bytes : decodedRecord record.bytes = .ok record := by
  have hlength : ¬ (record.bytes.length < recordHeader ∨
      maximumRegistry < record.bytes.length) := by
    have hle := h.length_le
    have hheader := record.length_bytes
    omega
  have hsplit : splitFields headerWidths record.bytes = record.header := by
    rw [<- record.header_widths]
    exact splitFields_flatten_append record.header record.fields.flatten
  have hdrop : record.bytes.drop recordHeader = record.fields.flatten := by
    rw [bytes, <- record.length_header, List.drop_left]
  have hfields := readFields_flatten h.lengths
  rw [<- h.field_lengths] at hfields
  rw [decodedRecord, <- Bool.decide_or, decide_eq_false hlength, hsplit]
  simp only [header, List.cons_append, List.nil_append, List.headD_cons, ofByte_toByte, bind_ok,
    flag_boolByte, readMode_littleEndian h.originalMode, readMode_littleEndian h.beforeMode,
    readMode_littleEndian h.afterMode, h.capability, h.transaction, hdrop, hfields]
  simp only [fields, h.path, arrayOf_toList]
  rfl

end Record.Encodable

/-!
## What is decoded
-/

theorem toByte_of_ofByte {byte : UInt8} {phase : Phase} (h : Phase.ofByte byte = some phase) :
    phase.toByte = byte := by
  unfold Phase.ofByte at h
  split_ifs at h with h0 h1 h2 h3 <;> cases h <;> exact Eq.symm (by assumption)

variable {bytes : Bytes}

theorem headD_of_length (h : bytes.length = 1) : [bytes.headD 0] = bytes := by
  rcases List.length_eq_one_iff.mp h with ⟨_, rfl⟩
  rfl

theorem boolByte_of_flag {value : Bool} (h : flag bytes = .ok value)
    (hlength : bytes.length = 1) : [boolByte value] = bytes := by
  rcases List.length_eq_one_iff.mp hlength with ⟨byte, rfl⟩
  simp only [flag, ok_iff] at h
  rcases h with ⟨_, hsmall, rfl⟩
  have hle : byte.toNat <= 1 :=
    UInt8.le_iff_toNat_le.mp (UInt8.not_lt.mp (of_decide_eq_false hsmall))
  have hcases : byte = 0 ∨ byte = 1 := by
    rw [<- UInt8.toNat_inj, <- UInt8.toNat_inj]
    exact Nat.le_one_iff_eq_zero_or_eq_one.mp hle
  rcases hcases with rfl | rfl <;> rfl

theorem littleEndian_of_readMode {mode : Nat} (h : readMode bytes = .ok mode)
    (hlength : bytes.length = 4) : validMode mode = true ∧ littleEndian 4 mode = bytes := by
  simp only [readMode, ok_iff, bool_iff] at h
  rcases h with ⟨_, hvalid, rfl⟩
  exact ⟨hvalid, by rw [<- hlength, littleEndian_fromLittleEndian]⟩

theorem readFields_inv {limits lengths : List Nat} {rest : Bytes}
    (hsame : limits.length = lengths.length)
    (h : readFields (limits.zip lengths) rest = .ok fields) :
    fields.flatten = rest ∧ fields.map List.length = lengths ∧
      List.Forall₂ (fun field limit => field.length <= limit) fields limits := by
  induction limits generalizing lengths rest fields with
  | nil =>
    rw [List.length_eq_zero_iff.mp hsame.symm] at h ⊢
    simp only [List.zip_nil_left, readFields, ok_iff, bool_iff] at h
    rcases h with ⟨_, hrest, rfl⟩
    exact ⟨(List.isEmpty_iff.mp hrest).symm, rfl, .nil⟩
  | cons limit limits ih =>
    cases lengths with
    | nil => cases hsame
    | cons length lengths =>
      simp only [List.zip_cons_cons, readFields, ok_iff, bool_iff, not_lt] at h
      rcases h with ⟨_, ⟨hlimit, hinside⟩, _, hothers, rfl⟩
      rcases ih (Nat.succ.inj hsame) hothers with ⟨hflatten, rfl, hlimits⟩
      have htake : (rest.take length).length = length := List.length_take_of_le hinside
      refine ⟨by rw [List.flatten_cons, hflatten, List.take_append_drop], ?_, .cons ?_ hlimits⟩
      · rw [List.map_cons, htake]
      · rw [htake]
        exact hlimit

/-- A decoded record is encodable, and its encoding is what was decoded. -/
theorem decodedRecord_inv {record : Record} (h : decodedRecord bytes = .ok record) :
    record.Encodable ∧ record.bytes = bytes := by
  simp only [decodedRecord, bind_eq_ok, failIf_eq_ok, bool_iff, not_lt] at h
  rcases h with ⟨_, ⟨hlong, _⟩, h⟩
  have hlens := @length_splitFields headerWidths bytes hlong
  have hheader := flatten_splitFields headerWidths bytes
  generalize splitFields headerWidths bytes = parts at h hlens hheader
  simp only [headerWidths, List.map_eq_cons_iff, List.map_eq_nil_iff] at hlens
  rcases hlens with ⟨_, _, rfl, l0, _, _, rfl, l1, _, _, rfl, l2, _, _, rfl, l3,
    _, _, rfl, l4, _, _, rfl, l5, _, _, rfl, l6, _, _, rfl, l7, _, _, rfl, l8,
    _, _, rfl, l9, _, _, rfl, l10, _, _, rfl, l11, _, _, rfl, l12, _, _, rfl, l13, rfl⟩
  simp only [ok_iff] at h
  rcases h with ⟨_, hphase, _, horiginal, _, hbefore, _, hafter, _,
    horiginalMode, _, hbeforeMode, _, hafterMode, _, hcap, _,
    htx, _, hfields, h⟩
  rcases readFields_inv (by rfl) hfields with ⟨hflatten, hsizes, hlimits⟩
  split at h
  case h_2 => cases h
  case h_1 path originalBytes installed beforeBytes afterBytes =>
    simp only [ok_iff] at h
    rcases h with ⟨_, hpath, rfl⟩
    have hmodes := littleEndian_of_readMode horiginalMode l4
    have hmodes' := littleEndian_of_readMode hbeforeMode l5
    have hmodes'' := littleEndian_of_readMode hafterMode l6
    have hlength : forall {field number : Bytes}, field.length = fromLittleEndian number ->
        number.length = 4 -> littleEndian 4 field.length = number := by
      intro field number hfield hnumber
      rw [hfield, <- hnumber, littleEndian_fromLittleEndian]
    simp only [List.map_cons, List.map_nil, List.cons.injEq, and_true] at hsizes
    rcases hsizes with ⟨s0, s1, s2, s3, s4⟩
    refine ⟨⟨hmodes.1, hmodes'.1, hmodes''.1, ?_, ?_, hpath, hlimits⟩, ?_⟩
    · rw [toList_arrayOf l7]
      simpa using hcap
    · rw [toList_arrayOf l8]
      simpa using htx
    · rw [Record.bytes, Record.header, Record.fields, hflatten]
      simp only [List.map_cons, List.map_nil, hlength s0 l9, hlength s1 l10, hlength s2 l11,
        hlength s3 l12, hlength s4 l13, toByte_of_ofByte hphase, headD_of_length l0,
        boolByte_of_flag horiginal l1, boolByte_of_flag hbefore l2, boolByte_of_flag hafter l3,
        hmodes.2, hmodes'.2, hmodes''.2, toList_arrayOf l7, toList_arrayOf l8,
        List.cons_append, List.nil_append]
      rw [hheader]
      exact List.take_append_drop recordHeader bytes

/-- The loop over the fields with its cursor; nothing where it would leave the input. -/
def readFieldsAt (bytes : Bytes) : List (Nat × Nat) -> Nat -> Option (Result (List Bytes))
  | [], cursor => some (do
      failIf (cursor != bytes.length) .corruptIntegration
      pure [])
  | (limit, length) :: more, cursor => do
    let rest <- if cursor <= bytes.length then some (bytes.length - cursor) else none
    if decide (limit < length) || decide (rest < length) then
      some (.error .corruptIntegration)
    else do
      let field <- sliceAt bytes cursor length
      let fields <- readFieldsAt bytes more (cursor + length)
      some (fields.map (field :: ·))

theorem readFieldsAt_eq {spans : List (Nat × Nat)} {cursor : Nat} (h : cursor <= bytes.length) :
    readFieldsAt bytes spans cursor = some (readFields spans (bytes.drop cursor)) := by
  induction spans generalizing cursor with
  | nil =>
    have hend : (cursor != bytes.length) = !(bytes.drop cursor).isEmpty := by
      rw [Bool.eq_iff_iff]
      simp
      omega
    rw [readFieldsAt, hend]
    rfl
  | cons span more ih =>
    rcases span with ⟨limit, length⟩
    rw [readFieldsAt, if_pos h, readFields, List.length_drop]
    simp only [Option.bind_eq_bind, Option.bind_some]
    cases hrefused : decide (limit < length) || decide (bytes.length - cursor < length) with
    | true => rfl
    | false =>
      have hinside : cursor + length <= bytes.length := by
        simp only [bool_iff] at hrefused
        omega
      rw [sliceAt, if_pos hinside, ih hinside, failIf_false, bind_ok, List.drop_drop]
      cases readFields more (bytes.drop (cursor + length)) <;> rfl

/-- Encoding and decoding are inverse to each other, and the decoder reads its input only. -/
theorem registry_codec_exact :
    (forall record : Record, record.Encodable -> exists bytes,
      encodedRecord record = .ok bytes ∧ decodedRecord bytes = .ok record) ∧
    (forall bytes record, decodedRecord bytes = .ok record -> encodedRecord record = .ok bytes) ∧
    forall bytes, recordHeader <= bytes.length ->
      slicesAt bytes 0 headerWidths = some (splitFields headerWidths bytes) ∧
      forall spans, readFieldsAt bytes spans recordHeader =
        some (readFields spans (bytes.drop recordHeader)) := by
  refine ⟨fun record h => ⟨record.bytes, h.encodedRecord_eq, h.decodedRecord_bytes⟩, ?_, ?_⟩
  · intro bytes record h
    rcases decodedRecord_inv h with ⟨henc, rfl⟩
    rw [henc.encodedRecord_eq]
  · intro bytes h
    refine ⟨slicesAt_eq ?_, fun _ => readFieldsAt_eq h⟩
    rw [Nat.zero_add]
    exact h

def firstRecord : Record where
  phase := .pendingInstall
  originalExisted := false
  beforeExisted := false
  afterExisted := true
  originalMode := 0
  beforeMode := 0
  afterMode := 0o600
  capability := Vector.replicate 64 0x61
  transaction := Vector.replicate 32 0x62
  configPath := [0x2F, 0x61]
  original := []
  installed := [0x63]
  before := []
  after := [0x63]

theorem registry_codec_exact_firstRecord : exists bytes,
    encodedRecord firstRecord = .ok bytes ∧ decodedRecord bytes = .ok firstRecord :=
  registry_codec_exact.1 firstRecord
    ⟨by decide, by decide, by decide, by decide, by decide, by decide, by
      simp [Record.fields, fieldLimits, firstRecord, maximumConfig]⟩

end Omux.Setup
