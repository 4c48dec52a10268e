import Mathlib.Algebra.Order.BigOperators.Group.List
import Mathlib.Algebra.Order.Group.Nat
import Omux.Library.Json
import Omux.Library.Records

/-!
# Lengths of encodings

What the serializer adds to the texts that it is given is punctuation only.
-/

namespace Omux.Library

open List

/-!
## Numbers
-/

theorem length_decimal (n : Nat) : (decimal n).length = (Nat.toDigits 10 n).length :=
  length_map _

theorem length_decimal_pos (n : Nat) : 0 < (decimal n).length := by
  rw [length_decimal]
  exact Nat.length_toDigits_pos

variable {value : Bytes} {n bound : Nat}

theorem length_decimal_le_iff {k : Nat} (hk : 0 < k) : (decimal n).length <= k ↔ n < 10 ^ k := by
  rw [length_decimal]
  exact Nat.length_toDigits_le_iff (by decide) hk

theorem length_decimal_mono {m : Nat} (h : m <= n) : (decimal m).length <= (decimal n).length := by
  have hpos := length_decimal_pos n
  have hn : n < 10 ^ (decimal n).length := (length_decimal_le_iff hpos).mp (le_rfl)
  exact (length_decimal_le_iff hpos).mpr (Nat.lt_of_le_of_lt h hn)

theorem length_decimal_succ (n : Nat) : (decimal (n + 1)).length <= (decimal n).length + 1 := by
  have hn : n < 10 ^ (decimal n).length :=
    (length_decimal_le_iff (length_decimal_pos n)).mp (le_rfl)
  refine (length_decimal_le_iff (Nat.succ_pos _)).mpr ?_
  omega

theorem length_decimalInt_pos (n : Int) : 0 < (decimalInt n).length := by
  have hpos := length_decimal_pos n.natAbs
  unfold decimalInt
  split
  · rw [length_append]
    omega
  · exact hpos

theorem length_decimalInt_le {n : Int} (hlow : -(bound : Int) <= n) (hhigh : n <= bound) :
    (decimalInt n).length <= 1 + (decimal bound).length := by
  have habs : n.natAbs <= bound := by omega
  have hwidth := length_decimal_mono habs
  unfold decimalInt
  split
  · rw [length_append, length_singleton]
    omega
  · omega

/-!
## Texts
-/

/-- A printable ASCII byte that a string holds as it is. -/
def isPlain (byte : UInt8) : Bool :=
  decide (0x20 <= byte) && decide (byte < 0x80) && byte != 0x22 && byte != 0x5C

theorem forall_byte {p : UInt8 -> Bool}
    (h : (List.range 256).all (fun n => p (UInt8.ofNat n)) = true) (byte : UInt8) :
    p byte = true := by
  simpa using all_eq_true.mp h byte.toNat (mem_range.mpr byte.toNat_lt)

theorem all_isPlain {accepted : UInt8 -> Bool} (hbytes : (List.range 256).all (fun n =>
      !accepted (UInt8.ofNat n) || isPlain (UInt8.ofNat n)) = true)
    (h : value.all accepted = true) : value.all isPlain = true := by
  rw [all_eq_true] at h ⊢
  intro byte hbyte
  have hor := forall_byte (p := fun byte => !accepted byte || isPlain byte) hbytes byte
  simpa [h byte hbyte] using hor

theorem utf8ValidateSlice_of_ascii (h : forall byte, byte ∈ value -> byte < 0x80) :
    utf8ValidateSlice value = true := by
  induction value with
  | nil => rfl
  | cons byte _ ih =>
    have hlead : utf8Lead byte = some [] := by
      unfold utf8Lead
      rw [if_pos (h byte mem_cons_self)]
    have hrest := ih (fun other hother => h other (mem_cons_of_mem byte hother))
    unfold utf8ValidateSlice at hrest ⊢
    rw [utf8Scan, hlead]
    exact hrest

theorem jsonEscape_plain {byte : UInt8} (h : isPlain byte = true) : jsonEscape byte = [byte] := by
  simp only [isPlain, Bool.and_eq_true, bne_iff_ne] at h
  rcases h with ⟨⟨⟨hlow, _⟩, hquote⟩, hslash⟩
  have hcontrol : ¬ byte < 0x20 := by simpa using hlow
  have hne : forall other : UInt8, other < 0x20 -> byte ≠ other := by
    intro other hother heq
    rw [heq] at hcontrol
    exact hcontrol hother
  unfold jsonEscape
  simp [hquote, hslash, hne 0x08 (by decide), hne 0x0C (by decide),
    hne 0x0A (by decide), hne 0x0D (by decide), hne 0x09 (by decide), hcontrol]

theorem length_jsonSlice_plain (h : value.all isPlain = true) :
    (jsonSlice value).length = value.length + 2 := by
  rw [all_eq_true] at h
  have hascii : utf8ValidateSlice value = true := by
    refine utf8ValidateSlice_of_ascii (fun byte hbyte => ?_)
    have hplain := h byte hbyte
    simp only [isPlain, Bool.and_eq_true, decide_eq_true_eq] at hplain
    exact hplain.1.1.2
  have hescaped : value.flatMap jsonEscape = value := by
    have hsame := flatMap_congr (fun byte hbyte => jsonEscape_plain (h byte hbyte))
    rw [hsame, flatMap_singleton']
  rw [jsonSlice, if_pos hascii, jsonString, hescaped, length_append, length_append]
  simp only [length_singleton]
  omega

/-- No text of its length is longer than one of control characters. -/
theorem length_jsonSlice_control (n : Nat) :
    (jsonSlice (List.replicate n 1)).length = 6 * n + 2 := by
  have hascii : utf8ValidateSlice (List.replicate n 1) = true := by
    refine utf8ValidateSlice_of_ascii (fun byte hbyte => ?_)
    rw [(mem_replicate.mp hbyte).2]
    decide
  have hsum : ((List.replicate n (1 : UInt8)).map (fun byte => (jsonEscape byte).length)).sum =
      6 * n := by
    rw [map_replicate, sum_replicate_nat, Nat.mul_comm]
    rfl
  rw [jsonSlice, if_pos hascii, jsonString, length_append, length_append, length_flatMap]
  simp only [length_singleton]
  omega

/-- A text that is written as it is, of bounded length. -/
structure Plain (bound : Nat) (value : Bytes) : Prop where
  plain : value.all isPlain = true
  length : value.length <= bound

theorem length_plain_le (h : Plain bound value) :
    (jsonSlice value).length <= (jsonSlice (List.replicate bound 0x61)).length := by
  have hwidest : (List.replicate bound (0x61 : UInt8)).all isPlain = true := by
    rw [all_replicate]
    split
    · rfl
    · decide
  rw [length_jsonSlice_plain h.plain, length_jsonSlice_plain hwidest, length_replicate]
  exact Nat.add_le_add_right h.length 2

theorem Plain.mono {more : Nat} (h : Plain bound value) (hle : bound <= more) : Plain more value :=
  ⟨h.plain, h.length.trans hle⟩

theorem Plain.append {first second : Nat} {more : Bytes} (h : Plain first value)
    (hmore : Plain second more) : Plain (first + second) (value ++ more) where
  plain := by
    rw [all_append, h.plain, hmore.plain]
    rfl
  length := by
    rw [length_append]
    exact Nat.add_le_add h.length hmore.length

theorem isPlain_digit {c : Char} (h : c.isDigit = true) : isPlain (UInt8.ofNat c.toNat) = true := by
  have hdigits : (List.range 10).all (fun n => isPlain (UInt8.ofNat (0x30 + n))) = true := by decide
  simp only [Char.isDigit, Bool.and_eq_true, decide_eq_true_eq] at h
  have hlow : 0x30 <= c.toNat := h.1
  have hhigh : c.toNat <= 0x39 := h.2
  have hdigit := all_eq_true.mp hdigits (c.toNat - 0x30) (mem_range.mpr (by omega))
  rwa [Nat.add_sub_cancel' hlow] at hdigit

theorem plain_decimal {k : Nat} (hk : 0 < k) (h : n < 10 ^ k) : Plain k (decimal n) where
  plain := by
    rw [all_eq_true]
    intro _ hbyte
    rcases mem_map.mp hbyte with ⟨c, hc, rfl⟩
    exact isPlain_digit (Nat.isDigit_of_mem_toDigits (by decide) (by decide) hc)
  length := (length_decimal_le_iff hk).mpr h

/-!
## Arrays and objects
-/

theorem length_commaSeparated (items : List Bytes) :
    (commaSeparated items).length = (items.map List.length).sum + (items.length - 1) := by
  induction items with
  | nil => rfl
  | cons _ rest ih =>
    cases rest with
    | nil => simp [commaSeparated]
    | cons =>
      simp only [commaSeparated, length_append, length_cons, length_nil, map_cons, sum_cons] at ih ⊢
      omega

theorem length_jsonArray (items : List Bytes) :
    (jsonArray items).length = 2 + (items.map List.length).sum + (items.length - 1) := by
  simp only [jsonArray, length_append, length_cons, length_nil, length_commaSeparated]
  omega

theorem length_jsonSlice_le_reserved {width : UInt8 -> Nat}
    (hwidth : forall byte, (decimal byte.toNat).length <= width byte) (value : Bytes) :
    (jsonSlice value).length <= reservedLength width value := by
  have hescape : forall byte, (jsonEscape byte).length <= escapeReservation byte := fun byte =>
    of_decide_eq_true (forall_byte
      (p := fun byte => decide ((jsonEscape byte).length <= escapeReservation byte))
      (by decide +kernel) byte)
  unfold jsonSlice reservedLength
  split
  · have hsum := sum_le_sum (l := value) (fun byte _ => hescape byte)
    rw [jsonString, length_append, length_append, length_flatMap]
    simp only [length_singleton]
    omega
  · have hsum := sum_le_sum (l := value) (fun byte _ => hwidth byte)
    rw [length_jsonArray, map_map, length_map, sum_map_add]
    cases value with
    | nil => exact le_rfl
    | cons =>
      simp only [Function.comp_def, map_const', sum_replicate_nat, isEmpty_cons,
        Bool.false_eq_true, if_false, length_cons] at hsum ⊢
      omega

theorem length_jsonSlice_le (value : Bytes) : (jsonSlice value).length <= 2 + 6 * value.length := by
  refine (length_jsonSlice_le_reserved (fun _ => le_rfl) value).trans (reservedLength_le ?_ value)
  intro byte
  exact (length_decimal_le_iff (by decide)).mpr (byte.toNat_lt.trans (by decide))

theorem length_jsonObject (fields : List (Bytes × Bytes)) :
    (jsonObject fields).length = 2 + (fields.map (fun field =>
        (jsonString field.1).length + 1 + field.2.length)).sum + (fields.length - 1) := by
  have hmap : ((fields.map (fun field =>
      jsonString field.1 ++ [0x3A] ++ field.2)).map List.length) =
      fields.map (fun field => (jsonString field.1).length + 1 + field.2.length) := by
    rw [map_map]
    refine map_congr_left (fun field _ => ?_)
    simp only [Function.comp_apply, length_append, length_singleton]
  simp only [jsonObject, length_append, length_cons, length_nil,
    length_commaSeparated, length_map, hmap]
  omega

def objectOverhead (names : List Bytes) : Nat :=
  2 + (names.map (fun name => (jsonString name).length + 1)).sum + (names.length - 1)

theorem length_jsonObject_names (fields : List (Bytes × Bytes)) : (jsonObject fields).length =
      objectOverhead (fields.map Prod.fst) + (fields.map (fun field => field.2.length)).sum := by
  have hsum : (fields.map (fun field =>
      (jsonString field.1).length + 1 + field.2.length)).sum =
      ((fields.map Prod.fst).map (fun name => (jsonString name).length + 1)).sum +
        (fields.map (fun field => field.2.length)).sum := by
    induction fields with
    | nil => rfl
    | cons =>
      simp only [map_cons, sum_cons]
      omega
  rw [length_jsonObject, objectOverhead, length_map]
  omega

/-!
## Lists of records
-/

section Records

variable {α : Type} (json : α -> Bytes)

def arrayBytes (records : List α) : Nat :=
  (jsonArray (records.map json)).length

theorem arrayBytes_eq (records : List α) : arrayBytes json records =
      2 + (records.map (fun x => (json x).length)).sum + (records.length - 1) := by
  rw [arrayBytes, length_jsonArray, map_map, length_map]
  rfl

theorem arrayBytes_append (records more : List α) : arrayBytes json (records ++ more) <=
      arrayBytes json records + (more.map (fun x => (json x).length + 1)).sum := by
  have hsum : (more.map (fun x => (json x).length + 1)).sum =
      (more.map (fun x => (json x).length)).sum + more.length := by
    induction more with
    | nil => rfl
    | cons =>
      simp only [map_cons, sum_cons, length_cons]
      omega
  rw [arrayBytes_eq, arrayBytes_eq, map_append, sum_append, length_append]
  omega

theorem arrayBytes_concat (records : List α) (x : α) :
    arrayBytes json (records ++ [x]) <= arrayBytes json records + (json x).length + 1 := by
  simpa [Nat.add_assoc] using arrayBytes_append json records [x]

variable {records : List α}

theorem arrayBytes_sublist {more : List α} (h : records.Sublist more) :
    arrayBytes json records <= arrayBytes json more := by
  have hsum := (h.map (fun x => (json x).length)).sum_le_sum (fun _ _ => Nat.zero_le _)
  have hlength := h.length_le
  rw [arrayBytes_eq, arrayBytes_eq]
  omega

theorem arrayBytes_set {i : Nat} {x : α} (y : α) (h : records[i]? = some x) :
    arrayBytes json (records.set i y) + (json x).length =
      arrayBytes json records + (json y).length := by
  have hsum := sum_map_set (f := fun x => (json x).length) y h
  rw [arrayBytes_eq, arrayBytes_eq, length_set]
  omega

theorem arrayBytes_eraseIdx {i : Nat} {x : α} (h : records[i]? = some x) :
    arrayBytes json (records.eraseIdx i) + (json x).length <= arrayBytes json records := by
  have hsplit : ((records.eraseIdx i).map (fun x => (json x).length)).sum +
      (json x).length = (records.map (fun x => (json x).length)).sum := by
    induction records generalizing i with
    | nil => cases h
    | cons y _ ih =>
      cases i with
      | zero =>
        rw [Option.some.inj h]
        simp only [eraseIdx_cons_zero, map_cons, sum_cons]
        omega
      | succ =>
        have hrest := ih h
        simp only [eraseIdx_cons_succ, map_cons, sum_cons]
        omega
  have hlength : (records.eraseIdx i).length <= records.length :=
    (eraseIdx_sublist records i).length_le
  rw [arrayBytes_eq, arrayBytes_eq]
  omega

theorem arrayBytes_forall₂ {grown : List α} {growth : α -> Nat}
    (h : List.Forall₂ (fun x y => (json y).length <= (json x).length + growth x) records grown) :
    arrayBytes json grown <= arrayBytes json records + (records.map growth).sum := by
  have hlength := h.length_eq
  have hsum : (grown.map (fun x => (json x).length)).sum <=
      (records.map (fun x => (json x).length)).sum + (records.map growth).sum := by
    induction h with
    | nil => exact Nat.le_refl 0
    | cons _ _ ih =>
      have hrest := ih (by assumption : List.Forall₂ _ _ _).length_eq
      simp only [map_cons, sum_cons]
      omega
  rw [arrayBytes_eq, arrayBytes_eq]
  omega

end Records

end Omux.Library
