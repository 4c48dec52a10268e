import Omux.Library.Text

/-!
# Compact JSON text

The default serializer prints no white space.  Byte slices that are valid UTF-8
are strings with the shortest escapes; every other slice is an array of decimal numbers.
-/

namespace Omux.Library

open List

def ascii (text : String) : Bytes :=
  text.toList.map (fun c => UInt8.ofNat c.toNat)

def decimal (n : Nat) : Bytes :=
  (Nat.toDigits 10 n).map (fun c => UInt8.ofNat c.toNat)

def hexDigit (n : Nat) : UInt8 :=
  if n < 10 then UInt8.ofNat (0x30 + n) else UInt8.ofNat (0x61 + n - 10)

def lowerHex (bytes : List UInt8) : Bytes :=
  bytes.flatMap (fun byte => [hexDigit (byte.toNat / 16), hexDigit (byte.toNat % 16)])

theorem length_lowerHex (bytes : List UInt8) : (lowerHex bytes).length = 2 * bytes.length := by
  induction bytes with
  | nil => rfl
  | cons _ _ ih =>
    rw [lowerHex, flatMap_cons, length_append, <- lowerHex, ih]
    simp only [length_cons, length_nil]
    omega

theorem hexDigit_inj : forall m n : Fin 16, hexDigit m = hexDigit n -> m = n := by decide

theorem lowerHex_inj {xs ys : List UInt8} (h : lowerHex xs = lowerHex ys) : xs = ys := by
  induction xs generalizing ys with
  | nil =>
    cases ys with
    | nil => rfl
    | cons => cases h
  | cons x xs ih =>
    cases ys with
    | nil => cases h
    | cons y ys =>
      rw [lowerHex, lowerHex, flatMap_cons, flatMap_cons] at h
      rcases append_inj h rfl with ⟨hfirst, hrest⟩
      simp only [List.cons.injEq, and_true] at hfirst
      have hx := x.toNat_lt
      have hy := y.toNat_lt
      have hhigh := hexDigit_inj ⟨x.toNat / 16, by omega⟩ ⟨y.toNat / 16, by omega⟩ hfirst.1
      have hlow := hexDigit_inj ⟨x.toNat % 16, by omega⟩ ⟨y.toNat % 16, by omega⟩ hfirst.2
      rw [Fin.mk.injEq] at hhigh hlow
      have hbyte : x = y := UInt8.toNat_inj.mp (by omega)
      rw [hbyte, ih hrest]

/-- One byte of a string: the short escapes, `\u00XX`, or the byte itself. -/
def jsonEscape (byte : UInt8) : Bytes :=
  if byte = 0x22 || byte = 0x5C then [0x5C, byte]
  else if byte = 0x08 then [0x5C, 0x62]
  else if byte = 0x0C then [0x5C, 0x66]
  else if byte = 0x0A then [0x5C, 0x6E]
  else if byte = 0x0D then [0x5C, 0x72]
  else if byte = 0x09 then [0x5C, 0x74]
  else if byte < 0x20 then
    [0x5C, 0x75, 0x30, 0x30, hexDigit (byte.toNat / 16), hexDigit (byte.toNat % 16)]
  else [byte]

def jsonString (text : Bytes) : Bytes :=
  [0x22] ++ text.flatMap jsonEscape ++ [0x22]

def commaSeparated : List Bytes -> Bytes
  | [] => []
  | [item] => item
  | item :: rest => item ++ [0x2C] ++ commaSeparated rest

def jsonArray (items : List Bytes) : Bytes :=
  [0x5B] ++ commaSeparated items ++ [0x5D]

def jsonObject (fields : List (Bytes × Bytes)) : Bytes :=
  [0x7B] ++ commaSeparated (fields.map (fun field =>
    jsonString field.1 ++ [0x3A] ++ field.2)) ++ [0x7D]

theorem length_le_commaSeparated (items : List Bytes) :
    items.length <= (commaSeparated items).length + 1 := by
  induction items with
  | nil => exact Nat.zero_le _
  | cons _ rest ih =>
    cases rest with
    | nil => exact Nat.le_add_left 1 _
    | cons =>
      simp only [commaSeparated, length_append, length_cons] at ih ⊢
      omega

theorem length_lt_jsonObject (fields : List (Bytes × Bytes)) :
    fields.length < (jsonObject fields).length := by
  have hitems := length_le_commaSeparated (fields.map (fun field =>
    jsonString field.1 ++ [0x3A] ++ field.2))
  rw [length_map] at hitems
  simp only [jsonObject, length_append, length_cons]
  omega

def jsonNull : Bytes := ascii "null"

def jsonOption {α : Type _} (encode : α -> Bytes) : Option α -> Bytes
  | none => jsonNull
  | some value => encode value

def jsonSlice (value : Bytes) : Bytes :=
  if utf8ValidateSlice value then jsonString value
  else jsonArray (value.map (fun byte => decimal byte.toNat))

def decimalInt (n : Int) : Bytes :=
  if n < 0 then [0x2D] ++ decimal n.natAbs else decimal n.natAbs

def jsonBool (value : Bool) : Bytes :=
  ascii (if value then "true" else "false")

/-- Length of an encoding, unless it passes the limit. -/
def countWithin (limit : Nat) (encoded : Bytes) : Option Nat :=
  if encoded.length <= limit then some encoded.length else none

/-!
## Reserved lengths

A component that must bound the encoding of a text before it is written reserves
six bytes for everything that is not plain ASCII.
-/

def escapeReservation (byte : UInt8) : Nat :=
  if byte = 0x22 || byte = 0x5C || byte = 0x0A || byte = 0x0D || byte = 0x09 ||
      byte = 0x08 || byte = 0x0C then 2
  else if byte <= 7 || byte = 0x0B || (0x0E <= byte && byte <= 0x1F) || 0x80 <= byte then 6
  else 1

/-- Reserved length of a slice, where `width` is the length of a decimal byte. -/
def reservedLength (width : UInt8 -> Nat) (value : Bytes) : Nat :=
  if utf8ValidateSlice value then
    2 + (value.map escapeReservation).sum
  else
    2 + (value.map (fun byte => 1 + width byte)).sum -
      (if value.isEmpty then 0 else 1)

theorem escapeReservation_le (byte : UInt8) : escapeReservation byte <= 6 := by
  unfold escapeReservation
  split
  · decide
  · split <;> decide

theorem sum_map_le {α : Type _} {f : α -> Nat} {bound : Nat}
    (hf : forall x, f x <= bound) (xs : List α) : (xs.map f).sum <= bound * xs.length := by
  induction xs with
  | nil => simp
  | cons x _ _ =>
    have hx := hf x
    simp only [map_cons, sum_cons, length_cons, Nat.mul_add]
    omega

theorem reservedLength_le {width : UInt8 -> Nat} (hwidth : forall byte, width byte <= 3)
    (value : Bytes) : reservedLength width value <= 2 + 6 * value.length := by
  have hescaped := sum_map_le escapeReservation_le value
  have hnumbers : (value.map (fun byte => 1 + width byte)).sum <= 4 * value.length :=
    sum_map_le (fun byte => Nat.add_le_add_left (hwidth byte) 1) value
  unfold reservedLength
  split <;> omega

/-!
## Parsed values
-/

inductive JsonValue where
  | null
  | bool (value : Bool)
  | number (text : Bytes)
  | string (text : Bytes)
  | array (items : List JsonValue)
  | object (fields : List (Bytes × JsonValue))

def JsonValue.get (value : JsonValue) (name : Bytes) : Option JsonValue :=
  match value with
  | .object fields => (fields.find? (fun field => field.1 == name)).map Prod.snd
  | _ => none

def JsonValue.isTrue : JsonValue -> Bool
  | .bool true => true
  | _ => false

def JsonValue.isBool : JsonValue -> Bool
  | .bool _ => true
  | _ => false

def JsonValue.isString : JsonValue -> Bool
  | .string _ => true
  | _ => false

def JsonValue.hasFields (count : Nat) : JsonValue -> Bool
  | .object fields => fields.length == count
  | _ => false

example : jsonSlice [0x61, 0x22, 0x01] = ascii "\"a\\\"\\u0001\"" := by decide
example : jsonSlice [0xFF, 0x07] = ascii "[255,7]" := by decide

end Omux.Library
