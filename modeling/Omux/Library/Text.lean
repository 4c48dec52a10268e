import Mathlib.Data.List.Basic
import Mathlib.Algebra.Order.Ring.Nat

/-!
# Byte slices

Texts are byte slices, as they are in the source language.  Two slices are equal
when they have the same bytes, so `==` on `Bytes` is the slice comparison.
-/

namespace Omux.Library

abbrev Bytes := List UInt8

/-!
## UTF-8 well-formedness

A lead byte fixes the ranges of the continuation bytes that must follow.  The
ranges exclude overlong forms, surrogates and code points above `0x10FFFF`.
-/

structure ByteRange where
  low : UInt8
  high : UInt8

def ByteRange.contains (range : ByteRange) (byte : UInt8) : Bool :=
  range.low <= byte && byte <= range.high

def utf8Continuation : ByteRange :=
  { low := 0x80, high := 0xBF }

variable (byte : UInt8)

def utf8Lead : Option (List ByteRange) :=
  if byte < 0x80 then some []
  else if byte < 0xC2 then none
  else if byte <= 0xDF then some [utf8Continuation]
  else if byte = 0xE0 then some [{ low := 0xA0, high := 0xBF }, utf8Continuation]
  else if byte = 0xED then some [{ low := 0x80, high := 0x9F }, utf8Continuation]
  else if byte <= 0xEF then some [utf8Continuation, utf8Continuation]
  else if byte = 0xF0 then
    some [{ low := 0x90, high := 0xBF }, utf8Continuation, utf8Continuation]
  else if byte <= 0xF3 then
    some [utf8Continuation, utf8Continuation, utf8Continuation]
  else if byte = 0xF4 then
    some [{ low := 0x80, high := 0x8F }, utf8Continuation, utf8Continuation]
  else none

/-- Scan with the ranges that the current code point still expects. -/
def utf8Scan : List ByteRange -> Bytes -> Bool
  | [], [] => true
  | _ :: _, [] => false
  | [], byte :: rest =>
    match utf8Lead byte with
    | some pending => utf8Scan pending rest
    | none => false
  | range :: pending, byte :: rest => range.contains byte && utf8Scan pending rest

def utf8ValidateSlice (value : Bytes) : Bool :=
  utf8Scan [] value

/-!
## ASCII classes
-/

def isDigit : Bool :=
  0x30 <= byte && byte <= 0x39

def isLower : Bool :=
  0x61 <= byte && byte <= 0x7A

def isUpper : Bool :=
  0x41 <= byte && byte <= 0x5A

def isAlphanumeric : Bool :=
  isDigit byte || isLower byte || isUpper byte

def isHex : Bool :=
  isDigit byte || (0x61 <= byte && byte <= 0x66) || (0x41 <= byte && byte <= 0x46)

example : utf8ValidateSlice [0x61, 0xC3, 0xA9] = true := by decide
example : utf8ValidateSlice [0xED, 0xA0, 0x80] = false := by decide

end Omux.Library
