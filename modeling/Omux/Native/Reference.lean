import Omux.Library.Fallible
import Omux.Library.Json

/-!
# Native references

A native reference names one attachment of one endpoint of one adapter owner.
Bindings, leases and request intents carry it as immutable attribution.
-/

namespace Omux.Native

open Library

structure NativeRef where
  ownerId : Vector UInt8 32
  adapterEpoch : Nat
  endpointGeneration : Nat
  threadInstanceGeneration : Nat
  attachmentGeneration : Nat
deriving DecidableEq

def nonzero (bytes : Bytes) : Bool :=
  bytes.any (fun byte => byte != 0)

def NativeRef.isValid (ref : NativeRef) : Bool :=
  nonzero ref.ownerId.toList && ref.adapterEpoch != 0 &&
    ref.endpointGeneration != 0 && ref.threadInstanceGeneration != 0 &&
    ref.attachmentGeneration != 0

/-- The error of a refused reference is the caller's `InvalidNativeRef`. -/
def NativeRef.validate {ε : Type _} (ref : NativeRef) (invalidNativeRef : ε) : Except ε Unit :=
  failIf (!ref.isValid) invalidNativeRef

def sameNativeRef (a b : Option NativeRef) : Bool :=
  a == b

@[simp] theorem sameNativeRef_eq_true {a b : Option NativeRef} :
    sameNativeRef a b = true ↔ a = b := by
  simp [sameNativeRef]

def NativeRef.json (ref : NativeRef) : Bytes :=
  jsonObject
    [(ascii "owner_id", jsonSlice ref.ownerId.toList),
      (ascii "adapter_epoch", decimal ref.adapterEpoch),
      (ascii "endpoint_generation", decimal ref.endpointGeneration),
      (ascii "thread_instance_generation", decimal ref.threadInstanceGeneration),
      (ascii "attachment_generation", decimal ref.attachmentGeneration)]

end Omux.Native
