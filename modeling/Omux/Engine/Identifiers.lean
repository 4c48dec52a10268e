import Omux.Library.Binary
import Omux.Native.Owner
import Mathlib.Data.Set.Function

/-!
# Derived identifiers

Bindings, ledger entries of registrations and the detach operations of a removal are named by
the digest of what they are about.  The first bytes tell the four preimages apart: a length
below `2 ^ 32` has a zero where the domain strings have a dot.
-/

namespace Omux.Engine

open Library Native

section Naming

variable (sha256 : Bytes -> Vector UInt8 32)

def hexDigest (message : Bytes) : Bytes :=
  lowerHex (sha256 message).toList

def bindingMessage (application session external : Bytes) : Bytes :=
  [application, session, external].flatMap (prefixed 8)

def bindingIdentity (application session external : Bytes) : Bytes :=
  hexDigest sha256 (bindingMessage application session external)

def referenceBytes (reference : NativeRef) : Bytes :=
  reference.ownerId.toList ++
    [reference.adapterEpoch, reference.endpointGeneration, reference.threadInstanceGeneration,
      reference.attachmentGeneration].flatMap (littleEndian 8)

def ownerMessage (base : Bytes) (reference : NativeRef) : Bytes :=
  ascii "omux.native.binding.v2" ++ (base ++ referenceBytes reference)

def bindingIdentityForOwner (application session external : Bytes)
    (reference : Option NativeRef) : Bytes :=
  let base := bindingIdentity sha256 application session external
  match reference with
  | none => base
  | some owner => hexDigest sha256 (ownerMessage base owner)

def registrationMessage (operation : OperationId) : Bytes :=
  ascii "omux.native.mutation.v1.adapter.owner.register" ++ operation.toList

def nativeRegistrationMutationId (operation : OperationId) : Bytes :=
  hexDigest sha256 (registrationMessage operation)

def detachMessage (removal : OperationId) (reference : NativeRef) : Bytes :=
  ascii "omux.native.removal.detach.v1" ++ (removal.toList ++ referenceBytes reference)

def nativeDetachOperation (removal : OperationId) (reference : NativeRef) : Bytes :=
  hexDigest sha256 (detachMessage removal reference)

/-- A call of one of the four functions. -/
inductive Identifier where
  | binding (application session external : Bytes)
  | ownerBinding (application session external : Bytes) (reference : NativeRef)
  | registration (operation : OperationId)
  | detach (removal : OperationId) (reference : NativeRef)

namespace Identifier

def value : Identifier -> Bytes
  | binding application session external => bindingIdentity sha256 application session external
  | ownerBinding application session external reference =>
    bindingIdentityForOwner sha256 application session external (some reference)
  | registration operation => nativeRegistrationMutationId sha256 operation
  | detach removal reference => nativeDetachOperation sha256 removal reference

/-- What is hashed last. -/
def message : Identifier -> Bytes
  | binding application session external => bindingMessage application session external
  | ownerBinding application session external reference =>
    ownerMessage (bindingIdentity sha256 application session external) reference
  | registration operation => registrationMessage operation
  | detach removal reference => detachMessage removal reference

def messages (call : Identifier) : List Bytes :=
  match call with
  | ownerBinding application session external _ =>
    [bindingMessage application session external, call.message sha256]
  | _ => [call.message sha256]

end Identifier

end Naming

/-- The generations are 64-bit words. -/
def WordRef (reference : NativeRef) : Prop :=
  reference.adapterEpoch < 256 ^ 8 ∧ reference.endpointGeneration < 256 ^ 8 ∧
    reference.threadInstanceGeneration < 256 ^ 8 ∧ reference.attachmentGeneration < 256 ^ 8

def ShortParts (application session external : Bytes) : Prop :=
  forall part, part ∈ [application, session, external] -> part.length < 2 ^ 32

namespace Identifier

def Typed : Identifier -> Prop
  | binding application session external => ShortParts application session external
  | ownerBinding application session external reference =>
    ShortParts application session external ∧ WordRef reference
  | registration _ => True
  | detach _ reference => WordRef reference

/-- The byte that tells the domain strings apart. -/
def kind : Identifier -> Option UInt8
  | binding .. => none
  | ownerBinding .. => some 0x62
  | registration _ => some 0x6D
  | detach .. => some 0x72

end Identifier

variable {sha256 : Bytes -> Vector UInt8 32}

theorem bindingMessage_inj {a s e a' s' e' : Bytes} (hshort : ShortParts a s e)
    (hshort' : ShortParts a' s' e') (h : bindingMessage a s e = bindingMessage a' s' e') :
    a = a' ∧ s = s' ∧ e = e' := by
  have hparts := (flatMap_prefixed_inj (s := []) (t := []) (by rfl)
    (fun part hpart => (hshort part hpart).trans (by decide))
    (fun part hpart => (hshort' part hpart).trans (by decide)) (congrArg (· ++ []) h)).1
  simpa using hparts

theorem referenceBytes_inj {x y : NativeRef} (hx : WordRef x) (hy : WordRef y)
    (h : referenceBytes x = referenceBytes y) : x = y := by
  rcases List.append_inj h (by simp) with ⟨howner, hwords⟩
  simp only [List.flatMap_cons, List.flatMap_nil, List.append_nil] at hwords
  rcases List.append_inj hwords (by simp) with ⟨hepoch, hwords⟩
  rcases List.append_inj hwords (by simp) with ⟨hendpoint, hwords⟩
  rcases List.append_inj hwords (by simp) with ⟨hthread, hattachment⟩
  rcases hx with ⟨hx₁, hx₂, hx₃, hx₄⟩
  rcases hy with ⟨hy₁, hy₂, hy₃, hy₄⟩
  have howners := Vector.toList_inj.mp howner
  have hepochs := littleEndian_inj hx₁ hy₁ hepoch
  have hendpoints := littleEndian_inj hx₂ hy₂ hendpoint
  have hthreads := littleEndian_inj hx₃ hy₃ hthread
  have hattachments := littleEndian_inj hx₄ hy₄ hattachment
  cases x
  cases y
  simp_all

theorem hexDigest_inj {hashed : Set Bytes} (hinjective : hashed.InjOn sha256) {m n : Bytes}
    (hm : m ∈ hashed) (hn : n ∈ hashed) (h : hexDigest sha256 m = hexDigest sha256 n) : m = n :=
  hinjective hm hn (Vector.toList_inj.mp (lowerHex_inj h))

namespace Identifier

theorem value_eq (call : Identifier) :
    call.value sha256 = hexDigest sha256 (call.message sha256) := by
  cases call <;> rfl

/-- The first bytes of a message give its kind. -/
theorem kind_of_message (sha256 : Bytes -> Vector UInt8 32) {call : Identifier} (h : call.Typed) :
    (if (call.message sha256)[4]? = some 0 then none else (call.message sha256)[12]?) =
      call.kind := by
  cases call with
  | binding a s e =>
    have hzero : a.length / 256 / 256 / 256 / 256 % 256 = 0 := by
      have hshort : a.length < 2 ^ 32 := h a (by simp)
      omega
    simp [message, bindingMessage, prefixed, littleEndian, hzero, kind]
  | ownerBinding | registration | detach => rfl

end Identifier

/-- Where SHA-256 has no collision, no two calls of the four functions give one identifier. -/
theorem identifiers_never_collide (sha256 : Bytes -> Vector UInt8 32) (hashed : Set Bytes)
    (hinjective : hashed.InjOn sha256) (x y : Identifier) (hx : x.Typed) (hy : y.Typed)
    (hhashed : forall m, m ∈ x.messages sha256 ++ y.messages sha256 -> m ∈ hashed) :
    x.value sha256 = y.value sha256 ↔ x = y := by
  refine ⟨fun h => ?_, congrArg _⟩
  have hlast : forall call : Identifier, call.message sha256 ∈ call.messages sha256 := by
    intro call
    cases call <;> simp [Identifier.messages]
  rw [x.value_eq, y.value_eq] at h
  have hmessage := hexDigest_inj hinjective (hhashed _ (List.mem_append_left _ (hlast x)))
    (hhashed _ (List.mem_append_right _ (hlast y))) h
  have hkind : x.kind = y.kind := by
    rw [<- Identifier.kind_of_message sha256 hx, hmessage, Identifier.kind_of_message sha256 hy]
  -- Calls of different functions differ in their kind.
  cases x <;> cases y <;> simp [Identifier.kind] at hkind
  case binding.binding =>
    rcases bindingMessage_inj hx hy hmessage with ⟨rfl, rfl, rfl⟩
    rfl
  case ownerBinding.ownerBinding =>
    rcases List.append_inj (List.append_cancel_left hmessage) (by
      simp [bindingIdentity, hexDigest, length_lowerHex]) with ⟨hbase, href⟩
    have hparts := hexDigest_inj hinjective (hhashed _ (by simp [Identifier.messages]))
      (hhashed _ (by simp [Identifier.messages])) hbase
    rcases bindingMessage_inj hx.1 hy.1 hparts with ⟨rfl, rfl, rfl⟩
    rw [referenceBytes_inj hx.2 hy.2 href]
  case registration.registration =>
    rw [Vector.toList_inj.mp (List.append_cancel_left hmessage)]
  case detach.detach =>
    rcases List.append_inj (List.append_cancel_left hmessage) (by simp) with
      ⟨hremoval, href⟩
    rw [Vector.toList_inj.mp hremoval, referenceBytes_inj hx hy href]

def firstRef : NativeRef where
  ownerId := Vector.replicate 32 1
  adapterEpoch := 1
  endpointGeneration := 1
  threadInstanceGeneration := 1
  attachmentGeneration := 1

theorem registration_and_detach_apart :
    let digest : Bytes -> Vector UInt8 32 := fun m => Vector.replicate 32 (UInt8.ofNat m.length)
    nativeRegistrationMutationId digest (Vector.replicate 64 0x61) ≠
      nativeDetachOperation digest (Vector.replicate 64 0x61) firstRef := by
  intro digest hsame
  have hcalls := (identifiers_never_collide digest
    {registrationMessage (Vector.replicate 64 0x61),
      detachMessage (Vector.replicate 64 0x61) firstRef}
    (Set.injOn_pair.mpr (fun h => absurd h (by decide +kernel)))
    (.registration (Vector.replicate 64 0x61)) (.detach (Vector.replicate 64 0x61) firstRef)
    trivial ⟨by decide, by decide, by decide, by decide⟩
    (by simp [Identifier.messages, Identifier.message])).mp hsame
  cases hcalls

end Omux.Engine
