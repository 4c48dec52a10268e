import Omux.Library.Binary
import Omux.Library.Fallible
import Omux.Library.Json

/-!
# The grant envelope

Grant payloads are stored sealed.  Key identity, account, grant, generation,
purpose and scope are authenticated with the ciphertext but not stored in it.
-/

namespace Omux.Storage

open Library

inductive StoreError where
  | accountForgotten | authenticationFailed | constraintViolation | databaseCorrupt
  | databaseFailure | databasePoisoned | generationExhausted | grantQuarantined | grantTooLarge
  | grantUnavailable | invalidContext | invalidEnvelope | invalidGeneration | invalidKeyIdentity
  | invalidOperation | invalidRecoveryAuthority | invalidRecoveryTransition | invalidSnapshot
  | missingKeyCheck | missingRecoveryAuthority | missingSchema | missingSnapshot | operationConflict
  | recordMissing | recoveryAuthenticationFailed | recoveryAuthorityAlreadyInitialized
  | recoveryAuthorityPoisoned | recoveryCheckpointMismatch | recoveryMigrationRequired
  | recoveryRollbackDetected | recoverySequenceExhausted | renewalNotOwned | revisionConflict
  | revisionExhausted | rotationConflict | rotationInProgress | secretInSnapshot
  | snapshotAdmissionMigrationRequired | snapshotAuthenticationFailed | snapshotTooLarge
  | staleGeneration | unsupportedSchema | wrongKey | wrongKeyIdentity | wrongRecoveryInstallation
deriving DecidableEq

abbrev Result := Except StoreError

/-- A key, a digest, a nonce or an installation identity. -/
abbrev Block := Vector UInt8 32

abbrev SealNonce := Vector UInt8 24

/-- The cipher of the standard library; a ciphertext is as long as its plaintext. -/
structure Aead where
  encrypt : Block -> SealNonce -> Bytes -> Bytes -> Bytes × Vector UInt8 16
  decrypt : Block -> SealNonce -> Bytes -> Bytes -> Vector UInt8 16 -> Option Bytes
  length_encrypt : forall key nonce ad plaintext,
    (encrypt key nonce ad plaintext).1.length = plaintext.length

structure Platform where
  sha256 : Bytes -> Block
  hmacSha256 : Block -> Bytes -> Block
  parseJson : Bytes -> Option JsonValue
  aead : Aead

/-- What was encrypted under the key and the nonce is all that decrypting it under them can
return. -/
def Aead.Correct (aead : Aead) (key : Block) (nonce : SealNonce) : Prop :=
  forall ad ad' plaintext opened,
    aead.decrypt key nonce ad (aead.encrypt key nonce ad' plaintext).1
      (aead.encrypt key nonce ad' plaintext).2 = some opened ->
    opened = plaintext

/-!
## Contexts
-/

structure GrantKey where
  accountId : Bytes
  grantId : Bytes
deriving DecidableEq

structure Context where
  keyId : Bytes
  accountId : Bytes
  grantId : Bytes
  generation : Nat
  purpose : Bytes
  scope : Bytes
deriving DecidableEq

def Context.grant (self : Context) : GrantKey :=
  { accountId := self.accountId, grantId := self.grantId }

def maximumContextField : Nat := 16 * 1024
def maximumPlaintext : Nat := 1024 * 1024
def envelopeMagic : Bytes := ascii "OMUXG001"
def headerLength : Nat := 48

def validField (field : Bytes) : Bool :=
  !field.isEmpty && decide (field.length <= maximumContextField)

def Context.validate (self : Context) : Result Unit := do
  failIf (self.generation == 0) .invalidGeneration
  checkAll (fun field => failIf (!validField field) .invalidContext)
    [self.keyId, self.accountId, self.grantId, self.purpose]
  failIf (decide (maximumContextField < self.scope.length)) .invalidContext

def associatedData (context : Context) : Result Bytes := do
  context.validate
  let fields := [context.keyId, context.accountId, context.grantId, context.purpose, context.scope]
  pure (envelopeMagic ++ littleEndian 8 context.generation ++
    fields.flatMap (fun field => littleEndian 4 field.length ++ field))

/-!
## Sealing and opening
-/

section Sealing

variable (platform : Platform)

def sealEnvelope (key : Block) (context : Context) (nonce : SealNonce)
    (plaintext : Bytes) : Result Bytes := do
  failIf (decide (maximumPlaintext < plaintext.length)) .grantTooLarge
  let ad <- associatedData context
  let sealed := platform.aead.encrypt key nonce ad plaintext
  pure (envelopeMagic ++ nonce.toList ++ sealed.2.toList ++ sealed.1)

def openEnvelope (key : Block) (context : Context) (sealed : Bytes) : Result Bytes := do
  failIf (decide (sealed.length < headerLength) ||
    decide (headerLength + maximumPlaintext < sealed.length)) .invalidEnvelope
  match splitFields [8, 24, 16, sealed.length - headerLength] sealed with
  | [magic, nonce, tag, ciphertext] => do
    failIf (magic != envelopeMagic) .invalidEnvelope
    let ad <- associatedData context
    orFail (platform.aead.decrypt key (arrayOf 24 nonce) ad ciphertext (arrayOf 16 tag))
      .authenticationFailed
  | _ => .error .invalidEnvelope

end Sealing

variable {platform : Platform} {context : Context}

theorem sealEnvelope_inv {key : Block} {nonce : SealNonce}
    {plaintext sealed : Bytes}
    (h : sealEnvelope platform key context nonce plaintext = .ok sealed) :
    exists ad, associatedData context = .ok ad ∧
      sealed = envelopeMagic ++ nonce.toList ++
        (platform.aead.encrypt key nonce ad plaintext).2.toList ++
        (platform.aead.encrypt key nonce ad plaintext).1 := by
  simp only [sealEnvelope, ok_iff] at h
  rcases h with ⟨_, _, ad, had, hsealed⟩
  exact ⟨ad, had, hsealed.symm⟩

theorem splitFields_sealed (nonce : SealNonce) (tag : Vector UInt8 16) (ciphertext : Bytes) :
    splitFields [8, 24, 16, (envelopeMagic ++ nonce.toList ++ tag.toList ++
        ciphertext).length - headerLength]
      (envelopeMagic ++ nonce.toList ++ tag.toList ++ ciphertext) =
      [envelopeMagic, nonce.toList, tag.toList, ciphertext] := by
  have hmagic : envelopeMagic.length = 8 := by decide
  have hsplit := splitFields_flatten [envelopeMagic, nonce.toList, tag.toList, ciphertext]
  simp only [List.map_cons, List.map_nil, hmagic, Vector.length_toList,
    List.flatten_cons, List.flatten_nil, List.append_nil] at hsplit
  have hlength : (envelopeMagic ++ nonce.toList ++ tag.toList ++ ciphertext).length -
      headerLength = ciphertext.length := by
    simp only [List.length_append, Vector.length_toList, headerLength]
    omega
  rw [hlength] at *
  simpa only [List.append_assoc] using hsplit

/-- Only the sealed plaintext comes out of an envelope under its key, in any context. -/
theorem openEnvelope_sealed {key : Block} {nonce : SealNonce}
    (hcorrect : platform.aead.Correct key nonce) {context context' : Context}
    {plaintext sealed opened : Bytes}
    (hseal : sealEnvelope platform key context' nonce plaintext = .ok sealed)
    (hopen : openEnvelope platform key context sealed = .ok opened) : opened = plaintext := by
  rcases sealEnvelope_inv hseal with ⟨_, _, rfl⟩
  simp only [openEnvelope, ok_iff] at hopen
  rcases hopen with ⟨_, _, hfields⟩
  rw [splitFields_sealed] at hfields
  simp only [ok_iff] at hfields
  rcases hfields with ⟨_, _, _, _, hdecrypt⟩
  rw [arrayOf_toList, arrayOf_toList] at hdecrypt
  exact hcorrect _ _ _ _ hdecrypt

/-!
## An ideal cipher
-/

/-- One call of `encrypt`. -/
structure Encryption where
  key : Block
  nonce : SealNonce
  ad : Bytes
  plaintext : Bytes
deriving DecidableEq

def Aead.output (aead : Aead) (call : Encryption) : Bytes × Vector UInt8 16 :=
  aead.encrypt call.key call.nonce call.ad call.plaintext

/-- After the calls `used`, a ciphertext with its tag decrypts exactly under the key, the
nonce and the associated data that were used for it, and to what was encrypted; no two calls
with different associated data gave the same ciphertext and tag. -/
structure Aead.Ideal (aead : Aead) (used : Encryption -> Prop) : Prop where
  decrypts : forall (call : Encryption) ciphertext tag,
    aead.decrypt call.key call.nonce call.ad ciphertext tag = some call.plaintext ↔
      used call ∧ aead.output call = (ciphertext, tag)
  apart : forall call other, used call -> used other ->
    aead.output call = aead.output other -> call.ad = other.ad

theorem associatedData_ok (h : context.validate = .ok ()) :
    associatedData context = .ok (envelopeMagic ++ (littleEndian 8 context.generation ++
      [context.keyId, context.accountId, context.grantId, context.purpose,
        context.scope].flatMap (prefixed 4))) := by
  rw [associatedData, h]
  rfl

theorem Context.short_of_valid (h : context.validate = .ok ()) :
    forall field, field ∈ [context.keyId, context.accountId, context.grantId, context.purpose,
      context.scope] -> field.length < 256 ^ 4 := by
  simp only [Context.validate, ok_iff, checkAll, validField, bool_iff] at h
  simp only [List.forall_mem_cons, maximumContextField] at *
  refine ⟨by omega, by omega, by omega, by omega, by omega, List.forall_mem_nil _⟩

theorem associatedData_inj {context other : Context} {ad : Bytes}
    (hgen : context.generation < 2 ^ 64) (hother : other.generation < 2 ^ 64)
    (h : associatedData context = .ok ad) (h' : associatedData other = .ok ad) :
    context = other := by
  have hvalid : context.validate = .ok () := (bind_eq_ok.mp h).choose_spec.1
  have hvalid' : other.validate = .ok () := (bind_eq_ok.mp h').choose_spec.1
  rw [associatedData_ok hvalid] at h
  rw [associatedData_ok hvalid', <- Except.ok.inj h] at h'
  have htail := List.append_cancel_left (Except.ok.inj h')
  rcases List.append_inj htail (by simp) with ⟨hgens, hfields⟩
  have hsame := littleEndian_inj hother hgen hgens
  have hall := (flatMap_prefixed_inj (s := []) (t := []) (by rfl) (Context.short_of_valid hvalid')
    (Context.short_of_valid hvalid) (congrArg (· ++ []) hfields)).1
  cases other
  simp_all

theorem openEnvelope_inv {key : Block} {bytes plaintext : Bytes}
    (h : openEnvelope platform key context bytes = .ok plaintext) :
    exists nonce tag ciphertext ad,
      bytes = envelopeMagic ++ nonce.toList ++ tag.toList ++ ciphertext ∧
      ciphertext.length <= maximumPlaintext ∧ associatedData context = .ok ad ∧
      platform.aead.decrypt key nonce ad ciphertext tag = some plaintext := by
  simp only [openEnvelope, ok_iff, splitFields, bool_iff] at h
  rcases h with ⟨_, ⟨hshort, _⟩, _, hmagic, ad, had, hdecrypt⟩
  refine ⟨_, _, _, ad, ?_, ?_, had, hdecrypt⟩
  · simp only [headerLength] at hshort
    have hflatten := flatten_splitFields [8, 24, 16, bytes.length - headerLength] bytes
    rw [List.take_of_length_le (by simp [headerLength]; omega)] at hflatten
    rw [toList_arrayOf (by simp; omega), toList_arrayOf (by simp; omega), <- hmagic]
    simpa [splitFields] using hflatten.symm
  · simp only [List.length_take]
    omega

/-- An envelope that was opened is what sealing its plaintext gives. -/
theorem sealed_of_open {used : Encryption -> Prop} (hideal : platform.aead.Ideal used)
    {key : Block} {bytes plaintext : Bytes}
    (h : openEnvelope platform key context bytes = .ok plaintext) :
    exists nonce ad, associatedData context = .ok ad ∧ used ⟨key, nonce, ad, plaintext⟩ ∧
      sealEnvelope platform key context nonce plaintext = .ok bytes := by
  rcases openEnvelope_inv h with ⟨nonce, _, _, ad, hbytes, hlength, had, hdecrypt⟩
  rcases (hideal.decrypts ⟨key, nonce, ad, plaintext⟩ _ _).mp hdecrypt with ⟨hused, houtput⟩
  rw [Aead.output] at houtput
  have hplain := platform.aead.length_encrypt key nonce ad plaintext
  rw [houtput] at hplain
  refine ⟨nonce, ad, had, hused, ?_⟩
  rw [sealEnvelope, <- hplain, decide_eq_false (not_lt.mpr hlength), failIf_false, bind_ok,
    had, bind_ok, houtput, hbytes]
  rfl

/-- Under an ideal cipher an envelope opens in the context it was sealed in and in no other,
and nothing else opens. -/
theorem opens_only_in_own_context (platform : Platform) (used : Encryption -> Prop)
    (hideal : platform.aead.Ideal used) (key : Block) :
    (forall context other nonce plaintext, context.validate = .ok () ->
      other.validate = .ok () -> context.generation < 2 ^ 64 -> other.generation < 2 ^ 64 ->
      plaintext.length <= maximumPlaintext ->
      (forall ad, associatedData context = .ok ad -> used ⟨key, nonce, ad, plaintext⟩) ->
      exists sealed, sealEnvelope platform key context nonce plaintext = .ok sealed ∧
        openEnvelope platform key other sealed =
          if context = other then .ok plaintext else .error .authenticationFailed) ∧
    forall context bytes plaintext, openEnvelope platform key context bytes = .ok plaintext ->
      exists nonce ad, associatedData context = .ok ad ∧ used ⟨key, nonce, ad, plaintext⟩ ∧
        sealEnvelope platform key context nonce plaintext = .ok bytes := by
  refine ⟨?_, fun _ _ _ => sealed_of_open hideal⟩
  intro context other nonce plaintext hvalid hother hgen hgen' hlength hused
  have had := associatedData_ok hvalid
  have had' := associatedData_ok hother
  generalize envelopeMagic ++ (littleEndian 8 context.generation ++ _) = ad at had
  generalize envelopeMagic ++ (littleEndian 8 other.generation ++ _) = ad' at had'
  have hplain := platform.aead.length_encrypt key nonce ad plaintext
  rcases houtput : platform.aead.encrypt key nonce ad plaintext with ⟨ciphertext, tag⟩
  rw [houtput] at hplain
  refine ⟨envelopeMagic ++ nonce.toList ++ tag.toList ++ ciphertext, ?_, ?_⟩
  · rw [sealEnvelope, decide_eq_false (not_lt.mpr hlength), failIf_false, bind_ok, had,
      bind_ok, houtput]
    rfl
  · have hsplit := splitFields_sealed nonce tag ciphertext
    have hmagic : envelopeMagic.length = 8 := by decide
    have hsize : (envelopeMagic ++ nonce.toList ++ tag.toList ++ ciphertext).length =
        headerLength + plaintext.length := by
      simp only [List.length_append, Vector.length_toList, hmagic, hplain, headerLength]
    rw [openEnvelope, hsplit, hsize, decide_eq_false (not_lt.mpr (Nat.le_add_right _ _)),
      decide_eq_false (not_lt.mpr (Nat.add_le_add_left hlength _))]
    simp only [bind_ok, had', arrayOf_toList]
    by_cases hsame : context = other
    · have hads : ad' = ad := Except.ok.inj (had'.symm.trans (hsame ▸ had))
      rw [if_pos hsame, hads, (hideal.decrypts ⟨key, nonce, ad, plaintext⟩ _ _).mpr
        ⟨hused ad had, houtput⟩]
      rfl
    · rw [if_neg hsame]
      cases hdecrypt : platform.aead.decrypt key nonce ad' ciphertext tag with
      | none => rfl
      | some opened =>
        rcases (hideal.decrypts ⟨key, nonce, ad', opened⟩ _ _).mp hdecrypt with ⟨hother', hout⟩
        have hads := hideal.apart ⟨key, nonce, ad, plaintext⟩ _ (hused ad had) hother'
          (houtput.trans hout.symm)
        rw [<- show ad = ad' from hads] at had'
        exact absurd (associatedData_inj hgen hgen' had had') hsame

/-- A cipher that has encrypted `call` and nothing else. -/
def onceAead (call : Encryption) : Aead where
  encrypt := fun _ _ _ plaintext => (plaintext, Vector.replicate 16 0)
  decrypt := fun key nonce ad ciphertext tag =>
    if Encryption.mk key nonce ad ciphertext = call ∧ tag = Vector.replicate 16 0 then
      some ciphertext
    else none
  length_encrypt := fun _ _ _ _ => rfl

theorem onceAead_ideal (call : Encryption) : (onceAead call).Ideal (· = call) where
  decrypts := by
    intro _ _ _
    simp only [onceAead, Aead.output, Option.ite_none_right_eq_some, Option.some.injEq,
      Prod.mk.injEq]
    constructor
    · rintro ⟨⟨hcall, htag⟩, hplain⟩
      exact ⟨by rw [<- hcall, hplain], hplain.symm, htag.symm⟩
    · rintro ⟨hcall, hplain, htag⟩
      exact ⟨⟨by rw [<- hplain, hcall], htag.symm⟩, hplain.symm⟩
  apart := by
    rintro _ _ rfl rfl _
    rfl

def sealedContext : Context where
  keyId := ascii "k"
  accountId := ascii "a"
  grantId := ascii "g"
  generation := 1
  purpose := ascii "p"
  scope := []

def oncePlatform : Platform where
  sha256 := fun _ => Vector.replicate 32 0
  hmacSha256 := fun _ _ => Vector.replicate 32 0
  parseJson := fun _ => none
  aead := onceAead
    { key := Vector.replicate 32 1
      nonce := Vector.replicate 24 2
      ad := envelopeMagic ++ (littleEndian 8 1 ++
        [ascii "k", ascii "a", ascii "g", ascii "p", []].flatMap (prefixed 4))
      plaintext := [7] }

theorem opens_in_sealedContext_only :
    (exists sealed, sealEnvelope oncePlatform (Vector.replicate 32 1) sealedContext
        (Vector.replicate 24 2) [7] = .ok sealed ∧
      openEnvelope oncePlatform (Vector.replicate 32 1) sealedContext sealed = .ok [7]) ∧
    exists sealed, sealEnvelope oncePlatform (Vector.replicate 32 1) sealedContext
        (Vector.replicate 24 2) [7] = .ok sealed ∧
      openEnvelope oncePlatform (Vector.replicate 32 1) { sealedContext with generation := 2 }
        sealed = .error .authenticationFailed := by
  have hopens := fun other hother hgen =>
    (opens_only_in_own_context oncePlatform _ (onceAead_ideal _) (Vector.replicate 32 1)).1
      sealedContext other (Vector.replicate 24 2) [7] (by decide) hother (by decide) hgen
      (by decide) (fun _ had => by
        rw [associatedData_ok (by decide)] at had
        rw [<- Except.ok.inj had]
        rfl)
  exact ⟨hopens sealedContext (by decide) (by decide),
    hopens { sealedContext with generation := 2 } (by decide) (by decide)⟩

end Omux.Storage
