import Mathlib.Logic.Relation
import Omux.Envelope.Check
import Omux.Native.RoundTrip

/-!
# Admission is closed under what it promised

Once an envelope was accepted, everything that its credits and reserves allow may
happen in any order, and every envelope on the way is accepted again.  The text of a
credit and its prepaid label have a common weight that no operation increases.
-/

namespace Omux.Envelope

open Library List
open Admission (Counts CountField Credit Ledger Key countLimit maximumCredits
  maximumSnapshotBytes stateGrowth validateKey)
open Domain (FloatFormat)
open Domain.FloatFormat (digits)

/-!
## The weight of a credit
-/

def Credit.weight (credit : Credit) : Nat :=
  (Credit.json credit).length + Credit.metadataGrowth credit

open Credit (weight metadataGrowth json)

theorem length_countsJson_mono {a b : Counts} (h : forall part, a part <= b part) :
    (countsShape.json a).length <= (countsShape.json b).length := by
  have hsum : forall parts : List CountField,
      (parts.map (fun part => (jsonString (CountField.name part)).length + 1 +
        (decimal (a part)).length)).sum <=
      (parts.map (fun part => (jsonString (CountField.name part)).length + 1 +
        (decimal (b part)).length)).sum := by
    intro parts
    induction parts with
    | nil => exact Nat.le_refl 0
    | cons part _ _ =>
      have hpart := length_decimal_mono (h part)
      simp only [map_cons, sum_cons]
      omega
  have hall := hsum CountField.all
  change (Shape.membersJson _ a).length <= (Shape.membersJson _ b).length
  rw [Shape.length_membersJson, Shape.length_membersJson]
  exact Nat.add_le_add_right (Nat.add_le_add_left hall 2) _

theorem length_creditJson (credit : Credit) :
    (json credit).length = 36 + (keyShape.json credit.key).length +
      (decimal credit.bytes).length + (countsShape.json credit.counts).length +
      credit.state.json.length := by
  have hkey : (jsonString (ascii "key")).length = 5 := by decide
  have hbytes : (jsonString (ascii "bytes")).length = 7 := by decide
  have hcounts : (jsonString (ascii "counts")).length = 8 := by decide
  have hstate : (jsonString (ascii "state")).length = 7 := by decide
  rw [json, length_jsonObject]
  simp only [map_cons, map_nil, sum_cons, sum_nil, length_cons,
    length_nil]
  omega

theorem weight_debit_le (credit : Credit) (bytes : Nat) (counts : Counts) :
    weight (credit.debit bytes counts) <= weight credit := by
  have hbytes := length_decimal_mono (Nat.sub_le credit.bytes bytes)
  have hcounts := length_countsJson_mono (fun part => Nat.sub_le (credit.counts part) (counts part))
  have hgrowth : metadataGrowth (credit.debit bytes counts) =
      metadataGrowth credit := rfl
  unfold weight
  rw [hgrowth, length_creditJson, length_creditJson]
  simp only [Credit.debit]
  omega

theorem weight_unsettle (credit : Credit) : weight credit.unsettle = weight credit := by
  have hlabels : Admission.State.reserved.json.length + stateGrowth =
      Admission.State.indeterminate.json.length := by decide
  cases hstate : credit.state with
  | reserved =>
    have hbefore : metadataGrowth credit = stateGrowth := by
      rw [metadataGrowth, hstate]
      rfl
    have hafter : metadataGrowth credit.unsettle = 0 := rfl
    unfold weight
    rw [length_creditJson, length_creditJson, hafter, hstate]
    simp only [Credit.unsettle]
    omega
  | indeterminate =>
    have hsame : credit.unsettle = credit := by rw [Credit.unsettle, <- hstate]
    rw [hsame]

/-!
## The weight of a ledger
-/

def creditsWeight (credits : List Credit) : Nat :=
  (credits.map weight).sum

theorem sum_weight (credits : List Credit) :
    ((credits.map json).map length).sum + metadataHeld credits =
      creditsWeight credits := by
  induction credits with
  | nil => rfl
  | cons _ _ ih =>
    simp only [metadataHeld, creditsWeight, weight, map_cons, sum_cons] at ih ⊢
    omega

/-- The text of the credits with their prepaid labels, beside a constant. -/
theorem length_admissionJson (l : Ledger) :
    (admissionJson l.snapshot).length + metadataHeld l.credits =
      26 + creditsWeight l.credits + (l.credits.length - 1) := by
  have hversion : (jsonString (ascii "version")).length = 9 := by decide
  have hcreds : (jsonString (ascii "credits")).length = 9 := by decide
  have hone : (decimal 1).length = 1 := by decide
  have hweight := sum_weight l.credits
  rw [admissionJson, length_jsonObject]
  simp only [Ledger.snapshot, map_cons, map_nil, sum_cons, sum_nil,
    length_cons, length_nil, length_jsonArray, length_map]
  omega

def held (l : Ledger) : Nat :=
  (admissionJson l.snapshot).length + metadataHeld l.credits + bytesHeld l.credits

/-- The fields of a ledger that an operation may only shrink. -/
structure Shrinks (bytes : Nat) (counts : Counts) (old new : Ledger) : Prop where
  held : held new + bytes <= held old
  counts : forall part, countsHeld new.credits part + counts part <= countsHeld old.credits part
  length : new.credits.length <= old.credits.length
  keys : forall credit, credit ∈ new.credits ->
    exists before, before ∈ old.credits ∧ before.key = credit.key

section Operations

variable {l next : Ledger} {key : Key}

theorem shrinks_set {i : Nat} {credit after : Credit} {bytes : Nat} {counts : Counts}
    (hindex : l.credits[i]? = some credit) (hnext : next.credits = l.credits.set i after)
    (hkey : after.key = credit.key) (hweight : weight after <= weight credit)
    (hbytes : after.bytes + bytes <= credit.bytes)
    (hcounts : forall part, after.counts part + counts part <= credit.counts part) :
    Shrinks bytes counts l next := by
  have hlength : next.credits.length = l.credits.length := by rw [hnext, length_set]
  constructor
  · have hweights := sum_map_set (f := weight) after hindex
    have hbytesSum := sum_map_set (f := Credit.bytes) after hindex
    have hold := length_admissionJson l
    have hnew := length_admissionJson next
    rw [hlength] at hnew
    simp only [held, creditsWeight, bytesHeld, hnext] at hold hnew ⊢
    omega
  · intro part
    have hsum := sum_map_set (f := fun credit => credit.counts part) after hindex
    have hpart := hcounts part
    simp only [countsHeld, hnext]
    omega
  · exact hlength.le
  · intro other hother
    rw [hnext] at hother
    rcases mem_or_eq_of_mem_set hother with hmem | heq
    · exact ⟨other, hmem, rfl⟩
    · exact ⟨credit, mem_of_getElem? hindex, by rw [heq, hkey]⟩

theorem shrinks_consume {bytes : Nat} {counts : Counts}
    (h : l.consumeWithCounts key bytes counts = .ok next) : Shrinks bytes counts l next := by
  simp only [Ledger.consumeWithCounts, ok_iff, bool_iff, not_lt, any_eq_false,
    exists_const] at h
  rcases h with ⟨⟨i, credit⟩, hindex, hbytes, hcounts, hnext⟩
  have hset : next.credits = l.credits.set i (credit.debit bytes counts) := by rw [<- hnext]
  refine shrinks_set (recordEntry_eq_some hindex).1 hset rfl
    (weight_debit_le credit bytes counts) ?_ ?_
  · exact (Nat.sub_add_cancel hbytes).le
  · intro part
    exact (Nat.sub_add_cancel (hcounts part (mem_countFields part))).le

theorem shrinks_mark (h : l.markIndeterminate key = .ok next) : Shrinks 0 Counts.zero l next := by
  rcases Ledger.markIndeterminate_inv h with ⟨i, credit, hindex, hnext⟩
  exact shrinks_set (recordEntry_eq_some hindex).1 hnext rfl
    ((weight_unsettle credit).le) (le_rfl) (fun _ => le_rfl)

theorem shrinks_release (h : l.release key = .ok next) : Shrinks 0 Counts.zero l next := by
  rcases Ledger.release_inv h with ⟨i, credit, _, hnext⟩
  have hsub : next.credits.Sublist l.credits := by
    rw [hnext]
    exact eraseIdx_sublist _ _
  have hsum : forall f : Credit -> Nat, (next.credits.map f).sum <= (l.credits.map f).sum := by
    intro f
    exact (hsub.map f).sum_le_sum (fun _ _ => Nat.zero_le _)
  constructor
  · have hweights := hsum weight
    have hbytes := hsum Credit.bytes
    have hlength := hsub.length_le
    have hold := length_admissionJson l
    have hnew := length_admissionJson next
    simp only [held, creditsWeight, bytesHeld] at hold hnew ⊢
    omega
  · intro part
    exact hsum (fun credit => credit.counts part)
  · exact hsub.length_le
  · intro other hother
    exact ⟨other, hsub.subset hother, rfl⟩

theorem shrinks_recover (l : Ledger) : Shrinks 0 Counts.zero l l.recoverAfterRestart := by
  have hweights : creditsWeight l.recoverAfterRestart.credits = creditsWeight l.credits := by
    simp [creditsWeight, Ledger.recoverAfterRestart, Function.comp_def, weight_unsettle]
  have hbytes : bytesHeld l.recoverAfterRestart.credits = bytesHeld l.credits := by
    simp [bytesHeld, Ledger.recoverAfterRestart, Function.comp_def, Credit.unsettle]
  have hlength : l.recoverAfterRestart.credits.length = l.credits.length := by
    simp [Ledger.recoverAfterRestart]
  constructor
  · have hold := length_admissionJson l
    have hnew := length_admissionJson l.recoverAfterRestart
    simp only [held]
    omega
  · intro _
    simp only [countsHeld, Ledger.recoverAfterRestart, map_map]
    exact le_rfl
  · exact hlength.le
  · intro _ hother
    rcases mem_map.mp hother with ⟨credit, hcredit, heq⟩
    exact ⟨credit, hcredit, by rw [<- heq]; rfl⟩

end Operations

/-!
## Candidates and their changes
-/

/-- A candidate as the engine composes it: the credits are those of its ledger, and the
reservations are those of the other ledgers. -/
structure Candidate where
  rest : Persisted
  admission : Ledger
  requestReserved : Nat
  mutationReserved : Nat
  nativeReserved : Nat

namespace Candidate

def full (c : Candidate) : Persisted :=
  { c.rest with snapshotAdmission := c.admission.snapshot }

def check (format : FloatFormat) (c : Candidate) : Result Usage :=
  checkEnvelopeWithNative format c.full c.requestReserved c.mutationReserved
    c.nativeReserved

/-- A ledger section stays as it is, or stays within a reservation that is not raised. -/
def Kept (oldBytes oldReserved newBytes newReserved : Nat) : Prop :=
  (newBytes = oldBytes ∧ newReserved = oldReserved) ∨
    (newBytes <= newReserved ∧ newReserved <= oldReserved)

structure LedgersKept (old new : Candidate) : Prop where
  request : Kept old.full.requestAuthority.text.length old.requestReserved
    new.full.requestAuthority.text.length new.requestReserved
  mutation : Kept old.full.mutationAuthority.text.length old.mutationReserved
    new.full.mutationAuthority.text.length new.mutationReserved
  native : Kept old.full.nativeOwnerAuthority.json.length old.nativeReserved
    new.full.nativeOwnerAuthority.json.length new.nativeReserved

/-- The rest of the text and the counted lists grow by no more than this. -/
structure Grows (format : FloatFormat) (bytes : Nat) (counts : Counts)
    (old new : Candidate) : Prop where
  bytes : new.full.outsideBytes format <= old.full.outsideBytes format + bytes
  counts : forall part, new.full.actualCounts part <= old.full.actualCounts part + counts part

/-- Everything that an accepted candidate has paid for. -/
inductive Step (format : FloatFormat) (old new : Candidate) : Prop where
  | consumed (key : Key) (bytes : Nat) (counts : Counts)
      (hconsume : old.admission.consumeWithCounts key bytes counts = .ok new.admission)
      (hgrows : Grows format bytes counts old new)
      (hmaintenance : new.rest.maintenanceGrowthBytes = old.rest.maintenanceGrowthBytes)
      (hkept : LedgersKept old new)
  | released (key : Key) (l : Ledger) (hrelease : old.admission.release key = .ok l)
      (hnew : new = { old with admission := l })
  | marked (key : Key) (l : Ledger) (hmark : old.admission.markIndeterminate key = .ok l)
      (hnew : new = { old with admission := l })
  | recovered (hnew : new = { old with admission := old.admission.recoverAfterRestart })
  | transferred (maintenance bytes : Nat) (hbytes : bytes <= maintenance)
      (hadmission : new.admission = old.admission)
      (hold : old.rest.maintenanceGrowthBytes = some maintenance)
      (hnew : new.rest.maintenanceGrowthBytes = some (maintenance - bytes))
      (hgrows : Grows format bytes Counts.zero old new)
      (hkept : LedgersKept old new)
  | rewritten (hadmission : new.admission = old.admission)
      (hmaintenance : new.rest.maintenanceGrowthBytes = old.rest.maintenanceGrowthBytes)
      (hgrows : Grows format 0 Counts.zero old new)
      (hkept : LedgersKept old new)

theorem ledgersKept_refl (c : Candidate) (l : Ledger) : LedgersKept c { c with admission := l } :=
  ⟨.inl ⟨rfl, rfl⟩, .inl ⟨rfl, rfl⟩, .inl ⟨rfl, rfl⟩⟩

theorem grows_of_admission (format : FloatFormat) (c : Candidate) (l : Ledger) :
    Grows format 0 Counts.zero c { c with admission := l } := by
  constructor
  · have hold := outsideBytes_credits format c.rest c.admission.snapshot
    have hnew := outsideBytes_credits format c.rest l.snapshot
    exact (hnew.trans hold.symm).le
  · intro part
    cases part <;> exact le_rfl

theorem shrinks_refl (l : Ledger) : Shrinks 0 Counts.zero l l :=
  ⟨le_rfl, fun _ => le_rfl, le_rfl, fun credit h => ⟨credit, h, rfl⟩⟩

theorem Kept.le {oldBytes oldReserved newBytes newReserved : Nat}
    (h : Kept oldBytes oldReserved newBytes newReserved) (hold : oldBytes <= oldReserved) :
    newBytes <= newReserved ∧ newReserved <= oldReserved := by
  rcases h with ⟨_, _⟩ | h
  · omega
  · exact h

variable {format : FloatFormat} {old new : Candidate}

def AdmittedWith (format : FloatFormat) (c : Candidate) (maintenance : Nat) : Prop :=
  Admitted format c.full c.requestReserved c.mutationReserved c.nativeReserved maintenance

/-- What is paid out of the credits and the reserve covers the growth of the rest. -/
theorem admitted_of_paid {before after bytes growth : Nat} {counts more : Counts}
    (h : AdmittedWith format old before)
    (hshrinks : Shrinks bytes counts old.admission new.admission)
    (hgrows : Grows format growth more old new) (hkept : LedgersKept old new)
    (hmaint : new.rest.maintenanceGrowthBytes = some after)
    (hbytes : growth + after <= bytes + before) (hcounts : forall part, more part <= counts part) :
    AdmittedWith format new after := by
  have hreq := hkept.request.le h.request
  have hmut := hkept.mutation.le h.mutation
  have hnative := hkept.native.le h.native
  constructor
  · exact hmaint
  · exact hreq.1
  · exact hmut.1
  · exact hnative.1
  · rfl
  · exact hshrinks.length.trans h.credits
  · intro credit hcredit
    rcases hshrinks.keys credit hcredit with ⟨previous, hprevious, hkey⟩
    rw [<- hkey]
    exact h.keys previous hprevious
  · intro part
    have hpart := h.counts part
    have hactual := hgrows.counts part
    have hheld := hshrinks.counts part
    have hmore := hcounts part
    simp only [full, Ledger.snapshot] at hpart hactual ⊢
    omega
  · have hfits := h.fits
    have houtside := hgrows.bytes
    have hheld := hshrinks.held
    simp only [footprint, held] at hfits hheld ⊢
    simp only [full] at hfits houtside ⊢
    simp only [Ledger.snapshot] at hfits hheld houtside ⊢
    omega

variable {maintenance : Nat}

theorem admitted_step (h : AdmittedWith format old maintenance)
    (hstep : Step format old new) : exists after, AdmittedWith format new after := by
  have hmaint : old.rest.maintenanceGrowthBytes = some maintenance := h.maintained
  cases hstep with
  | consumed key bytes counts hconsume hgrows hmaintenance hkept =>
    exact ⟨maintenance, admitted_of_paid h (shrinks_consume hconsume) hgrows hkept
      (hmaintenance.trans hmaint) (le_rfl) (fun _ => le_rfl)⟩
  | released key l hrelease hnew =>
    subst hnew
    exact ⟨maintenance, admitted_of_paid h (shrinks_release hrelease)
      (grows_of_admission format old l) (ledgersKept_refl old l) hmaint
      (le_rfl) (fun _ => le_rfl)⟩
  | marked key l hmark hnew =>
    subst hnew
    exact ⟨maintenance, admitted_of_paid h (shrinks_mark hmark)
      (grows_of_admission format old l) (ledgersKept_refl old l) hmaint
      (le_rfl) (fun _ => le_rfl)⟩
  | recovered hnew =>
    subst hnew
    exact ⟨maintenance, admitted_of_paid h (shrinks_recover old.admission)
      (grows_of_admission format old _) (ledgersKept_refl old _) hmaint
      (le_rfl) (fun _ => le_rfl)⟩
  | transferred before bytes hbytes hadm hold hnew hgrows hkept =>
    have hbefore : before = maintenance := by
      rw [hold] at hmaint
      exact Option.some.inj hmaint
    have hshrinks := shrinks_refl old.admission
    nth_rewrite 2 [<- hadm] at hshrinks
    exact ⟨before - bytes, admitted_of_paid h hshrinks hgrows hkept hnew (by omega)
      (fun _ => le_rfl)⟩
  | rewritten hadm hmaintenance hgrows hkept =>
    have hshrinks := shrinks_refl old.admission
    nth_rewrite 2 [<- hadm] at hshrinks
    exact ⟨maintenance, admitted_of_paid h hshrinks hgrows hkept
      (hmaintenance.trans hmaint) (le_rfl) (fun _ => le_rfl)⟩

theorem admitted_run (h : AdmittedWith format old maintenance)
    (hrun : Relation.ReflTransGen (Step format) old new) :
    exists after, AdmittedWith format new after := by
  induction hrun with
  | refl => exact ⟨maintenance, h⟩
  | tail _ hstep ih =>
    rcases ih with ⟨_, hmiddle⟩
    exact admitted_step hmiddle hstep

/-- Whatever an accepted candidate has promised may be taken, in any order and any
number of steps, and every candidate on the way is accepted and fits. -/
theorem accepted_after_promised_changes (hacc : Succeeds (old.check format))
    (hrun : Relation.ReflTransGen (Step format) old new) : Succeeds (new.check format) ∧
      (new.full.json format).length <= maximumSnapshotBytes := by
  rcases hacc with ⟨_, husage⟩
  rcases admitted_of_check husage with ⟨_, hadm, _⟩
  rcases admitted_run hadm hrun with ⟨_, hnew⟩
  constructor
  · exact check_of_admitted hnew
  · exact length_json_le hnew

/-!
## A run at its limits

The credit of an import is spent on the description of a source, the engine restarts,
and the rest of the credit is released.
-/

def importKey : Key where
  kind := .importing
  id := Vector.replicate 32 0x51
  generation := 1

def oneDescription : Counts
  | .sourceDescriptions => 1
  | _ => 0

def emptySection : Encoded := { text := ascii "\x7b\x7d" }

def importing : Candidate where
  rest :=
    { requestAuthority := emptySection
      mutationAuthority := emptySection
      maintenanceGrowthBytes := some 4096 }
  admission :=
    { credits := [{ key := importKey, bytes := 1024, counts := oneDescription }]
      futureBytes := 1024
      futureCounts := oneDescription }
  requestReserved := 256
  mutationReserved := 128
  nativeReserved := 64

def described : Candidate :=
  { importing with
    rest := { importing.rest with
      sourceDescriptions := [{ sourceId := ascii "s", provider := ascii "github" }] }
    admission := (importing.admission.consumeWithCounts importKey 100
      oneDescription).toOption.getD {} }

def restarted : Candidate :=
  { described with admission := described.admission.recoverAfterRestart }

def settled : Candidate :=
  { restarted with
    admission := (restarted.admission.release importKey).toOption.getD {} }

theorem outsideBytes_importing : importing.rest.outsideBytes digits <= 2048 := by
  decide +kernel

theorem outsideBytes_described :
    described.rest.outsideBytes digits <= importing.rest.outsideBytes digits + 100 := by
  have hold := length_json digits importing.rest
  have hnew := length_json digits described.rest
  have hbefore : (jsonArray (importing.rest.sourceDescriptions.map
      SourceDescription.json)).length = 2 := rfl
  have hafter : (jsonArray (described.rest.sourceDescriptions.map
      SourceDescription.json)).length <= 102 := by decide +kernel
  rw [Persisted.json, length_jsonObject] at hold hnew
  simp only [Persisted.fields, map_cons, sum_cons,
    length_cons, described] at hold hnew hbefore hafter ⊢
  omega

theorem check_of_small {c : Candidate} (houtside : c.rest.outsideBytes digits <= 2048)
    (hsmall : held c.admission + c.requestReserved + c.mutationReserved +
      c.nativeReserved + maintenance <= 65536)
    (h : forall part, c.full.actualCounts part + countsHeld c.admission.credits part <=
      countLimit part) (hmaint : c.rest.maintenanceGrowthBytes = some maintenance)
    (hreq : c.rest.requestAuthority.text.length <= c.requestReserved)
    (hmut : c.rest.mutationAuthority.text.length <= c.mutationReserved)
    (hnative : c.rest.nativeOwnerAuthority.json.length <= c.nativeReserved)
    (hcreds : c.admission.credits.length <= maximumCredits)
    (hkeys : forall credit, credit ∈ c.admission.credits -> validateKey credit.key = .ok ()) :
    Succeeds (c.check digits) := by
  refine check_of_admitted ⟨hmaint, hreq, hmut, hnative, rfl, hcreds, hkeys, h, ?_⟩
  have hwidth : (decimal maximumSnapshotBytes).length = 8 := by decide +kernel
  have hlimit : maximumSnapshotBytes = 16777216 := rfl
  have hcreds := outsideBytes_credits digits c.rest c.admission.snapshot
  simp only [held] at hsmall
  simp only [footprint, full, Ledger.snapshot] at hcreds hsmall ⊢
  omega

theorem check_importing : Succeeds (importing.check digits) := by
  refine check_of_small outsideBytes_importing (by decide +kernel) ?_ rfl
    (by decide +kernel) (by decide +kernel) (by decide +kernel) (by decide) ?_
  · intro part
    cases part <;> decide
  · intro _ hcredit
    rw [mem_singleton.mp hcredit]
    rfl

theorem accepted_after_promised_changes_settled : Succeeds (importing.check digits) ∧
      Relation.ReflTransGen (Step digits) importing settled ∧
      Succeeds (settled.check digits) ∧
      (settled.full.json digits).length <= maximumSnapshotBytes := by
  have hgrows : Grows digits 100 oneDescription importing described := by
    constructor
    · have hold := outsideBytes_credits digits importing.rest importing.admission.snapshot
      have hnew := outsideBytes_credits digits described.rest described.admission.snapshot
      have hrest := outsideBytes_described
      simp only [full]
      omega
    · intro part
      cases part <;> decide
  have hconsumed : Step digits importing described :=
    .consumed importKey 100 oneDescription (eq_ok_getD (by decide +kernel) {}) hgrows rfl
      ⟨.inl ⟨rfl, rfl⟩, .inl ⟨rfl, rfl⟩, .inl ⟨rfl, rfl⟩⟩
  have hrec : Step digits described restarted := .recovered rfl
  have hreleased : Step digits restarted settled :=
    .released importKey _ (eq_ok_getD (by decide +kernel) {}) rfl
  have hrun : Relation.ReflTransGen (Step digits) importing settled :=
    ((Relation.ReflTransGen.single hconsumed).tail hrec).tail hreleased
  exact ⟨check_importing, hrun, accepted_after_promised_changes check_importing hrun⟩

/-!
## What is not promised

Credits may hold all the slots of native owners.  One more owner within the reserved
bytes of the native ledger, which no credit was debited for, is then refused.  A debit
does not pay for a larger reserve of maintenance either, however short its number is.
-/

def allOwners : Counts
  | .nativeOwners => 256
  | _ => 0

def crowded : Candidate where
  rest := importing.rest
  admission :=
    { credits := [{ key := importKey, bytes := 1, counts := allOwners }]
      futureBytes := 1
      futureCounts := allOwners }
  requestReserved := 256
  mutationReserved := 128
  nativeReserved := 2048

def crowdedOwner : Candidate :=
  { crowded with
    rest := { crowded.rest with
      nativeOwnerAuthority := { owners := [Native.Ledger.sampleOwner] } } }

def overdrawn : Candidate :=
  { described with
    rest := { importing.rest with maintenanceGrowthBytes := some maximumSnapshotBytes } }

theorem uncounted_owner_refused : (Succeeds (crowded.check digits) ∧
      crowdedOwner.rest = { crowded.rest with
        nativeOwnerAuthority := crowdedOwner.rest.nativeOwnerAuthority } ∧
      crowdedOwner.admission = crowded.admission ∧ LedgersKept crowded crowdedOwner ∧
      ¬ Succeeds (crowdedOwner.check digits)) ∧
    (Succeeds (importing.check digits) ∧
      importing.admission.consumeWithCounts importKey 100 oneDescription =
        .ok overdrawn.admission ∧
      (overdrawn.rest.json digits).length <=
        (importing.rest.json digits).length + 100 ∧
      ¬ Succeeds (overdrawn.check digits)) := by
  refine ⟨⟨?_, rfl, rfl, ⟨.inl ⟨rfl, rfl⟩, .inl ⟨rfl, rfl⟩, .inr ⟨?_, le_rfl⟩⟩, ?_⟩,
    ⟨check_importing, eq_ok_getD (by decide +kernel) {}, ?_, ?_⟩⟩
  · refine check_of_small outsideBytes_importing (by decide +kernel) ?_ rfl
      (by decide +kernel) (by decide +kernel) (by decide +kernel) (by decide) ?_
    · intro part
      cases part <;> decide
    · intro _ hcredit
      rw [mem_singleton.mp hcredit]
      rfl
  · decide +kernel
  · intro hacc
    rcases hacc with ⟨usage, husage⟩
    rcases admitted_of_check husage with ⟨_, hadm, _⟩
    exact absurd (hadm.counts .nativeOwners) (by decide)
  · have hwidth : (decimal maximumSnapshotBytes).length = 8 := by decide +kernel
    simp only [Persisted.json, length_jsonObject, Persisted.fields, map_cons, sum_cons,
      length_cons, overdrawn, jsonOption]
    omega
  · intro hacc
    rcases hacc with ⟨usage, husage⟩
    rcases admitted_of_check husage with ⟨maintenance, hadm, _⟩
    have hsome : some maximumSnapshotBytes = some maintenance := hadm.maintained
    have hfits := hadm.fits
    have hwidth := length_decimal_pos maximumSnapshotBytes
    rw [<- Option.some.inj hsome, footprint] at hfits
    omega

end Candidate
end Omux.Envelope
