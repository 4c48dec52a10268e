import Omux.Engine.Memory

/-!
# What the import handlers do

One inversion lemma for each function of the memory.  Releasing and reserving touch
the credits and their intents only.
-/

namespace Omux.Engine

open Library
open Admission (Key)
open Domain (State Grant)
open Envelope (OutcomeIntent)
open Observer (Completion)
open Storage (Tables GrantPut)
open Transport (Response)

namespace Memory

variable {m next : Memory}

/-!
## Credits
-/

theorem releaseOutcome_inv {key : Key} (h : m.releaseOutcome key = .ok next) :
    exists admission i intent, m.admission.release key = .ok admission ∧
      recordEntry OutcomeIntent.key m.outcomeIntents key = some (i, intent) ∧
      next = { m with
        admission, outcomeIntents := m.outcomeIntents.eraseIdx i } := by
  simp only [releaseOutcome, ok_iff, mapError_eq_ok] at h
  rcases h with ⟨admission, hadm, ⟨i, intent⟩, hentry, hnext⟩
  exact ⟨admission, i, intent, hadm, hentry, hnext.symm⟩

/-- Only the credits and the intents may differ. -/
def SameButCredits (m next : Memory) : Prop :=
  next = { m with admission := next.admission, outcomeIntents := next.outcomeIntents }

theorem SameButCredits.trans {mid : Memory} (h : SameButCredits m mid)
    (hnext : SameButCredits mid next) : SameButCredits m next := by
  unfold SameButCredits at h hnext ⊢
  rw [hnext, h]

theorem releaseOutcome_frame {key : Key} (h : m.releaseOutcome key = .ok next) :
    SameButCredits m next := by
  rcases releaseOutcome_inv h with ⟨_, _, _, _, _, rfl⟩
  rfl

theorem retireLoop_frame {selected : OutcomeIntent -> Bool} {rounds index : Nat}
    (h : retireLoop selected rounds index m = .ok next) : SameButCredits m next := by
  induction rounds generalizing index m with
  | zero =>
    cases h
    rfl
  | succ rounds ih =>
    unfold retireLoop at h
    split at h
    · cases h
      rfl
    · split at h
      · rw [bind_eq_ok] at h
        rcases h with ⟨_, hmid, hrest⟩
        exact (releaseOutcome_frame hmid).trans (ih hrest)
      · exact ih h

theorem retire_frame {selected : OutcomeIntent -> Bool} (h : m.retire selected = .ok next) :
    SameButCredits m next :=
  retireLoop_frame h

/-!
## Completions
-/

theorem finishImport_inv {platform : Platform} {custody : Tables} {pending : PendingImport}
    {completion : Completion} {identifiers : Identifiers} {times : Times} {put : GrantPut}
    (h : m.finishImport platform custody pending completion identifiers times = .ok (next, put)) :
    exists response proof allowed enrolled enrollment accountId generation unobserved
        granted out observed, m.checkCompletion pending completion times.checked = .ok response ∧
      identityProof platform.decoder pending response = .ok proof ∧
      permitted m.state pending proof times.permitted = .ok allowed ∧
      allowed.enroll (importEnrollment pending proof identifiers.account.bytes) times.enrolled =
        .ok (enrolled, enrollment) ∧
      enrollment.accountId = some accountId ∧
      custody.nextGeneration ⟨accountId, importGrantId enrolled pending proof accountId
        identifiers.grant.bytes⟩ = .ok generation ∧
      { m with state := enrolled }.retireObservationCredits none none
        (some (importGrantId enrolled pending proof accountId identifiers.grant.bytes)) =
        .ok unobserved ∧
      enrolled.addGrant (importGrant pending proof accountId (importGrantId enrolled pending
        proof accountId identifiers.grant.bytes) generation) = .ok (granted, out) ∧
      observeImport platform granted pending (importGrantId enrolled pending proof accountId
        identifiers.grant.bytes) response times.observed = .ok observed ∧
      ({ unobserved with state := observed }.setJobs (endJob pending .completed)).releaseOutcome
        pending.creditKey = .ok next ∧
      put = importPut platform pending proof (importGrant pending proof accountId
        (importGrantId enrolled pending proof accountId identifiers.grant.bytes)
        generation) := by
  simp only [finishImport, ok_iff, mapError_eq_ok, Prod.mk.injEq] at h
  rcases h with ⟨response, hresponse, proof, hproof, allowed, hallowed, ⟨enrolled, enrollment⟩,
    henrolled, accountId, hacct, generation, hgen, unobserved, hunobserved,
    ⟨granted, out⟩, hgranted, observed, hobs, _, hreleased, rfl, hput⟩
  have hstate : unobserved.state = enrolled := by rw [retire_frame hunobserved]
  rw [hstate] at hgranted
  exact ⟨response, proof, allowed, enrolled, enrollment, accountId, generation, unobserved,
    granted, out, observed, hresponse, hproof, hallowed, henrolled, hacct, hgen,
    hunobserved, hgranted, hobs, hreleased, hput.symm⟩

end Memory

end Omux.Engine
