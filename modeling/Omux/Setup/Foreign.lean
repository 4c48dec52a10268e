import Omux.Setup.Requests

/-!
# A config in neither state

Where the config is in neither state of the pending record, a call that nobody disturbs
reports a conflict, unless the config cannot be read at all or the call is refused before
it comes to the record.
-/

namespace Omux.Setup

open Library

/-- What a completion fails with: it could not read the config, or it did. -/
def conflictOf (disk : Disk) (record : Record) : SetupError :=
  match readFrom disk.files record.configPath with
  | .error err => err
  | .ok _ => .integrationConflict

/-- What a call answers over a config that is not its record's. -/
def foreignAnswer (disk : Disk) (record : Record) : Request -> Result Answer
  | .recover => do
    let _ <- readFrom disk.files record.configPath
    pure (.recovered .conflict)
  | .install selection => do
    refusal disk selection
    .error (conflictOf disk record)
  | .remove => .error (conflictOf disk record)

section

variable {env : Environment} {P : Disk -> Prop} {α β : Type} {result : Result α}
  {φ : α -> Prop}

theorem Reads.exact {task : Work α} (h : Reads env P task result φ) (hquiet : env.Quiet) :
    Reads env P task result (fun a => result = .ok a) :=
  h.post (fun _ _ hw => ⟨hw.1, hw.2.2 hquiet, hw.2.2⟩) (fun _ _ hw => hw) (fun _ hw => hw)

variable {err : SetupError}

theorem reads_fail (hother : err ≠ .system) : Reads env P (Task.fail err : Work α) (.error err) φ :=
  meets_fail (fun _ hw => ⟨hw, fun hsystem => absurd hsystem hother, fun _ _ => rfl⟩)

theorem reads_pass {cond : Bool} (h : cond = false) :
    Reads env P (Task.failWhen cond err) (pure ()) (fun _ => True) := by
  rw [h]
  exact reads_pure trivial

theorem reads_never {task : Work α} {next : α -> Work β} {ψ : β -> Prop}
    (h : Reads env P task (.error err) (fun _ => False)) :
    Reads env P (task >>= next) (.error err) ψ :=
  reads_bind (f := fun _ => .error err) h (fun _ hfalse => hfalse.elim)

end

section

variable {platform : Platform} {env : Environment} {disk : Disk} {record : Record}

theorem known_same (hquiet : env.Quiet) : Known env disk.files (fun other => other = disk) :=
  ⟨fun _ _ _ hloud _ => absurd hquiet hloud, fun _ _ h => by rw [h]⟩

theorem complete_foreign (hquiet : env.Quiet) (hforeign : ¬ Matching record disk) :
    Reads env (fun other => other = disk) (complete platform env record)
      (do
        let _ <- readFrom disk.files record.configPath
        pure .conflict) (fun recovery => recovery = .conflict) := by
  refine reads_after reads_interrupt ?_
  refine reads_bind ((readConfig_reads (known_same hquiet) _).exact hquiet)
    (fun current hcur => ?_)
  have hneither : (!record.isBefore current && !record.isAfter current) = true := by
    have hcur := snapshot_of_readFrom hcur
    rw [Bool.and_eq_true]
    constructor
    · cases hbefore : record.isBefore current with
      | false => rfl
      | true => exact absurd ⟨current, hcur, .inl hbefore⟩ hforeign
    · cases hafter : record.isAfter current with
      | false => rfl
      | true => exact absurd ⟨current, hcur, .inr hafter⟩ hforeign
  rw [if_pos hneither]
  exact reads_pure rfl

theorem completeOrFail_foreign (hquiet : env.Quiet) (hforeign : ¬ Matching record disk) :
    Reads env (fun other => other = disk) (completeOrFail platform env record)
      (.error (conflictOf disk record)) (fun _ => False) := by
  have hresult : ((do
      let _ <- readFrom disk.files record.configPath
      pure Recovery.conflict) >>= fun _ => (.error .integrationConflict : Result Unit)) =
      .error (conflictOf disk record) := by
    unfold conflictOf
    cases readFrom disk.files record.configPath <;> rfl
  rw [<- hresult]
  refine reads_bind (complete_foreign hquiet hforeign) (fun _ hclash => ?_)
  rw [hclash]
  exact reads_fail (by decide)

variable (hcustody : Custody platform (some record) disk)
  (hpend : record.phase.pending = true) (hquiet : env.Quiet)
  (hforeign : ¬ Matching record disk)
include hcustody hpend hquiet hforeign

theorem recover_foreign : Reads env (fun other => other = disk) (perform platform env .recover)
      (foreignAnswer disk record .recover) (fun _ => True) := by
  have hrecover : Reads env (fun other => other = disk) (recover platform env) (do
        let _ <- readFrom disk.files record.configPath
        pure .conflict) (fun recovery => recovery = .conflict) := by
    refine reads_after reads_interrupt ?_
    apply reads_loaded (fun other h => by rw [h]; exact hcustody)
    have hcomp : recoverRecord platform env record = complete platform env record := by
      unfold recoverRecord
      cases hphase : record.phase with
      | pendingInstall | pendingRemove => rfl
      | installed | removed => cases hphase ▸ hpend
    simp only [hcomp]
    exact complete_foreign hquiet hforeign
  have hresult : foreignAnswer disk record .recover = ((do
      let _ <- readFrom disk.files record.configPath
      pure Recovery.conflict) >>= fun recovery => pure (.recovered recovery)) := by
    unfold foreignAnswer
    cases readFrom disk.files record.configPath <;> rfl
  rw [hresult]
  exact reads_bind hrecover (fun recovery _ => reads_pure trivial)

theorem remove_foreign : Reads env (fun other => other = disk) (perform platform env .remove)
      (foreignAnswer disk record .remove) (fun _ => True) := by
  have hvalid := hcustody.valid record rfl
  have hload : forall other, other = disk -> Custody platform (some record) other := by
    intro other h
    rw [h]
    exact hcustody
  have hours : (record.phase != .removed && record.capability != platform.capability) =
      false := by
    rw [hvalid.capability, bne_self_eq_false, Bool.and_false]
  refine reads_never (reads_after ?_ (reads_loaded hload (reads_after (fits_reads hvalid.fits)
    (reads_after (reads_pass hours) ?_))))
  · exact reads_after reads_interrupt (reads_loaded hload (fits_reads hvalid.fits))
  · unfold removeOver
    cases hphase : record.phase with
    | pendingInstall | pendingRemove => exact reads_never (completeOrFail_foreign hquiet hforeign)
    | installed | removed => cases hphase ▸ hpend

theorem install_foreign (selection : Selection) :
    Reads env (fun other => other = disk) (perform platform env (.install selection))
      (foreignAnswer disk record (.install selection)) (fun _ => True) := by
  have hvalid := hcustody.valid record rfl
  have hload : forall other, other = disk -> Custody platform (some record) other := by
    intro other h
    rw [h]
    exact hcustody
  have hhex : (!platform.capability.toList.all isHex) = false := by
    rw [<- hvalid.capability, hvalid.encodable.capability]
    rfl
  have hrefusal : preflightedInstall disk.files selection (some record) =
      refusal disk selection := by
    unfold refusal preflightedInstall
    rw [hcustody.record_eq]
    cases hphase : record.phase with
    | pendingInstall | pendingRemove => simp [hphase]
    | installed | removed => cases hphase ▸ hpend
  have hover : Reads env (fun other => other = disk)
      (installOver platform env record selection) (.error (conflictOf disk record))
      (fun _ => False) := by
    unfold installOver
    cases hphase : record.phase with
    | pendingInstall | pendingRemove =>
      exact reads_after (fits_reads hvalid.fits)
        (reads_never (completeOrFail_foreign hquiet hforeign))
    | installed | removed => cases hphase ▸ hpend
  have hinstall : Reads env (fun other => other = disk) (install platform env selection)
      (refusal disk selection >>= fun _ => .error (conflictOf disk record))
      (fun _ => False) := by
    rw [<- hrefusal]
    refine reads_bind (φ := fun _ => True) ?_ (fun _ _ => ?_)
    · refine reads_after reads_interrupt (reads_loaded hload ?_)
      exact preflightInstall_reads (known_same hquiet) selection hcustody.valid
    · exact reads_after (reads_pass hhex) (reads_loaded hload hover)
  have hresult : foreignAnswer disk record (.install selection) =
      ((refusal disk selection >>= fun _ =>
        (.error (conflictOf disk record) : Result SetupOutcome)) >>= fun result =>
          pure (.installed result)) := by
    change (refusal disk selection >>= fun _ => .error (conflictOf disk record)) = _
    cases refusal disk selection <;> rfl
  rw [hresult]
  exact reads_bind hinstall (fun _ hfalse => hfalse.elim)

theorem perform_foreign (request : Request) :
    Reads env (fun other => other = disk) (perform platform env request)
      (foreignAnswer disk record request) (fun _ => True) := by
  cases request with
  | install selection => exact install_foreign hcustody hpend hquiet hforeign selection
  | remove => exact remove_foreign hcustody hpend hquiet hforeign
  | recover => exact recover_foreign hcustody hpend hquiet hforeign

end

end Omux.Setup
