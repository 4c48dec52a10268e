import Omux.Setup.Intent

/-!
# The requests

Each request keeps the stage of its course from the first step to the last, and when it
returns the registry shows what it reports.
-/

namespace Omux.Setup

open Library List

section

variable {c : Course} {P : Disk -> Prop} {begun : Bool} {loaded : Option Record}
  {record : Record}

/-!
## The registry
-/

theorem proceeds_loaded {α : Type} {next : Option Record -> Work α} {Q : α -> Disk -> Prop}
    (hstage : forall disk, P disk -> c.Stage begun loaded disk)
    (hnext : c.Proceeds P (next loaded) Q) : c.Proceeds P (load c.env >>= next) Q := by
  refine proceeds_bind (proceeds_reads (load_reads (fun disk h => (hstage disk h).custody))
    (fun disk h => (hstage disk h).ended) ?_) (fun _ => ?_)
  · intro disk _ hdisk hother herr
    refine ⟨begun, loaded, hstage disk hdisk, fun hsystem => absurd hsystem hother, ?_⟩
    intro _ hquiet
    cases herr hquiet
  · intro w hw
    rw [hw.2.1]
    exact hnext w hw.1

theorem proceeds_fits {operation : Operation}
    (hstage : forall disk, P disk -> c.Stage begun (some record) disk) :
    c.Proceeds P (Task.lift (checkCompletion operation record.configPath)) (fun _ => P) := by
  apply proceeds_lift
  · intro disk _ _ hdisk
    exact hdisk
  · intro disk _ herr hdisk
    rw [((hstage disk hdisk).custody.valid record rfl).fits operation] at herr
    cases herr

theorem resultText_remove_le (selection : Selection) (path : Path) (changed : Bool) :
    (resultText .remove path changed).length <=
      (resultText (.install selection) path changed).length := by
  have hword : (jsonString (ascii "removed")).length <=
      (jsonString (ascii "installed")).length := by decide +kernel
  simp only [resultText, jsonObject, Operation.word, map_cons,
    commaSeparated, length_append]
  omega

variable {disk : Disk} {platform : Platform} {err : SetupError}

theorem fits_of_install {path : Path} (h : checkCompletion (.install selection) path = .ok ()) :
    Fits path := by
  intro operation
  cases operation with
  | install => exact h
  | remove =>
    have hfalse := resultText_remove_le selection path false
    have htrue := resultText_remove_le selection path true
    simp only [checkCompletion, checkAll, ok_iff, bool_iff, not_lt] at h ⊢
    rcases h with ⟨_, hinst, _, hchanged, _⟩
    exact ⟨(), hfalse.trans hinst, (), htrue.trans hchanged, trivial⟩

/-!
## A transaction of the call's own
-/

theorem completeOrFail_proceeds (hpend : record.phase.pending = true) (htraced : c.Traced begun) :
    c.Proceeds (c.Stage begun (some record)) (completeOrFail c.platform c.env record)
      (fun _ disk => exists saved, c.Stage begun (some saved) disk ∧
        saved.phase = record.phase.finished) := by
  refine proceeds_bind (complete_proceeds hpend htraced) (fun recovery => ?_)
  cases recovery with
  | none => nofun
  | conflict =>
    intro disk hdisk
    exact hdisk.1.stuck hpend (fun hquiet => (hdisk.2 hquiet).symm) (by decide)
  | installed | removed =>
    intro disk hdisk
    rcases hdisk with ⟨hphase, saved, hstage, hsaved⟩
    exact ⟨saved, hstage, by rw [hsaved, hphase]; rfl⟩

/-- A pending transaction is completed before the request goes on. -/
theorem completed_proceeds {α : Type} {next : Work α} {Q : α -> Disk -> Prop}
    (hbase : c.base.record = some record) (hpend : record.phase.pending = true)
    (hnext : forall saved : Record, saved.phase = record.phase.finished ->
      c.Proceeds (c.Stage false (some saved)) next Q) : c.Proceeds (c.Stage false (some record))
      (completeOrFail c.platform c.env record >>= fun _ => next) Q := by
  refine proceeds_bind (completeOrFail_proceeds hpend (fun _ _ => ⟨record, hbase, hpend⟩))
    (fun _ w hw => ?_)
  rcases hw with ⟨saved, hstage, hsaved⟩
  exact hnext saved hsaved w hstage

theorem begin_proceeds (hvalid : record.Valid c.platform) (hpend : record.phase.pending = true)
    (hidle : forall other, loaded = some other -> other.phase.pending = false) : c.Proceeds
      (fun disk => c.Stage false loaded disk ∧ (c.env.Quiet ->
        c.intent = some (settle c.platform (disk.saveRecord record record.bytes))))
      (begin c.platform c.env record)
      (fun _ disk => exists saved, c.Stage true (some saved) disk ∧
        saved.phase = record.phase.finished) := by
  have htraced : c.Traced true := by nofun
  refine proceeds_bind (proceeds_save (Q := c.Stage true (some record)) hvalid.encodable
    (fun _ h => h.1.ended) ?_ (fun _ h => h.ended)) (fun _ => ?_)
  · intro disk hdisk
    exact hdisk.1.saveNew hidle hvalid hpend hdisk.2
  · refine proceeds_bind (completeOrFail_proceeds hpend htraced) (fun _ => ?_)
    exact proceeds_pure (fun _ h => h)

theorem hexDigit_isHex : forall n : Fin 16, isHex (hexDigit n.val) = true := by decide

theorem lowerHex_isHex (bytes : List UInt8) : (lowerHex bytes).all isHex = true := by
  rw [all_eq_true]
  intro _ hbyte
  rw [lowerHex, mem_flatMap] at hbyte
  rcases hbyte with ⟨source, _, hbyte⟩
  have hsource := source.toNat_lt
  rw [mem_cons, mem_singleton] at hbyte
  rcases hbyte with rfl | rfl
  · exact hexDigit_isHex ⟨source.toNat / 16, by omega⟩
  · exact hexDigit_isHex ⟨source.toNat % 16, by omega⟩

theorem transactionId_proceeds (hended : forall disk, P disk -> c.Ended disk) :
    c.Proceeds P (transactionId c.env)
      (fun transaction disk => P disk ∧ transaction.toList.all isHex = true) := by
  refine proceeds_interrupted hended ?_
  refine proceeds_bind (Q := fun _ => P) (meets_read (fun _ h => h)) (fun random => ?_)
  intro disk hdisk
  refine ⟨hdisk, ?_⟩
  have hlength : (lowerHex random.toList).length = 32 := by
    rw [length_lowerHex, Vector.length_toList]
  rw [toList_arrayOf hlength]
  exact lowerHex_isHex _

theorem Course.Stage.there (h : c.Stage false loaded disk)
    (hidle : forall other, loaded = some other -> other.phase.pending = false)
    (hquiet : c.env.Quiet) : settle c.platform c.base = disk.standing := by
  have haim := h.aim hquiet
  rw [settle_eq_standing h.record_eq hidle] at haim
  exact haim.symm

/-- A record that starts from the config as it is leads to its end. -/
theorem settle_saveRecord (hvalid : record.Valid platform)
    (hpend : record.phase.pending = true) {current : Snapshot}
    (hcur : snapshot (disk.files record.configPath) = .ok current)
    (hbefore : record.isBefore current = true) :
    settle platform (disk.saveRecord record record.bytes) =
      endOf platform record disk.files current := by
  have hrecord := (Course.standing_saveRecord hvalid disk).1
  unfold endOf
  cases hafter : record.isAfter current with
  | true =>
    rw [settle_after hrecord hpend hcur hafter]
    rfl
  | false =>
    rw [settle_before hrecord hpend hcur hafter hbefore]
    rfl

theorem isBefore_self {current : Snapshot} (hexisted : record.beforeExisted = current.existed)
    (hmode : record.beforeMode = current.mode) (hbytes : record.before = current.bytes) :
    record.isBefore current = true := by
  simp [Record.isBefore, Snapshot.matchesState, hexisted, hmode, hbytes]

theorem installRecord_valid {before : Snapshot} {file : Option File} {transaction : Transaction}
    {path : Path} {installed : Bytes} (hhex : platform.capability.toList.all isHex = true)
    (htx : transaction.toList.all isHex = true) (hparent : openParent path = .ok ())
    (hbefore : snapshot file = .ok before) (hinst : installed.length <= maximumConfig)
    (hfits : Fits path) :
    (installRecord platform before transaction path installed).Valid platform := by
  have hsnap := snapshot_inv hbefore
  simp only [openParent, ok_iff, bool_iff, not_lt] at hparent
  rcases hparent with ⟨_, hpath, hlength⟩
  refine ⟨⟨hsnap.1, hsnap.1, hsnap.1, hhex, htx, hpath, ?_⟩, rfl, hfits,
    fun hgone => by cases hgone⟩
  simp only [Record.fields, fieldLimits, forall₂_cons]
  exact ⟨hlength, hsnap.2.1, hinst, hsnap.2.1, hinst, Forall₂.nil⟩

theorem removeRecord_valid {before : Snapshot} {file : Option File} {transaction : Transaction}
    {restored : Bytes} (hrecord : record.Valid platform)
    (htx : transaction.toList.all isHex = true) (hbefore : snapshot file = .ok before)
    (hrest : removeConfig before.bytes record.installed record.original = .ok restored) :
    (removeRecord record before transaction restored).Valid platform := by
  have hsnap := snapshot_inv hbefore
  have hlens := hrecord.encodable.lengths
  simp only [Record.fields, fieldLimits, forall₂_cons] at hlens
  have hlength : restored.length <= maximumConfig :=
    (length_removeConfig hrest).trans (Nat.max_le.mpr ⟨hsnap.2.1, hlens.2.1⟩)
  refine ⟨⟨hrecord.encodable.originalMode, hsnap.1, hsnap.1, hrecord.encodable.capability,
    htx, hrecord.encodable.path, ?_⟩, hrecord.capability, hrecord.fits, ?_⟩
  · simp only [Record.fields, fieldLimits, forall₂_cons]
    exact ⟨hlens.1, hlens.2.1, hlens.2.2.1, hsnap.2.1, hlength, Forall₂.nil⟩
  · intro hgone
    simp only [removeRecord, bool_iff, List.isEmpty_iff] at hgone
    exact hgone.2

section

variable (hidle : forall other, loaded = some other -> other.phase.pending = false)
include hidle

theorem known_there : Known c.env (settle c.platform c.base).files (c.Stage false loaded) := by
  refine ⟨Course.Stage.stable c false loaded, ?_⟩
  intro _ hquiet hdisk
  rw [hdisk.there hidle hquiet]
  rfl

theorem installNew_proceeds (hhex : c.platform.capability.toList.all isHex = true)
    (hintent : c.env.Quiet -> c.intent =
      (newInstall c.platform (settle c.platform c.base).files selection).toOption) :
    c.Proceeds (c.Stage false loaded) (installNew c.platform c.env selection)
      (fun _ disk => exists saved, c.Stage true (some saved) disk ∧
        saved.phase = .installed) := by
  have hknown := known_there (c := c) hidle
  refine proceeds_bind (proceeds_reads (prepareInstall_reads hknown selection)
    (fun _ h => h.ended) ?_) (fun prepared => ?_)
  · intro disk _ hdisk hother herr
    apply hdisk.failed hidle hother
    intro hquiet _
    rw [hintent hquiet, newInstall, herr hquiet]
    rfl
  rcases prepared with ⟨path, before, _⟩
  refine proceeds_bind (transactionId_proceeds (fun _ h => h.1.ended)) (fun _ => ?_)
  intro w hw
  rcases hw with ⟨⟨hstage, ⟨hfits, ⟨hparent, _, hfile⟩, hlength⟩, hprep⟩, htx⟩
  have hvalid := installRecord_valid hhex htx hparent hfile hlength (fits_of_install hfits)
  refine begin_proceeds hvalid rfl hidle w ⟨hstage, fun hquiet => ?_⟩
  have hfiles := hknown.files w.disk hquiet hstage
  have hbefore : snapshot (w.disk.files path) = .ok before := by
    have hread := hprep hquiet
    simp only [preparedInstall, ok_iff, Prod.mk.injEq] at hread
    rcases hread with ⟨_, _, _, hbefore', _, _, _, _, rfl, rfl, _⟩
    rw [hfiles]
    exact snapshot_of_readFrom hbefore'
  rw [hintent hquiet, newInstall, hprep hquiet, settle_saveRecord hvalid rfl hbefore
    (isBefore_self rfl rfl rfl), hfiles]
  rfl

theorem removeNew_proceeds (hrecord : record.Valid c.platform)
    (hintent : c.env.Quiet -> c.intent =
      (newRemoval c.platform (settle c.platform c.base).files record).toOption) :
    c.Proceeds (c.Stage false loaded) (removeNew c.platform c.env record)
      (fun _ disk => exists saved, c.Stage true (some saved) disk ∧
        saved.phase = .removed) := by
  have hknown := known_there (c := c) hidle
  refine proceeds_bind (proceeds_reads (prepareRemove_reads hknown record)
    (fun _ h => h.ended) ?_) (fun prepared => ?_)
  · intro disk _ hdisk hother herr
    apply hdisk.failed hidle hother
    intro hquiet _
    rw [hintent hquiet, newRemoval, herr hquiet]
    rfl
  rcases prepared with ⟨before, _⟩
  refine proceeds_bind (transactionId_proceeds (fun _ h => h.1.ended)) (fun _ => ?_)
  intro w hw
  rcases hw with ⟨⟨hstage, ⟨⟨_, _, hfile⟩, hrest⟩, hprep⟩, htx⟩
  have hvalid := removeRecord_valid hrecord htx hfile hrest
  refine begin_proceeds hvalid rfl hidle w ⟨hstage, fun hquiet => ?_⟩
  have hfiles := hknown.files w.disk hquiet hstage
  have hbefore : snapshot (w.disk.files record.configPath) = .ok before := by
    have hread := hprep hquiet
    simp only [preparedRemove, ok_iff, Prod.mk.injEq] at hread
    rcases hread with ⟨_, hbefore', _, _, rfl, _⟩
    rw [hfiles]
    exact snapshot_of_readFrom hbefore'
  rw [hintent hquiet, newRemoval, hprep hquiet, settle_saveRecord hvalid rfl hbefore
    (isBefore_self rfl rfl rfl), hfiles]
  rfl

end

/-!
## Recovery
-/

theorem known_stage (hidle : record.phase.pending = false) :
    Known c.env (settle c.platform c.base).files (c.Stage false (some record)) :=
  known_there (forall_some hidle)

theorem Course.Stage.failed_idle (h : c.Stage false (some record) disk)
    (hidle : record.phase.pending = false) (hnone : c.intent = none) (hother : err ≠ .system) :
    c.Broken err disk :=
  h.failed (forall_some hidle) hother (fun _ _ => hnone)

theorem verifyInstalled_proceeds (hidle : record.phase.pending = false) (hnone : c.intent = none) :
    c.Proceeds (c.Stage false (some record)) (verifyInstalled c.env record)
      (fun _ => c.Stage false (some record)) := by
  refine proceeds_weaken (proceeds_reads (verifyInstalled_reads (known_stage hidle) record)
    (fun _ h => h.ended) ?_) (fun _ h => h) (fun _ _ h => h.1)
  intro _ _ hdisk hother _
  exact hdisk.failed_idle hidle hnone hother

theorem isIntact_proceeds (hidle : record.phase.pending = false) (hnone : c.intent = none) :
    c.Proceeds (c.Stage false (some record)) (isIntact c.env record)
      (fun _ => c.Stage false (some record)) := by
  have hreads := verifyInstalled_reads (known_stage (c := c) hidle) record
  refine meets_handle (F := fun err w => c.Stage false (some record) w.disk ∧
    (err = .system -> ¬ c.env.Calm)) ?_ (fun err => ?_)
  · refine meets_bind (Q := fun _ w => c.Stage false (some record) w.disk) ?_
      (fun _ => meets_pure (fun _ h => h))
    exact hreads.post (fun _ _ h => h.1) (fun _ _ h => ⟨h.1, h.2.1⟩) (fun _ h => ⟨h.1.ended, h.2⟩)
  · cases hclash : isConflict err with
    | true => exact meets_pure (fun _ h => h.1)
    | false =>
      intro w hw
      by_cases hsystem : err = .system
      · exact ⟨false, some record, hw.1, hw.2, fun hother => absurd hsystem hother⟩
      · exact hw.1.failed_idle hidle hnone hsystem

def Recovered (c : Course) (recovery : Recovery) (disk : Disk) : Prop :=
  match recovery with
  | .none => c.Stage false none disk
  | .conflict => exists saved, c.Stage false (some saved) disk ∧
      (c.env.Quiet -> disk.standing = settle c.platform disk)
  | .installed => exists saved, c.Stage false (some saved) disk ∧ saved.phase = .installed
  | .removed => exists saved, c.Stage false (some saved) disk ∧ saved.phase = .removed

theorem Completed.recovered {recovery : Recovery} (h : Completed c false record recovery disk) :
    Recovered c recovery disk := by
  cases recovery with
  | none => cases h
  | conflict => exact ⟨record, h⟩
  | installed | removed => exact h.2

theorem Course.Stage.capability_installed (h : c.Stage begun (some record) disk)
    (hphase : record.phase = .installed) : disk.capability = some record.capability.toList := by
  have hfits := h.custody.capability
  rw [Option.map_some, hphase] at hfits
  rw [(h.custody.valid record rfl).capability]
  exact hfits

theorem Course.Stage.capability_removed (h : c.Stage begun (some record) disk)
    (hphase : record.phase = .removed) : disk.capability = none := by
  have hfits := h.custody.capability
  rw [Option.map_some, hphase] at hfits
  exact hfits

theorem pending_false_of_phase (hphase : record.phase = .installed ∨ record.phase = .removed) :
    record.phase.pending = false := by
  rcases hphase with h | h <;> rw [h] <;> rfl

theorem recoverRecord_proceeds (hbase : c.base.record = some record)
    (hvalid : record.Valid c.platform) (hnone : c.intent = none) :
    c.Proceeds (c.Stage false (some record)) (recoverRecord c.platform c.env record)
      (Recovered c) := by
  unfold recoverRecord
  cases hphase : record.phase with
  | installed =>
    have hours : ¬ (record.capability != c.platform.capability) = true := by
      rw [hvalid.capability, bne_self_eq_false]
      exact Bool.false_ne_true
    have hidle := pending_false_of_phase (.inl hphase)
    simp only [if_neg hours]
    refine proceeds_bind (isIntact_proceeds hidle hnone) (fun intact => ?_)
    cases intact with
    | true =>
      refine proceeds_bind (ensureCapability_present (fun _ h => h.ended)
        (fun _ h => h.capability_installed hphase)) (fun _ => ?_)
      exact proceeds_pure (fun _ h => ⟨record, h, hphase⟩)
    | false =>
      intro _ hdisk
      exact ⟨record, hdisk, fun _ => (settle_eq_standing hdisk.record_eq (forall_some hidle)).symm⟩
  | removed =>
    refine proceeds_bind (revokeCapability_absent (fun _ h => h.ended)
      (fun _ h => h.capability_removed hphase)) (fun _ => ?_)
    exact proceeds_pure (fun _ h => ⟨record, h, hphase⟩)
  | pendingInstall | pendingRemove =>
    have hpend : record.phase.pending = true := hphase ▸ rfl
    exact proceeds_weaken (complete_proceeds hpend (fun _ _ => ⟨record, hbase, hpend⟩))
      (fun _ h => h) (fun _ _ h => h.recovered)

theorem recover_proceeds (hbase : c.base.record = loaded) (hnone : c.intent = none)
    (hvalid : forall record, loaded = some record -> record.Valid c.platform) :
    c.Proceeds (c.Stage false loaded) (recover c.platform c.env) (Recovered c) := by
  refine proceeds_interrupted (fun _ h => h.ended) ?_
  apply proceeds_loaded (fun _ h => h)
  cases loaded with
  | none => exact proceeds_pure (fun _ h => h)
  | some record => exact recoverRecord_proceeds hbase (hvalid record rfl) hnone

/-!
## Install
-/

variable {selection : Selection}

theorem settle_base (hbase : c.base.record = loaded)
    (hidle : forall other, loaded = some other -> other.phase.pending = false) :
    settle c.platform c.base = c.base.standing :=
  settle_eq_standing hbase hidle

theorem intendedInstall_eq (hrefusal : refusal disk selection = .ok ())
    (hhex : platform.capability.toList.all isHex = true)
    (hphase : (settle platform disk).phase = none ∨ (settle platform disk).phase = some .removed) :
    intendedInstall platform disk selection =
      newInstall platform (settle platform disk).files selection := by
  have hguard : (settle platform disk).phase.any (fun phase => phase != .removed) = false := by
    rcases hphase with h | h <;> rw [h] <;> rfl
  rw [intendedInstall, hrefusal, hhex, Bool.not_true]
  simp [hguard, bind_ok]

theorem intendedInstall_choice
    (hchoice : choice (settle platform disk).files selection = .error err) :
    (intendedInstall platform disk selection).toOption = none := by
  refine toOption_eq_none (fun _ hstand => ?_)
  have hprep : preparedInstall (settle platform disk).files selection = .error err := by
    rw [preparedInstall, hchoice, bind_error]
  simp only [intendedInstall, newInstall, ok_iff, hprep] at hstand
  rcases hstand with ⟨_, _, _, _, _, _, _, hpath, _⟩
  cases hpath

theorem intendedInstall_refused (hrefusal : refusal disk selection = .error err) :
    (intendedInstall platform disk selection).toOption = none := by
  rw [intendedInstall, hrefusal]
  rfl

theorem intendedInstall_phase {phase : Phase} (hphase : (settle platform disk).phase = some phase)
    (hother : phase ≠ .removed) : (intendedInstall platform disk selection).toOption = none := by
  exact toOption_eq_none (by simp [intendedInstall, bind_eq_ok, hphase, hother])

theorem refusal_of_phase
    (hphase : forall record, disk.record = some record -> record.phase ≠ .pendingRemove) :
    refusal disk selection = .ok () := by
  unfold refusal
  cases hrecord : disk.record with
  | none => rfl
  | some record => simp [hphase record hrecord, pure, Except.pure]

/-- At the start of an install the files are those it found. -/
abbrev Fresh (c : Course) (loaded : Option Record) (disk : Disk) : Prop :=
  c.Stage false loaded disk ∧ (c.env.Quiet -> disk.files = c.base.files)

theorem known_fresh (c : Course) (loaded : Option Record) :
    Known c.env c.base.files (Fresh c loaded) :=
  ⟨fun _ path file hloud h => ⟨h.1.edited hloud path file, fun hquiet => absurd hquiet hloud⟩,
    fun _ hquiet h => h.2 hquiet⟩

theorem preflightedInstall_refusal {u : Unit}
    (h : preflightedInstall disk.files selection disk.record = .ok u) :
    refusal disk selection = .ok () := by
  unfold refusal
  cases hrecord : disk.record with
  | none => rfl
  | some record =>
    rw [hrecord] at h
    cases hphase : record.phase with
    | pendingRemove =>
      simp only [preflightedInstall] at h
      simpa [hphase] using h
    | removed | installed | pendingInstall => simp [hphase, pure, Except.pure]

/-- A call that returns: its phase is in the registry, and if it begun nothing it was
not meant to. -/
def Returned (c : Course) (phase : Phase) (disk : Disk) : Prop :=
  exists begun saved, c.Stage begun (some saved) disk ∧ saved.phase = phase ∧
    (c.env.Quiet -> begun = false -> c.intent = none)

theorem returned_begun {phase : Phase}
    (h : exists saved, c.Stage true (some saved) disk ∧ saved.phase = phase) :
    Returned c phase disk := by
  rcases h with ⟨saved, hstage, hphase⟩
  exact ⟨true, saved, hstage, hphase, nofun⟩

theorem Course.Stage.phase_there {phase : Phase} (h : c.Stage false (some record) disk)
    (hphase : record.phase = phase) (hidle : phase.pending = false) (hquiet : c.env.Quiet) :
    (settle c.platform c.base).phase = some phase := by
  subst hphase
  rw [h.there (forall_some hidle) hquiet, Disk.standing, h.record_eq]
  rfl

theorem installOver_proceeds (hbase : c.base.record = some record)
    (hvalid : record.Valid c.platform)
    (hintent : c.intent = (intendedInstall c.platform c.base selection).toOption)
    (hrefusal : c.env.Quiet -> refusal c.base selection = .ok ()) :
    c.Proceeds (c.Stage false (some record)) (installOver c.platform c.env record selection)
      (fun _ => Returned c .installed) := by
  have hhex : c.platform.capability.toList.all isHex = true := by
    rw [<- hvalid.capability]
    exact hvalid.encodable.capability
  have hnew : forall saved : Record, saved.phase = .removed ->
      c.Proceeds (c.Stage false (some saved)) (installNew c.platform c.env selection)
        (fun _ => Returned c .installed) := by
    intro saved hsaved w hw
    have hidle := pending_false_of_phase (.inr hsaved)
    refine proceeds_weaken (installNew_proceeds (forall_some hidle) hhex ?_) (fun _ h => h)
      (fun _ _ h => returned_begun h) w hw
    intro hquiet
    have hphase := hw.phase_there hsaved rfl hquiet
    rw [hintent, intendedInstall_eq (hrefusal hquiet) hhex (.inr hphase)]
  unfold installOver
  cases hphase : record.phase with
  | removed => exact hnew record hphase
  | pendingRemove =>
    refine proceeds_bind (proceeds_fits (fun _ h => h)) (fun _ => ?_)
    refine completed_proceeds hbase (hphase ▸ rfl) (fun saved hsaved => ?_)
    rw [hphase] at hsaved
    exact hnew saved hsaved
  | pendingInstall =>
    refine proceeds_bind (proceeds_fits (fun _ h => h)) (fun _ => ?_)
    refine completed_proceeds hbase (hphase ▸ rfl) (fun saved hsaved disk hstage => ?_)
    rw [hphase] at hsaved
    refine ⟨false, saved, hstage, hsaved, fun hquiet _ => ?_⟩
    rw [hintent]
    exact intendedInstall_phase (hstage.phase_there hsaved rfl hquiet) (by decide)
  | installed =>
    have hidle := pending_false_of_phase (.inl hphase)
    have hnone : c.intent = none := by
      have hthere : (settle c.platform c.base).phase = some .installed := by
        rw [settle_base hbase (forall_some hidle), Disk.standing, hbase, <- hphase]
        rfl
      rw [hintent]
      exact intendedInstall_phase hthere (by decide)
    refine proceeds_bind (proceeds_fits (fun _ h => h)) (fun _ => ?_)
    refine proceeds_bind (Q := fun _ => c.Stage false (some record)) (proceeds_failWhen
      (fun _ _ h => h) ?_) (fun _ => ?_)
    · intro disk hdiffers _
      rw [hvalid.capability, bne_self_eq_false] at hdiffers
      cases hdiffers
    refine proceeds_bind (Q := fun _ => c.Stage false (some record)) (proceeds_failWhen
      (fun _ _ h => h) ?_) (fun _ => ?_)
    · intro disk _ hdisk
      exact hdisk.failed_idle hidle hnone (by decide)
    refine proceeds_bind (verifyInstalled_proceeds hidle hnone) (fun _ => ?_)
    refine proceeds_bind (ensureCapability_present (fun _ h => h.ended)
      (fun _ h => h.capability_installed hphase)) (fun _ => ?_)
    exact proceeds_pure (fun _ h => ⟨false, record, h, hphase, fun _ _ => hnone⟩)

section

variable (hbase : c.base.record = loaded)
  (hintent : c.intent = (intendedInstall c.platform c.base selection).toOption)
  (hrefused : forall err, refusal c.base selection = .error err -> c.refused)
include hbase hintent hrefused

/-- A refusal before the record is looked at, or one where no record is pending. -/
theorem preflight_broken (hdisk : c.Stage false loaded disk) (hother : err ≠ .system)
    (herr : c.env.Quiet -> preflightedInstall c.base.files selection loaded = .error err) :
    c.Broken err disk := by
  refine ⟨false, loaded, hdisk, fun hsystem => absurd hsystem hother, ?_⟩
  intro _ hquiet
  have hfailed := herr hquiet
  have hidleCase : forall hidle : (forall other, loaded = some other ->
      other.phase.pending = false), choice c.base.files selection = .error err ->
      (disk.standing = settle c.platform disk ∨ c.refused) ∧
        (false = false -> c.intent = none) := by
    intro hidle hchoice
    refine ⟨.inl (settle_eq_standing hdisk.record_eq hidle).symm, fun _ => ?_⟩
    rw [hintent]
    rw [<- show (settle c.platform c.base).files = c.base.files by
      rw [settle_base hbase hidle]; rfl] at hchoice
    exact intendedInstall_choice hchoice
  have hchoice : forall u : Result Path, (do let _ <- u; pure ()) = (.error err : Result Unit) ->
      u = .error err := by
    intro u hu
    cases u with
    | ok => cases hu
    | error =>
      cases hu
      rfl
  cases loaded with
  | none => exact hidleCase nofun (hchoice _ hfailed)
  | some record =>
    cases hphase : record.phase with
    | removed =>
      simp only [preflightedInstall, hphase] at hfailed
      exact hidleCase (forall_some (pending_false_of_phase (.inr hphase))) (hchoice _ hfailed)
    | pendingRemove =>
      simp only [preflightedInstall] at hfailed
      have hrefusal : refusal c.base selection = .error err := by
        rw [<- hfailed]
        simp [refusal, hbase, hphase]
      refine ⟨.inr (hrefused err hrefusal), fun _ => ?_⟩
      rw [hintent]
      exact intendedInstall_refused hrefusal
    | installed | pendingInstall =>
      simp only [preflightedInstall, hphase] at hfailed
      cases hfailed

variable (hvalid : forall record, loaded = some record -> record.Valid c.platform)
include hvalid

theorem preflightInstall_proceeds :
    c.Proceeds (Fresh c loaded) (preflightInstall c.env selection loaded)
      (fun _ disk => Fresh c loaded disk ∧
        (c.env.Quiet -> refusal c.base selection = .ok ())) := by
  refine proceeds_weaken (proceeds_reads (preflightInstall_reads (known_fresh c loaded)
    selection hvalid) (fun _ h => h.1.ended) ?_) (fun _ h => h) ?_
  · intro disk _ hdisk hother herr
    exact preflight_broken hbase hintent hrefused hdisk.1 hother herr
  · intro _ disk hdisk
    refine ⟨hdisk.1, fun hquiet => ?_⟩
    have hpassed := hdisk.2.2 hquiet
    rw [<- hbase] at hpassed
    exact preflightedInstall_refusal hpassed

theorem install_proceeds : c.Proceeds (Fresh c loaded) (install c.platform c.env selection)
      (fun _ => Returned c .installed) := by
  refine proceeds_bind (Q := fun _ disk => Fresh c loaded disk ∧
    (c.env.Quiet -> refusal c.base selection = .ok ())) ?_ (fun _ => ?_)
  · refine proceeds_interrupted (fun _ h => h.1.ended) ?_
    exact proceeds_loaded (fun _ h => h.1) (preflightInstall_proceeds hbase hintent hrefused hvalid)
  refine proceeds_bind (Q := fun _ disk => (Fresh c loaded disk ∧
    (c.env.Quiet -> refusal c.base selection = .ok ())) ∧
    c.platform.capability.toList.all isHex = true) (proceeds_failWhen ?_ ?_) (fun _ => ?_)
  · intro disk hhex hdisk
    exact ⟨hdisk, by simpa using hhex⟩
  · intro disk hhex hdisk
    apply hdisk.1.1.failed _ (by decide)
    · intro _ _
      rw [hintent]
      refine toOption_eq_none (fun _ hstand => ?_)
      simp only [intendedInstall, ok_iff, hhex] at hstand
      rcases hstand with ⟨_, _, _, hhex', _⟩
      cases hhex'
    · intro record hrecord
      have hrecordHex := (hvalid record hrecord).encodable.capability
      rw [(hvalid record hrecord).capability] at hrecordHex
      rw [hrecordHex] at hhex
      cases hhex
  intro w hw
  rcases hw with ⟨⟨hfresh, hrefusal⟩, hhex⟩
  refine proceeds_loaded (fun _ h => h) ?_ w hfresh.1
  cases loaded with
  | none =>
    have hidle : forall other : Record, none = some other -> other.phase.pending = false := by
      intro other hother
      cases hother
    refine proceeds_weaken (installNew_proceeds hidle hhex ?_) (fun _ h => h)
      (fun _ _ h => returned_begun h)
    intro hquiet
    have hphase : (settle c.platform c.base).phase = none := by
      rw [settle_base hbase hidle, Disk.standing, hbase]
      rfl
    rw [hintent, intendedInstall_eq (hrefusal hquiet) hhex (.inl hphase)]
  | some record => exact installOver_proceeds hbase (hvalid record rfl) hintent hrefusal

end

/-!
## Remove
-/

theorem intendedRemoval_eq (hrecord : disk.record = some record)
    (hphase : (settle platform disk).phase = some .installed) :
    intendedRemoval platform disk = newRemoval platform (settle platform disk).files record := by
  rw [intendedRemoval, hrecord, orFail_some]
  simp [hphase, bind_ok]

theorem intendedRemoval_phase (hphase : (settle platform disk).phase ≠ some .installed) :
    (intendedRemoval platform disk).toOption = none :=
  toOption_eq_none (by simp [intendedRemoval, bind_eq_ok, hphase])

theorem removeOver_proceeds (hbase : c.base.record = some record) (hvalid : record.Valid c.platform)
    (hintent : c.intent = (intendedRemoval c.platform c.base).toOption) :
    c.Proceeds (c.Stage false (some record)) (removeOver c.platform c.env record)
      (fun _ => Returned c .removed) := by
  have hnew : forall saved : Record, saved.phase = .installed ->
      c.Proceeds (c.Stage false (some saved)) (removeNew c.platform c.env record)
        (fun _ => Returned c .removed) := by
    intro saved hsaved w hw
    have hidle := pending_false_of_phase (.inl hsaved)
    refine proceeds_weaken (removeNew_proceeds (forall_some hidle) hvalid ?_) (fun _ h => h)
      (fun _ _ h => returned_begun h) w hw
    intro hquiet
    rw [hintent, intendedRemoval_eq hbase (hw.phase_there hsaved rfl hquiet)]
  have hreturned : forall disk (saved : Record), c.Stage false (some saved) disk ->
      saved.phase = .removed -> Returned c .removed disk := by
    intro disk saved hstage hsaved
    refine ⟨false, saved, hstage, hsaved, fun hquiet _ => ?_⟩
    rw [hintent]
    apply intendedRemoval_phase
    rw [hstage.phase_there hsaved rfl hquiet]
    decide
  unfold removeOver
  cases hphase : record.phase with
  | installed => exact hnew record hphase
  | pendingInstall =>
    refine completed_proceeds hbase (hphase ▸ rfl) (fun saved hsaved => ?_)
    rw [hphase] at hsaved
    exact hnew saved hsaved
  | pendingRemove =>
    refine completed_proceeds hbase (hphase ▸ rfl) (fun saved hsaved => ?_)
    rw [hphase] at hsaved
    exact proceeds_pure (fun disk h => hreturned disk saved h hsaved)
  | removed =>
    refine proceeds_bind (revokeCapability_absent (fun _ h => h.ended)
      (fun _ h => h.capability_removed hphase)) (fun _ => ?_)
    exact proceeds_pure (fun disk h => hreturned disk record h hphase)

theorem remove_proceeds (hbase : c.base.record = loaded)
    (hvalid : forall record, loaded = some record -> record.Valid c.platform)
    (hintent : c.intent = (intendedRemoval c.platform c.base).toOption) :
    c.Proceeds (c.Stage false loaded) (remove c.platform c.env) (fun _ => Returned c .removed) := by
  have hmiss : loaded = none -> forall disk, c.Stage false loaded disk ->
      c.Broken .notInstalled disk := by
    intro hloaded disk hdisk
    apply hdisk.failed _ (by decide)
    · intro _ _
      rw [hintent, intendedRemoval, hbase, hloaded]
      rfl
    · intro _
      rw [hloaded]
      intro hother
      cases hother
  refine proceeds_bind (Q := fun _ => c.Stage false loaded) ?_ (fun _ => ?_)
  · refine proceeds_interrupted (fun _ h => h.ended) ?_
    apply proceeds_loaded (fun _ h => h)
    cases loaded with
    | none => exact proceeds_fail (hmiss rfl)
    | some => exact proceeds_fits (fun _ h => h)
  apply proceeds_loaded (fun _ h => h)
  cases loaded with
  | none => exact proceeds_fail (hmiss rfl)
  | some record =>
    have hrecord := hvalid record rfl
    refine proceeds_bind (proceeds_fits (fun _ h => h)) (fun _ => ?_)
    refine proceeds_bind (Q := fun _ => c.Stage false (some record)) (proceeds_failWhen
      (fun _ _ h => h) ?_) (fun _ => removeOver_proceeds hbase hrecord hintent)
    intro disk hdiffers _
    rw [hrecord.capability, bne_self_eq_false, Bool.and_false] at hdiffers
    cases hdiffers

end

/-!
## Any request
-/

def Answered (c : Course) : Answer -> Disk -> Prop
  | .installed _, disk => Returned c .installed disk
  | .removed _, disk => Returned c .removed disk
  | .recovered recovery, disk => Recovered c recovery disk ∧ c.intent = none

theorem perform_proceeds {platform : Platform} {files : Path -> Option File} {base : Disk}
    {loaded : Option Record} (env : Environment) (request : Request)
    (hcust : Custody platform loaded base) :
    let c := courseOf platform files env base request
    c.Proceeds (Fresh c loaded) (perform platform env request) (Answered c) := by
  have hbase := hcust.record_eq
  cases request with
  | install selection =>
    refine proceeds_bind (install_proceeds hbase rfl
      (fun err herr => ⟨selection, err, rfl, herr⟩) hcust.valid) (fun _ => ?_)
    exact proceeds_pure (fun _ h => h)
  | remove =>
    refine proceeds_bind (proceeds_weaken (remove_proceeds hbase hcust.valid rfl)
      (fun _ h => h.1) (fun _ _ h => h)) (fun _ => ?_)
    exact proceeds_pure (fun _ h => h)
  | recover =>
    refine proceeds_bind (proceeds_weaken (recover_proceeds hbase rfl hcust.valid)
      (fun _ h => h.1) (fun _ _ h => h)) (fun _ => ?_)
    exact proceeds_pure (fun _ h => ⟨h, rfl⟩)

end Omux.Setup
