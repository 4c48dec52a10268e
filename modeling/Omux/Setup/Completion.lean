import Omux.Setup.Stages

/-!
# Completing a transaction

The steps from a pending record to its final save.  A completion that meets a config in
neither recorded state reports a conflict and has done nothing.
-/

namespace Omux.Setup

open List

open Library

section

variable {c : Course} {begun : Bool} {record : Record}

theorem Record.Valid.openParent_ok {platform : Platform} (h : record.Valid platform) :
    openParent record.configPath = .ok () := by
  have hlens := h.encodable.lengths
  simp only [Record.fields, fieldLimits, forall₂_cons] at hlens
  rw [openParent, h.encodable.path, bind_ok, decide_eq_false (not_lt.mpr hlens.1), failIf_false]

variable {P : Disk -> Prop}

theorem proceeds_openParent
    (hstage : forall disk, P disk -> c.Stage begun (some record) disk) :
    c.Proceeds P (Task.lift (openParent record.configPath)) (fun _ => P) := by
  apply proceeds_lift
  · intro disk _ _ hdisk
    exact hdisk
  · intro disk _ herr hdisk
    rw [((hstage disk hdisk).custody.valid record rfl).openParent_ok] at herr
    cases herr

/-!
## The capability file
-/

theorem Course.Stage.capability_bytes {disk : Disk} (h : c.Stage begun (some record) disk)
    (hpend : record.phase.pending = true) {bytes : Bytes}
    (hbytes : disk.capability = some bytes) : bytes = record.capability.toList := by
  have hfits := h.custody.capability
  have hsome : disk.capability = some c.platform.capability.toList := by
    cases hphase : record.phase with
    | pendingInstall | pendingRemove =>
      rw [Option.map_some, hphase] at hfits
      rcases hfits with hnone | hsome
      · rw [hnone] at hbytes
        cases hbytes
      · exact hsome
    | installed | removed => cases hphase ▸ hpend
  rw [hbytes] at hsome
  rw [(h.custody.valid record rfl).capability]
  exact Option.some.inj hsome

theorem ensureCapability_present {capability : Capability}
    (hended : forall disk, P disk -> c.Ended disk)
    (hpresent : forall disk, P disk -> disk.capability = some capability.toList) :
    c.Proceeds P (ensureCapability c.env capability) (fun _ => P) := by
  refine proceeds_interrupted hended ?_
  refine proceeds_bind (proceeds_look _) (fun current => ?_)
  cases current with
  | none =>
    intro w hw
    have hnone := hpresent w.disk hw.1
    rw [<- hw.2] at hnone
    cases hnone
  | some =>
    apply proceeds_failWhen
    · intro disk _ hdisk
      exact hdisk.1
    · intro disk hdiffers hdisk
      have hsome := hpresent disk hdisk.1
      rw [<- hdisk.2] at hsome
      rw [Option.some.inj hsome, bne_self_eq_false] at hdiffers
      cases hdiffers

/-- What holds of the disk where nobody else writes. -/
abbrev Facing (c : Course) (begun : Bool) (record : Record) (φ : Record -> Disk -> Prop)
    (disk : Disk) : Prop :=
  c.Stage begun (some record) disk ∧ (c.env.Quiet -> φ record disk)

theorem ensureCapability_proceeds (hphase : record.phase = .pendingInstall)
    (htraced : c.Traced begun) :
    c.Proceeds (Facing c begun record Matching) (ensureCapability c.env record.capability)
      (fun _ disk => Facing c begun record Matching disk ∧
        disk.capability = some c.platform.capability.toList) := by
  have hpend : record.phase.pending = true := hphase ▸ rfl
  refine proceeds_interrupted (fun _ h => h.1.ended) ?_
  refine proceeds_bind (proceeds_look _) (fun current => ?_)
  cases current with
  | some =>
    apply proceeds_failWhen
    · intro disk _ hdisk
      refine ⟨hdisk.1, ?_⟩
      rw [<- hdisk.2, hdisk.1.1.capability_bytes hpend hdisk.2.symm,
        (hdisk.1.1.custody.valid record rfl).capability]
    · intro disk hdiffers hdisk
      rw [hdisk.1.1.capability_bytes hpend hdisk.2.symm, bne_self_eq_false] at hdiffers
      cases hdiffers
  | none =>
    apply proceeds_privateWrite (fun _ h => h.1.1.ended) _ (fun _ h => h.1.1.ended)
    intro disk hdisk
    have hcap := (hdisk.1.1.custody.valid record rfl).capability
    refine ⟨⟨?_, hdisk.1.2⟩, by rw [<- hcap]; rfl⟩
    apply hdisk.1.1.setCapability hpend htraced hdisk.1.2 _ (.inl rfl)
    rw [hphase, hcap]
    exact Or.inr rfl

theorem revokeCapability_absent {capability : Capability}
    (hended : forall disk, P disk -> c.Ended disk)
    (habsent : forall disk, P disk -> disk.capability = none) :
    c.Proceeds P (revokeCapability c.env capability) (fun _ => P) := by
  refine proceeds_interrupted hended ?_
  refine proceeds_bind (proceeds_look _) (fun current => ?_)
  cases current with
  | none => exact proceeds_pure (fun _ h => h.1)
  | some =>
    intro w hw
    have hnone := habsent w.disk hw.1
    rw [<- hw.2] at hnone
    cases hnone

theorem revokeCapability_proceeds (hphase : record.phase = .pendingRemove)
    (htraced : c.Traced begun) :
    c.Proceeds (Facing c begun record Reached) (revokeCapability c.env record.capability)
      (fun _ disk => Facing c begun record Reached disk ∧ disk.capability = none) := by
  have hpend : record.phase.pending = true := hphase ▸ rfl
  refine proceeds_interrupted (fun _ h => h.1.ended) ?_
  refine proceeds_bind (proceeds_look _) (fun current => ?_)
  cases current with
  | none => exact proceeds_pure (fun _ h => ⟨h.1, h.2.symm⟩)
  | some =>
    refine proceeds_bind (Q := fun _ => Facing c begun record Reached) ?_ (fun _ => ?_)
    · apply proceeds_failWhen
      · intro disk _ hdisk
        exact hdisk.1
      · intro disk hdiffers hdisk
        rw [hdisk.1.1.capability_bytes hpend hdisk.2.symm, bne_self_eq_false] at hdiffers
        cases hdiffers
    · apply proceeds_privateWrite (fun _ h => h.1.ended) _ (fun _ h => h.1.1.ended)
      intro disk hdisk
      refine ⟨⟨?_, hdisk.2⟩, rfl⟩
      apply hdisk.1.setCapability hpend htraced
        (fun hquiet => (hdisk.2 hquiet).matching) _ (.inr rfl)
      rw [hphase]
      exact Or.inl rfl

/-!
## The replacement
-/

/-- The config is being replaced; `current` was in the before state. -/
structure Applying (c : Course) (begun : Bool) (record : Record) (capability : Option Bytes)
    (current : Snapshot) (disk : Disk) : Prop where
  stage : c.Stage begun (some record) disk
  capability : disk.capability = capability
  seen : c.env.Quiet -> snapshot (disk.files record.configPath) = .ok current

def TemporaryWith (c : Course) (record : Record) (φ : File -> Prop) (disk : Disk) : Prop :=
  exists file, disk.temporary record = some file ∧ Usable c.platform record file ∧ φ file

def Compared (record : Record) (current : Snapshot) (disk : Disk) : Prop :=
  exists check, snapshot (disk.files record.configPath) = .ok check ∧
    record.isBefore check = true ∧ check.gid = current.gid

abbrev Writing (c : Course) (begun : Bool) (record : Record) (capability : Option Bytes)
    (current : Snapshot) (φ : File -> Prop) (disk : Disk) : Prop :=
  Applying c begun record capability current disk ∧ TemporaryWith c record φ disk

variable {capability : Option Bytes} {current : Snapshot}

section

variable {disk : Disk} (h : Applying c begun record capability current disk)
include h

theorem Applying.edited (hloud : ¬ c.env.Quiet) (path : Path) (file : Option File) :
    Applying c begun record capability current (disk.edit path file) :=
  ⟨h.stage.edited hloud path file, h.capability, fun hquiet => absurd hquiet hloud⟩

theorem Applying.setTemporary (hpend : record.phase.pending = true) {file : Option File}
    (hfile : forall found, file = some found -> Usable c.platform record found) :
    Applying c begun record capability current (disk.setTemporary record file) :=
  ⟨h.stage.setTemporary hpend hfile, h.capability, h.seen⟩

theorem Applying.mapTemporary {φ ψ : File -> Prop} {f : File -> File}
    (hpend : record.phase.pending = true) (htemporary : TemporaryWith c record φ disk)
    (hf : forall file, Usable c.platform record file -> φ file ->
      Usable c.platform record (f file) ∧ ψ (f file)) :
    Writing c begun record capability current ψ (disk.mapTemporary record f) := by
  rcases htemporary with ⟨file, hfile, husable, hφ⟩
  have hstep := hf file husable hφ
  rw [Disk.mapTemporary, hfile]
  constructor
  · apply h.setTemporary hpend
    intro _ hfound
    rw [<- Option.some.inj hfound]
    exact hstep.1
  · exact ⟨f file, Course.temporary_setTemporary disk record _, hstep⟩

end

theorem opened_mode : 0o600 &&& 0o7022 = 0 := by decide

theorem Usable.opened (platform : Platform) (record : Record) : Usable platform record
      { regular := true, mode := 0o600, gid := platform.group, bytes := [] } :=
  ⟨rfl, opened_mode, Nat.zero_le _, fun _ => rfl⟩

section

variable (hpend : record.phase.pending = true)
include hpend

theorem openTemporary_proceeds (htraced : c.Traced begun) :
    c.Proceeds (Applying c begun record capability current) (openTemporary c.platform c.env record)
      (fun _ => Writing c begun record capability current (fun _ => True)) := by
  refine proceeds_interrupted (fun _ h => h.stage.ended) ?_
  refine proceeds_bind (proceeds_look _) (fun found => ?_)
  cases found with
  | none =>
    apply proceeds_change
    intro disk hdisk
    have happlying := hdisk.1.setTemporary hpend (fun found hfound => by
      rw [<- Option.some.inj hfound]
      exact Usable.opened c.platform record)
    refine ⟨⟨happlying.stage.temporaryNoted htraced (.inl rfl), happlying.capability,
      happlying.seen⟩, ?_⟩
    exact ⟨_, Course.temporary_setTemporary disk record _, Usable.opened _ _, trivial⟩
  | some file =>
    have husable : forall disk, Applying c begun record capability current disk ->
        some file = disk.temporary record -> Usable c.platform record file := by
      intro disk hdisk hfile
      rcases hdisk.stage.custody.temporaries _ _ file hfile.symm with
        ⟨_, hother, _, _, _, husable⟩
      cases hother
      exact husable
    refine proceeds_bind (Q := fun _ => Writing c begun record capability current (fun _ => True))
      ?_ (fun _ => ?_)
    · apply proceeds_lift
      · intro disk _ _ hdisk
        exact ⟨hdisk.1, file, hdisk.2.symm, husable disk hdisk.1 hdisk.2, trivial⟩
      · intro disk _ herr hdisk
        have hfile := husable disk hdisk.1 hdisk.2
        simp [validateFile, hfile.regular, hfile.mode] at herr
    · refine proceeds_interrupted (fun _ h => h.1.stage.ended) ?_
      intro disk hdisk
      have hstep : Writing c begun record capability current (fun _ => True) _ :=
        hdisk.1.mapTemporary (f := fun file => { file with mode := 0o600 }) hpend hdisk.2
          (fun file husable _ => ⟨{ husable with mode := opened_mode }, trivial⟩)
      exact ⟨⟨hstep.1.stage.temporaryNoted htraced (.inl rfl), hstep.1.capability,
        hstep.1.seen⟩, hstep.2⟩

theorem truncateTemporary_proceeds : c.Proceeds
      (Writing c begun record capability current (fun _ => True)) (truncateTemporary c.env record)
      (fun _ => Writing c begun record capability current
        (fun file => file.bytes ++ record.after = record.after)) := by
  refine proceeds_interrupted (fun _ h => h.1.stage.ended) ?_
  intro _ hdisk
  apply hdisk.1.mapTemporary hpend hdisk.2
  intro file husable _
  exact ⟨⟨husable.regular, opened_mode, Nat.zero_le _, husable.group⟩, rfl⟩

theorem writeAll_proceeds (hlength : record.after.length <= maximumConfig) (rest : Bytes) :
    c.Proceeds
      (Writing c begun record capability current (fun file => file.bytes ++ rest = record.after))
      (writeAll c.env record rest)
      (fun _ => Writing c begun record capability current
        (fun file => file.bytes = record.after)) := by
  induction rest with
  | nil =>
    apply proceeds_pure
    intro disk hdisk
    simpa only [append_nil] using hdisk
  | cons byte rest ih =>
    refine proceeds_interrupted (fun _ h => h.1.stage.ended) ?_
    refine proceeds_bind (proceeds_change ?_) (fun _ => ih)
    intro disk hdisk
    apply hdisk.1.mapTemporary hpend hdisk.2
    intro file husable hwritten
    have hnow : (file.bytes ++ [byte]) ++ rest = record.after := by
      rw [append_assoc]
      exact hwritten
    refine ⟨{ husable with length := ?_ }, hnow⟩
    have hsum := congrArg List.length hnow
    rw [length_append] at hsum
    change (file.bytes ++ [byte]).length <= maximumConfig
    omega

theorem compareAgain_proceeds (hbefore : record.isBefore current = true)
    (happlying : forall disk, P disk -> Applying c begun record capability current disk)
    (hstable : c.env.Stable P) : c.Proceeds P (compareAgain c.env record current)
      (fun _ disk => P disk ∧ Compared record current disk) := by
  refine proceeds_bind (proceeds_readAt (fun _ h => (happlying _ h).stage.ended) hstable ?_)
    (fun check => ?_)
  · intro disk _ hdisk herr hother
    have hstage := (happlying disk hdisk).stage
    exact hstage.stuck hpend (fun _ => settle_unreadable hstage.record_eq herr) hother
  · apply proceeds_failWhen
    · intro disk hsame hdisk
      rw [Bool.or_eq_false_iff, Bool.not_eq_false', bne_eq_false_iff_eq] at hsame
      exact ⟨hdisk.1, check, hdisk.2, hsame⟩
    · intro disk hdiffers hdisk
      have hfacts := happlying disk hdisk.1
      apply hfacts.stage.stuck hpend _ (by decide)
      intro hquiet
      have hsame := hfacts.seen hquiet
      rw [hdisk.2] at hsame
      rw [Except.ok.inj hsame, hbefore] at hdiffers
      simp at hdiffers

end

theorem setGroup_usable {file : File} (husable : Usable c.platform record file)
    (hbefore : record.isBefore current = true)
    (hgid : current.existed = false ↔ current.gid = none) :
    Usable c.platform record (setGroup current file) ∧
      (setGroup current file).bytes = file.bytes ∧
      (setGroup current file).gid = current.gid.getD c.platform.group := by
  have hexisted := (matchesState_inv hbefore).1
  unfold setGroup
  cases hcase : current.gid with
  | none =>
    have hmiss : record.beforeExisted = false := by
      rw [<- hexisted]
      exact hgid.mpr hcase
    exact ⟨husable, rfl, husable.group hmiss⟩
  | some group =>
    refine ⟨{ husable with group := ?_ }, rfl, rfl⟩
    rw [<- hexisted, hgid, hcase]
    nofun

abbrev Applied (c : Course) (begun : Bool) (record : Record) (capability : Option Bytes)
    (disk : Disk) : Prop :=
  (c.Stage begun (some record) disk ∧ (c.env.Quiet -> Reached record disk)) ∧
    disk.capability = capability

theorem Applying.replaced {disk : Disk} (h : Applying c begun record capability current disk)
    (hpend : record.phase.pending = true) (htraced : c.Traced begun)
    (hafter : record.isAfter current = false) {next : Option File} {check : Snapshot}
    (hcheck : snapshot (disk.files record.configPath) = .ok check)
    (hbefore : record.isBefore check = true) (hnext : next = replacement c.platform record check) :
    Applied c begun record capability (disk.replace record next) := by
  rw [hnext]
  refine ⟨⟨h.stage.replace hpend htraced hcheck hbefore ?_, fun _ =>
    h.stage.reached_replace check⟩, h.capability⟩
  intro hquiet
  have hsame := h.seen hquiet
  rw [hcheck] at hsame
  rw [Except.ok.inj hsame]
  exact hafter

section

variable (hpend : record.phase.pending = true) (htraced : c.Traced begun)
include hpend htraced

theorem unlinkConfig_proceeds (hgone : record.afterExisted = false)
    (hafter : record.isAfter current = false) (hbefore : record.isBefore current = true) :
    c.Proceeds (Applying c begun record capability current) (unlinkConfig c.env record current)
      (fun _ => Applied c begun record capability) := by
  refine proceeds_bind (compareAgain_proceeds hpend hbefore (fun _ h => h)
    (fun _ path file hloud h => h.edited hloud path file)) (fun _ => ?_)
  apply proceeds_privateWrite (fun _ h => h.1.stage.ended) _ (fun _ h => h.1.1.ended)
  intro _ hdisk
  rcases hdisk.2 with ⟨_, hcheck, hcompared, _⟩
  apply hdisk.1.replaced hpend htraced hafter hcheck hcompared
  simp [replacement, hgone]

theorem renameConfig_proceeds (hvalid : record.Valid c.platform)
    (hstays : record.afterExisted = true) (hafter : record.isAfter current = false)
    (hbefore : record.isBefore current = true)
    (hgid : current.existed = false ↔ current.gid = none) :
    c.Proceeds (Applying c begun record capability current)
      (renameConfig c.platform c.env record current)
      (fun _ => Applied c begun record capability) := by
  have hlength : record.after.length <= maximumConfig := by
    have hlens := hvalid.encodable.lengths
    simp only [Record.fields, fieldLimits, forall₂_cons] at hlens
    exact hlens.2.2.2.2.1
  refine proceeds_bind (openTemporary_proceeds hpend htraced) (fun _ => ?_)
  refine proceeds_bind (truncateTemporary_proceeds hpend) (fun _ => ?_)
  refine proceeds_bind (writeAll_proceeds hpend hlength record.after) (fun _ => ?_)
  refine proceeds_interrupted (fun _ h => h.1.stage.ended) ?_
  refine proceeds_bind (compareAgain_proceeds hpend hbefore (fun _ h => h.1)
    (fun _ path file hloud h => ⟨h.1.edited hloud path file, h.2⟩)) (fun _ => ?_)
  refine proceeds_interrupted (fun _ h => h.1.1.stage.ended) ?_
  -- from here on the temporary only gets the group and the mode of its destination
  refine proceeds_bind (Q := fun _ disk => Writing c begun record capability current
    (fun file => file.bytes = record.after ∧ file.gid = current.gid.getD c.platform.group) disk ∧
      Compared record current disk) (proceeds_change ?_) (fun _ => ?_)
  · intro disk hdisk
    refine ⟨hdisk.1.1.mapTemporary hpend hdisk.1.2 ?_, hdisk.2⟩
    intro file husable hbytes
    have hgroup := setGroup_usable husable hbefore hgid
    exact ⟨hgroup.1, hgroup.2.1.trans hbytes, hgroup.2.2⟩
  refine proceeds_interrupted (fun _ h => h.1.1.stage.ended) ?_
  refine proceeds_bind (Q := fun _ disk => Writing c begun record capability current
    (fun file => some file = replacement c.platform record current) disk ∧
      Compared record current disk) (proceeds_change ?_) (fun _ => ?_)
  · intro disk hdisk
    refine ⟨hdisk.1.1.mapTemporary hpend hdisk.1.2 ?_, hdisk.2⟩
    intro file husable hfile
    refine ⟨{ husable with mode := (validMode_bits hvalid.encodable.afterMode).1 }, ?_⟩
    simp [replacement, hstays, husable.regular, hfile.1, hfile.2]
  refine proceeds_interrupted (fun _ h => h.1.1.stage.ended) ?_
  refine proceeds_bind (Q := fun _ => Applied c begun record capability) (proceeds_change ?_)
    (fun _ => proceeds_interrupt (fun _ h => h.1.1.ended))
  intro disk hdisk
  rcases hdisk.2 with ⟨check, hcheck, hcompared, hsame⟩
  rcases hdisk.1.2 with ⟨file, hfile, _, hfinal⟩
  have hnext : disk.temporary record = replacement c.platform record check := by
    rw [hfile, hfinal, replacement, replacement, hsame]
  have happlied := hdisk.1.1.replaced hpend htraced hafter hcheck hcompared hnext
  refine ⟨⟨happlied.1.1.setTemporary hpend ?_, happlied.1.2⟩, happlied.2⟩
  intro _ hfound
  cases hfound

theorem applyConfig_proceeds : c.Proceeds
      (fun disk => Facing c begun record Matching disk ∧ disk.capability = capability)
      (applyConfig c.platform c.env record) (fun _ => Applied c begun record capability) := by
  refine proceeds_interrupted (fun _ h => h.1.1.ended) ?_
  refine proceeds_bind (proceeds_openParent (fun _ h => h.1.1)) (fun _ => ?_)
  refine proceeds_bind (proceeds_readAt (fun _ h => h.1.1.ended) ?_ ?_) (fun current => ?_)
  · intro disk path file hloud hdisk
    exact ⟨⟨hdisk.1.1.edited hloud path file, fun hquiet => absurd hquiet hloud⟩, hdisk.2⟩
  · intro disk _ hdisk herr hother
    exact hdisk.1.1.stuck hpend (fun _ => settle_unreadable hdisk.1.1.record_eq herr) hother
  by_cases hafter : record.isAfter current = true
  · rw [if_pos hafter]
    intro disk hdisk
    exact ⟨⟨hdisk.1.1.1, fun _ => ⟨current, hdisk.2, hafter⟩⟩, hdisk.1.2⟩
  rw [if_neg hafter]
  rw [Bool.not_eq_true] at hafter
  refine proceeds_bind (Q := fun _ disk => Applying c begun record capability current disk ∧
    record.Valid c.platform ∧ record.isBefore current = true ∧
    (current.existed = false ↔ current.gid = none)) (proceeds_failWhen ?_ ?_) (fun _ => ?_)
  · intro disk hbefore hdisk
    rw [Bool.not_eq_false'] at hbefore
    exact ⟨⟨hdisk.1.1.1, hdisk.1.2, fun _ => hdisk.2⟩, hdisk.1.1.1.custody.valid record rfl,
      hbefore, (snapshot_inv hdisk.2).2.2.2⟩
  · intro disk hneither hdisk
    rw [Bool.not_eq_true'] at hneither
    exact hdisk.1.1.1.stuck hpend
      (fun _ => settle_conflict hdisk.1.1.1.record_eq hdisk.2 hafter hneither) (by decide)
  intro w hw
  rcases hw with ⟨happlying, hvalid, hbefore, hgid⟩
  cases hstays : record.afterExisted with
  | true =>
    exact renameConfig_proceeds hpend htraced hvalid hstays hafter hbefore hgid w happlying
  | false => exact unlinkConfig_proceeds hpend htraced hstays hafter hbefore w happlying

/-!
## The end of a transaction
-/

theorem cleanTemporary_proceeds :
    c.Proceeds (Applied c begun record capability) (cleanTemporary c.env record)
      (fun _ disk => Applied c begun record capability disk ∧
        disk.temporary record = none) := by
  refine proceeds_bind (proceeds_openParent (fun _ h => h.1.1)) (fun _ => ?_)
  refine proceeds_interrupted (fun _ h => h.1.1.ended) ?_
  refine proceeds_bind (proceeds_look _) (fun found => ?_)
  cases found with
  | none =>
    refine proceeds_bind (Q := fun current disk => (Applied c begun record capability disk ∧
      disk.temporary record = none) ∧ current.existed = false) (proceeds_pure ?_)
      (fun current => ?_)
    · intro disk hdisk
      exact ⟨⟨hdisk.1, hdisk.2.symm⟩, rfl⟩
    · intro w hw
      rw [hw.2]
      exact hw.1
  | some file =>
    refine proceeds_bind (Q := fun current disk => Applied c begun record capability disk ∧
      current.existed = true) (proceeds_lift ?_ ?_) (fun current => ?_)
    · intro disk current hcur hdisk
      rcases hdisk.1.1.1.custody.temporaries _ _ file hdisk.2.symm with
        ⟨other, _, _, _, _, husable⟩
      rcases husable.snapshot_ok with ⟨expected, hexp, hexisted⟩
      rw [hcur] at hexp
      rw [Except.ok.inj hexp]
      exact ⟨hdisk.1, hexisted⟩
    · intro disk _ herr hdisk
      rcases hdisk.1.1.1.custody.temporaries _ _ file hdisk.2.symm with
        ⟨other, _, _, _, _, husable⟩
      rcases husable.snapshot_ok with ⟨expected, hexp, _⟩
      rw [hexp] at herr
      cases herr
    · cases hexisted : current.existed with
      | false =>
        intro w hw
        cases hw.2
      | true =>
        apply proceeds_privateWrite (fun _ h => h.1.1.1.ended) _ (fun _ h => h.1.1.1.ended)
        intro disk hdisk
        have hcleaned : c.Stage begun (some record) (disk.setTemporary record none) :=
          hdisk.1.1.1.setTemporary hpend nofun
        have hstage := hcleaned.temporaryNoted htraced (.inr rfl)
        exact ⟨⟨⟨hstage, hdisk.1.1.2⟩, hdisk.1.2⟩, Course.temporary_setTemporary disk record none⟩

end

theorem proceeds_save {P Q : Disk -> Prop} (henc : record.Encodable)
    (hbefore : forall disk, P disk -> c.Ended disk)
    (hsaved : forall disk, P disk -> Q (disk.saveRecord record record.bytes))
    (hafter : forall disk, Q disk -> c.Ended disk) :
    c.Proceeds P (save c.env record) (fun _ => Q) := by
  refine proceeds_interrupted hbefore ?_
  rw [henc.encodedRecord_eq]
  exact proceeds_bind (Q := fun bytes disk => bytes = record.bytes ∧ P disk)
    (proceeds_pure (fun _ h => ⟨rfl, h⟩))
    (fun bytes => proceeds_privateWrite (fun disk h => hbefore disk h.2)
      (fun disk h => by rw [h.1]; exact hsaved disk h.2) hafter)

theorem Record.Valid.finished {platform : Platform} (h : record.Valid platform)
    (phase : Phase) {original installed : Bytes} (horiginal : original.length <= maximumConfig)
    (hinst : installed.length <= maximumConfig) :
    Record.Valid platform { record with phase, original,
                                        installed, before := [], after := [] } := by
  have hlens := h.encodable.lengths
  simp only [Record.fields, fieldLimits, forall₂_cons] at hlens
  refine ⟨⟨h.encodable.originalMode, h.encodable.beforeMode, h.encodable.afterMode,
    h.encodable.capability, h.encodable.transaction, h.encodable.path, ?_⟩, h.capability, h.fits,
    fun _ => rfl⟩
  simp only [Record.fields, fieldLimits, forall₂_cons]
  exact ⟨hlens.1, horiginal, hinst, Nat.zero_le _, Nat.zero_le _, List.Forall₂.nil⟩

theorem conclude_proceeds (hpend : record.phase.pending = true)
    (htraced : c.Traced begun) {final : Record}
    (hvalid : Record.Valid c.platform { final with before := [], after := [] })
    (hphase : final.phase = record.phase.finished) :
    c.Proceeds (Applied c begun record (record.phase.capability c.platform))
      (conclude c.env record final)
      (fun _ disk => exists saved, c.Stage begun (some saved) disk ∧
        saved.phase = final.phase) := by
  refine proceeds_bind (cleanTemporary_proceeds hpend htraced) (fun _ => ?_)
  apply proceeds_save hvalid.encodable (fun _ h => h.1.1.1.ended)
  · intro disk hdisk
    exact ⟨_, hdisk.1.1.1.saveFinal hpend htraced hdisk.1.1.2 hdisk.1.2 hdisk.2
      hvalid hphase, rfl⟩
  · intro disk hdisk
    rcases hdisk with ⟨saved, hstage, _⟩
    exact hstage.ended

def Completed (c : Course) (begun : Bool) (record : Record) (recovery : Recovery)
    (disk : Disk) : Prop :=
  match recovery with
  | .none => False
  | .conflict => c.Stage begun (some record) disk ∧
      (c.env.Quiet -> disk.standing = settle c.platform disk)
  | .installed => record.phase = .pendingInstall ∧
      exists saved, c.Stage begun (some saved) disk ∧ saved.phase = .installed
  | .removed => record.phase = .pendingRemove ∧
      exists saved, c.Stage begun (some saved) disk ∧ saved.phase = .removed

theorem completeInstall_proceeds (hphase : record.phase = .pendingInstall)
    (htraced : c.Traced begun) (hvalid : record.Valid c.platform) : c.Proceeds
      (Facing c begun record Matching)
      (do
        ensureCapability c.env record.capability
        applyConfig c.platform c.env record
        conclude c.env record { record with phase := .installed }
        pure .installed)
      (Completed c begun record) := by
  have hpend : record.phase.pending = true := hphase ▸ rfl
  have hcap : record.phase.capability c.platform = some c.platform.capability.toList := hphase ▸ rfl
  have hlens := hvalid.encodable.lengths
  simp only [Record.fields, fieldLimits, forall₂_cons] at hlens
  refine proceeds_bind (ensureCapability_proceeds hphase htraced) (fun _ => ?_)
  rw [<- hcap]
  refine proceeds_bind (applyConfig_proceeds hpend htraced) (fun _ => ?_)
  refine proceeds_bind (conclude_proceeds hpend htraced
    (hvalid.finished .installed hlens.2.1 hlens.2.2.1) (by rw [hphase]; rfl))
    (fun _ => ?_)
  exact proceeds_pure (fun _ h => ⟨hphase, h⟩)

theorem completeRemove_proceeds (hphase : record.phase = .pendingRemove)
    (htraced : c.Traced begun) (hvalid : record.Valid c.platform) : c.Proceeds
      (Facing c begun record Matching)
      (do
        applyConfig c.platform c.env record
        revokeCapability c.env record.capability
        conclude c.env record
          { record with phase := .removed, original := [], installed := [] }
        pure .removed)
      (Completed c begun record) := by
  have hpend : record.phase.pending = true := hphase ▸ rfl
  have hcap : record.phase.capability c.platform = none := hphase ▸ rfl
  refine proceeds_bind (Q := fun _ => Facing c begun record Reached) ?_ (fun _ => ?_)
  · -- whatever the capability file holds stays until it is revoked
    intro w hw
    have happly : c.Proceeds _ (applyConfig c.platform c.env record)
        (fun _ => Applied c begun record w.disk.capability) :=
      applyConfig_proceeds hpend htraced
    exact proceeds_weaken happly (fun _ h => h) (fun _ _ h => h.1) w ⟨hw, rfl⟩
  refine proceeds_bind (revokeCapability_proceeds hphase htraced) (fun _ => ?_)
  rw [<- hcap]
  refine proceeds_bind (conclude_proceeds hpend htraced
    (hvalid.finished .removed (Nat.zero_le _) (Nat.zero_le _)) (by rw [hphase]; rfl))
    (fun _ => ?_)
  exact proceeds_pure (fun _ h => ⟨hphase, h⟩)

theorem complete_proceeds (hpend : record.phase.pending = true) (htraced : c.Traced begun) :
    c.Proceeds (c.Stage begun (some record)) (complete c.platform c.env record)
      (Completed c begun record) := by
  refine proceeds_interrupted (fun _ h => h.ended) ?_
  refine proceeds_bind (Q := fun current disk => c.Stage begun (some record) disk ∧
    snapshot (disk.files record.configPath) = .ok current) ?_ (fun current => ?_)
  · refine proceeds_bind (proceeds_openParent (fun _ h => h)) (fun _ => ?_)
    apply proceeds_readAt (fun _ h => h.ended) (Course.Stage.stable c begun (some record))
    · intro disk _ hdisk herr hother
      exact hdisk.stuck hpend (fun _ => settle_unreadable hdisk.record_eq herr) hother
  by_cases hneither : (!record.isBefore current && !record.isAfter current) = true
  · rw [if_pos hneither]
    intro disk hdisk
    rw [Bool.and_eq_true, Bool.not_eq_true', Bool.not_eq_true'] at hneither
    exact ⟨hdisk.1, fun _ =>
      (settle_conflict hdisk.1.record_eq hdisk.2 hneither.2 hneither.1).symm⟩
  rw [if_neg hneither]
  have hmatch : record.isBefore current = true ∨ record.isAfter current = true := by
    cases hbefore : record.isBefore current with
    | true => exact Or.inl rfl
    | false =>
      cases hafter : record.isAfter current with
      | true => exact Or.inr rfl
      | false =>
        rw [hbefore, hafter] at hneither
        exact absurd rfl hneither
  intro w hw
  have hvalid := hw.1.custody.valid record rfl
  have hstart : Facing c begun record Matching w.disk :=
    ⟨hw.1, fun _ => ⟨current, hw.2, hmatch⟩⟩
  have hours : ¬ (record.capability != c.platform.capability) = true := by
    rw [hvalid.capability, bne_self_eq_false]
    exact Bool.false_ne_true
  cases hphase : record.phase with
  | pendingInstall =>
    simp only [if_neg hours]
    exact completeInstall_proceeds hphase htraced hvalid w hstart
  | pendingRemove =>
    simp only [if_neg hours]
    exact completeRemove_proceeds hphase htraced hvalid w hstart
  | installed | removed => cases hphase ▸ hpend

end

end Omux.Setup
