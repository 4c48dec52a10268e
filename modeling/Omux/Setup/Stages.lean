import Omux.Setup.Reading

/-!
# The course of a call

Until a call saves a record of its own, the disk leads where it led before; from then on
it leads where the call is meant to end.  Each durable step has one lemma that takes a
stage to the next.
-/

namespace Omux.Setup

open Library

def Disk.Pending (disk : Disk) : Prop :=
  exists record, disk.record = some record ∧ record.phase.pending = true

/-- A transaction was begun in these steps. -/
def Begun (made : List Entry) : Prop :=
  exists record, Entry.saved record ∈ made ∧ record.phase.pending = true

/-- One call: where it starts, where it is meant to end if it begins a transaction, and
whether it is refused before it looks at its record.  Over a record that stays pending
nothing can be begun. -/
structure Course where
  platform : Platform
  files : Path -> Option File
  env : Environment
  base : Disk
  intent : Option Standing
  refused : Prop
  guarded : forall phase, (settle platform base).phase = some phase ->
    phase.pending = true -> intent = none

namespace Course

variable (c : Course)

def Since (begun : Bool) (log : List Entry) : Prop :=
  exists made, log = made ++ c.base.log ∧ (Begun made ↔ begun = true) ∧
    (c.env.Quiet -> begun = false -> made = [] ∨ c.base.Pending)

def Aim : Bool -> Standing -> Prop
  | false, standing => standing = settle c.platform c.base
  | true, standing => c.intent = some standing

structure Stage (begun : Bool) (loaded : Option Record) (disk : Disk) : Prop where
  custody : Custody c.platform loaded disk
  history : History c.files loaded disk
  since : c.Since begun disk.log
  aim : c.env.Quiet -> c.Aim begun (settle c.platform disk)

def Ended (disk : Disk) : Prop :=
  exists begun loaded, c.Stage begun loaded disk

/-- After a failure that is not the system's there is nothing left to recover, and a
call that has begun nothing by then was not meant to. -/
def Broken (err : SetupError) (disk : Disk) : Prop :=
  exists begun loaded, c.Stage begun loaded disk ∧ (err = .system -> ¬ c.env.Calm) ∧
    (err ≠ .system -> c.env.Quiet -> (disk.standing = settle c.platform disk ∨ c.refused) ∧ (begun =
      false -> c.intent = none))

def Cut (disk : Disk) : Prop :=
  c.Ended disk ∧ ¬ c.env.Calm

def Proceeds {α : Type} (P : Disk -> Prop) (task : Work α) (Q : α -> Disk -> Prop) : Prop :=
  Meets (fun w => P w.disk) task (fun a w => Q a w.disk)
    (fun err w => c.Broken err w.disk) (fun w => c.Cut w.disk)

end Course

/-!
## Rules
-/

variable {err : SetupError}

section

variable {c : Course} {α β : Type} {P P' : Disk -> Prop} {Q Q' : α -> Disk -> Prop}
  {R : β -> Disk -> Prop}

theorem proceeds_weaken {task : Work α} (h : c.Proceeds P task Q)
    (hpre : forall disk, P' disk -> P disk) (hpost : forall a disk, Q a disk -> Q' a disk) :
    c.Proceeds P' task Q' :=
  Meets.weaken h (fun w => hpre w.disk) (fun a w => hpost a w.disk) (fun _ _ hw => hw)
    (fun _ hw => hw)

theorem proceeds_pure {a : α} (h : forall disk, P disk -> Q a disk) : c.Proceeds P (pure a) Q :=
  meets_pure (fun w => h w.disk)

theorem proceeds_fail (h : forall disk, P disk -> c.Broken err disk) :
    c.Proceeds P (Task.fail err) Q :=
  meets_fail (fun w => h w.disk)

theorem proceeds_bind {task : Work α} {next : α -> Work β} (htask : c.Proceeds P task Q)
    (hnext : forall a, c.Proceeds (Q a) (next a) R) : c.Proceeds P (task >>= next) R :=
  meets_bind htask hnext

theorem proceeds_interrupt (hended : forall disk, P disk -> c.Ended disk) :
    c.Proceeds P (interrupt c.env) (fun _ => P) := by
  intro w hw
  unfold interrupt
  cases hfault : c.env.fault w.tick with
  | none => exact hw
  | failure =>
    rcases hended _ hw with ⟨begun, loaded, hstage⟩
    refine ⟨begun, loaded, hstage, ?_, fun hother => absurd rfl hother⟩
    intro _ hcalm
    rw [hcalm] at hfault
    cases hfault
  | crash =>
    refine ⟨hended _ hw, ?_⟩
    intro hcalm
    rw [hcalm] at hfault
    cases hfault

theorem proceeds_interrupted {next : Work β} {R : β -> Disk -> Prop}
    (hended : forall disk, P disk -> c.Ended disk) (hnext : c.Proceeds P next R) :
    c.Proceeds P (interrupt c.env >>= fun _ => next) R :=
  proceeds_bind (proceeds_interrupt hended) (fun _ => hnext)

theorem proceeds_look (f : Disk -> α) : c.Proceeds P (look f) (fun a disk => P disk ∧ a = f disk) :=
  meets_read (fun _ hw => ⟨hw, rfl⟩)

theorem proceeds_change {f : Disk -> Disk} {Q : Unit -> Disk -> Prop}
    (h : forall disk, P disk -> Q () (f disk)) : c.Proceeds P (change f) Q :=
  meets_modify (fun w => h w.disk)

theorem proceeds_lift {result : Except SetupError α}
    (hok : forall disk a, result = .ok a -> P disk -> Q a disk)
    (herror : forall disk err, result = .error err -> P disk -> c.Broken err disk) :
    c.Proceeds P (Task.lift result) Q :=
  meets_lift (fun w => hok w.disk) (fun w => herror w.disk)

theorem proceeds_failWhen {cond : Bool} {Q : Unit -> Disk -> Prop}
    (hpass : forall disk, cond = false -> P disk -> Q () disk)
    (hfail : forall disk, cond = true -> P disk -> c.Broken err disk) :
    c.Proceeds P (Task.failWhen cond err) Q := by
  cases cond with
  | false => exact proceeds_pure (fun disk => hpass disk rfl)
  | true => exact proceeds_fail (fun disk => hfail disk rfl)

theorem proceeds_privateWrite {effect : Disk -> Disk} {Q : Disk -> Prop}
    (hbefore : forall disk, P disk -> c.Ended disk)
    (heffect : forall disk, P disk -> Q (effect disk))
    (hafter : forall disk, Q disk -> c.Ended disk) :
    c.Proceeds P (privateWrite c.env effect) (fun _ => Q) := by
  refine proceeds_interrupted hbefore ?_
  exact proceeds_bind (proceeds_change heffect) (fun _ => proceeds_interrupt hafter)

theorem proceeds_readAt {path : Path} (hended : forall disk, P disk -> c.Ended disk)
    (hstable : c.env.Stable P)
    (hbroken : forall disk err, P disk -> snapshot (disk.files path) = .error err ->
      err ≠ .system -> c.Broken err disk) : c.Proceeds P (readAt c.env path)
      (fun current disk => P disk ∧ snapshot (disk.files path) = .ok current) := by
  refine proceeds_interrupted hended ?_
  refine proceeds_bind (Q := fun _ => P) (meets_otherPrograms hstable) (fun _ => ?_)
  refine proceeds_bind (proceeds_look _) (fun file => ?_)
  apply proceeds_lift
  · intro disk current hcur hdisk
    rw [hdisk.2] at hcur
    exact ⟨hdisk.1, hcur⟩
  · intro disk err herr hdisk
    have hother := (plain_snapshot file).other herr
    rw [hdisk.2] at herr
    exact hbroken disk err hdisk.1 herr hother

theorem proceeds_reads {task : Work α} {result : Result α} {φ : α -> Prop}
    (h : Reads c.env P task result φ) (hended : forall disk, P disk -> c.Ended disk)
    (hbroken : forall disk err, P disk -> err ≠ .system ->
      (c.env.Quiet -> result = .error err) -> c.Broken err disk) :
    c.Proceeds P task (fun a disk => P disk ∧ φ a ∧ (c.env.Quiet -> result = .ok a)) := by
  refine Meets.weaken h (fun _ hw => hw) (fun _ _ hw => hw) ?_ ?_
  · intro err w hw
    by_cases hsystem : err = .system
    · rcases hended w.disk hw.1 with ⟨begun, loaded, hstage⟩
      exact ⟨begun, loaded, hstage, hw.2.1, fun hother => absurd hsystem hother⟩
    · exact hbroken w.disk err hw.1 hsystem (hw.2.2 hsystem)
  · intro w hw
    exact ⟨hended w.disk hw.1, hw.2⟩

end

/-!
## Steps
-/

def Matching (record : Record) (disk : Disk) : Prop :=
  exists current, snapshot (disk.files record.configPath) = .ok current ∧
    (record.isBefore current = true ∨ record.isAfter current = true)

def Reached (record : Record) (disk : Disk) : Prop :=
  exists current, snapshot (disk.files record.configPath) = .ok current ∧
    record.isAfter current = true

theorem Reached.matching {record : Record} {disk : Disk} (h : Reached record disk) :
    Matching record disk := by
  rcases h with ⟨current, hcur, hafter⟩
  exact ⟨current, hcur, .inr hafter⟩

variable {platform : Platform}

/-- The capability on the disk is not read where the config still has to be brought
to its end. -/
theorem settle_of_matching {record : Record} {disk disk' : Disk}
    (hrecord : disk.record = some record) (hpend : record.phase.pending = true)
    (hmatching : Matching record disk) (hrecord' : disk'.record = disk.record)
    (hfiles : disk'.files = disk.files) : settle platform disk' = settle platform disk := by
  rcases hmatching with ⟨current, hcur, hmatch⟩
  rw [hrecord] at hrecord'
  have hcur' : snapshot (disk'.files record.configPath) = .ok current := by
    rw [hfiles]
    exact hcur
  cases hafter : record.isAfter current with
  | true =>
    rw [settle_after hrecord hpend hcur hafter,
      settle_after hrecord' hpend hcur' hafter, hfiles]
  | false =>
    have hbefore : record.isBefore current = true := by
      rcases hmatch with hbefore | htrue
      · exact hbefore
      · rw [hafter] at htrue
        cases htrue
    rw [settle_before hrecord hpend hcur hafter hbefore,
      settle_before hrecord' hpend hcur' hafter hbefore, hfiles]

namespace Course

variable {c : Course} {begun : Bool} {loaded : Option Record} {record : Record} {disk : Disk}

theorem Since.note {log : List Entry} (h : c.Since begun log) {entry : Entry}
    (hentry : forall record, entry = .saved record -> record.phase.pending = false)
    (hbase : c.env.Quiet -> begun = false -> c.base.Pending) : c.Since begun (entry :: log) := by
  rcases h with ⟨made, hlog, hbegun, _⟩
  refine ⟨entry :: made, by rw [hlog]; rfl, ?_, fun hquiet hfalse => .inr (hbase hquiet hfalse)⟩
  rw [<- hbegun]
  constructor
  · intro hmade
    rcases hmade with ⟨record, hmem, hpend⟩
    rcases List.mem_cons.mp hmem with hhead | htail
    · have hnot := hentry record hhead.symm
      rw [hpend] at hnot
      cases hnot
    · exact ⟨record, htail, hpend⟩
  · intro hmade
    rcases hmade with ⟨record, hmem, hpend⟩
    exact ⟨record, List.mem_cons_of_mem entry hmem, hpend⟩

theorem Since.begin {log : List Entry} (h : c.Since false log)
    (hpend : record.phase.pending = true) : c.Since true (.saved record :: log) := by
  rcases h with ⟨made, hlog, _, _⟩
  refine ⟨.saved record :: made, by rw [hlog]; rfl, ?_, nofun⟩
  exact ⟨fun _ => rfl, fun _ => ⟨record, List.mem_cons_self, hpend⟩⟩

theorem Stage.edited (h : c.Stage begun loaded disk) (hloud : ¬ c.env.Quiet) (path : Path)
    (file : Option File) : c.Stage begun loaded (disk.edit path file) := by
  constructor
  · exact ⟨h.custody.registry, h.custody.valid, h.custody.capability, h.custody.temporaries⟩
  · refine ⟨h.history.saved, ?_, h.history.exact⟩
    change Function.update disk.files path file = _
    rw [h.history.replayed]
    rfl
  · rcases h.since with ⟨made, hlog, hbegun, _⟩
    refine ⟨.edited path file :: made, ?_, ?_, fun hquiet => absurd hquiet hloud⟩
    · change _ :: disk.log = _
      rw [hlog]
      rfl
    · rw [<- hbegun]
      simp [Begun]
  · intro hquiet
    exact absurd hquiet hloud

theorem Stage.stable (c : Course) (begun : Bool) (loaded : Option Record) :
    c.env.Stable (c.Stage begun loaded) :=
  fun _ path file hloud h => h.edited hloud path file

theorem Stage.record_eq (h : c.Stage begun loaded disk) : disk.record = loaded :=
  h.custody.record_eq

theorem Stage.ended (h : c.Stage begun loaded disk) : c.Ended disk :=
  ⟨begun, loaded, h⟩

/-- A failure over a pending record whose config is in neither state. -/
theorem Stage.stuck (h : c.Stage begun (some record) disk) (hpend : record.phase.pending = true)
    (hstuck : c.env.Quiet -> settle c.platform disk = disk.standing)
    (hother : err ≠ .system) : c.Broken err disk := by
  refine ⟨begun, some record, h, fun hsystem => absurd hsystem hother, ?_⟩
  intro _ hquiet
  refine ⟨.inl (hstuck hquiet).symm, ?_⟩
  intro hfalse
  have haim := h.aim hquiet
  rw [hfalse, hstuck hquiet] at haim
  apply c.guarded record.phase _ hpend
  rw [<- haim, Disk.standing, h.record_eq]
  rfl

theorem Stage.failed (h : c.Stage begun loaded disk)
    (hidle : forall record, loaded = some record -> record.phase.pending = false)
    (hother : err ≠ .system)
    (hintent : c.env.Quiet -> begun = false -> c.intent = none) : c.Broken err disk := by
  refine ⟨begun, loaded, h, fun hsystem => absurd hsystem hother, ?_⟩
  intro _ hquiet
  exact ⟨.inl (settle_eq_standing h.record_eq hidle).symm, hintent hquiet⟩

/-- Where a call that has begun, or a record that was pending, leaves a trace. -/
abbrev Traced (c : Course) (begun : Bool) : Prop :=
  c.env.Quiet -> begun = false -> c.base.Pending

@[simp] theorem temporary_setTemporary (disk : Disk) (record : Record) (file : Option File) :
    (disk.setTemporary record file).temporary record = file := by
  simp [Disk.temporary, Disk.setTemporary]

theorem Stage.setTemporary (h : c.Stage begun (some record) disk)
    (hpend : record.phase.pending = true) {file : Option File}
    (hfile : forall found, file = some found -> Usable c.platform record found) :
    c.Stage begun (some record) (disk.setTemporary record file) := by
  refine ⟨⟨h.custody.registry, h.custody.valid, h.custody.capability, ?_⟩,
    ⟨h.history.saved, h.history.replayed, h.history.exact⟩, h.since, h.aim⟩
  intro path transaction found hfound
  by_cases hpath : path = record.configPath
  · by_cases htx : transaction = record.transaction
    · rw [hpath, htx] at hfound
      have hsame : file = some found := by
        rw [<- temporary_setTemporary disk record file]
        exact hfound
      exact ⟨record, rfl, hpend, hpath, htx, hfile found hsame⟩
    · rw [hpath] at hfound
      simp only [Disk.setTemporary, Function.update_self, Function.update_of_ne htx] at hfound
      rw [<- hpath] at hfound
      exact h.custody.temporaries path transaction found hfound
  · simp only [Disk.setTemporary, Function.update_of_ne hpath] at hfound
    exact h.custody.temporaries path transaction found hfound

theorem Stage.temporaryNoted (h : c.Stage begun loaded disk) (htraced : c.Traced begun)
    {entry : Entry} (hentry : entry = .temporaryWritten ∨ entry = .temporaryCleaned) :
    c.Stage begun loaded (disk.noted entry) := by
  refine ⟨⟨h.custody.registry, h.custody.valid, h.custody.capability, h.custody.temporaries⟩,
    ?_, h.since.note ?_ htraced, h.aim⟩
  · rcases hentry with rfl | rfl <;> exact ⟨h.history.saved, h.history.replayed, h.history.exact⟩
  · intro _ hsaved
    rcases hentry with rfl | rfl <;> cases hsaved

section

variable (h : c.Stage begun (some record) disk)
include h

/-- The capability file changes while the config is in one of its two states. -/
theorem Stage.setCapability
    (hpend : record.phase.pending = true) (htraced : c.Traced begun)
    (hmatching : c.env.Quiet -> Matching record disk) {capability : Option Bytes}
    (hfits : CapabilityFits c.platform capability (some record.phase)) {entry : Entry}
    (hentry : entry = .capabilityWritten ∨ entry = .capabilityRevoked) :
    c.Stage begun (some record) ({ disk with capability }.noted entry) := by
  refine ⟨⟨h.custody.registry, h.custody.valid, hfits, h.custody.temporaries⟩, ?_,
    h.since.note ?_ htraced, ?_⟩
  · rcases hentry with rfl | rfl <;> exact ⟨h.history.saved, h.history.replayed, h.history.exact⟩
  · intro _ hsaved
    rcases hentry with rfl | rfl <;> cases hsaved
  · intro hquiet
    have hsettle : settle c.platform ({ disk with capability }.noted entry) =
        settle c.platform disk :=
      settle_of_matching h.record_eq hpend (hmatching hquiet) rfl rfl
    rw [hsettle]
    exact h.aim hquiet

theorem Stage.replace
    (hpend : record.phase.pending = true) (htraced : c.Traced begun) {check : Snapshot}
    (hcheck : snapshot (disk.files record.configPath) = .ok check)
    (hbefore : record.isBefore check = true)
    (hafter : c.env.Quiet -> record.isAfter check = false) : c.Stage begun (some record)
      (disk.replace record (replacement c.platform record check)) := by
  have hvalid := h.custody.valid record rfl
  rcases snapshot_replacement hvalid check with ⟨final, hfinal, hdone⟩
  refine ⟨⟨h.custody.registry, h.custody.valid, h.custody.capability, h.custody.temporaries⟩,
    ⟨h.history.saved, ?_, ?_, h.history.exact⟩, h.since.note (by intro _ hsaved; cases hsaved)
    htraced, ?_⟩
  · change Function.update disk.files _ _ = _
    rw [h.history.replayed]
    rfl
  · refine ⟨h.history.saved, hpend, ⟨check, ?_, hbefore⟩, final, hfinal, hdone⟩
    rw [<- h.history.replayed]
    exact hcheck
  · intro hquiet
    have hrecord : (disk.replace record (replacement c.platform record check)).record =
        some record := h.record_eq
    have hcur : snapshot ((disk.replace record
        (replacement c.platform record check)).files record.configPath) = .ok final := by
      simpa [Disk.replace, Disk.noted] using hfinal
    have haim := h.aim hquiet
    rw [settle_before h.record_eq hpend hcheck (hafter hquiet) hbefore] at haim
    rw [settle_after hrecord hpend hcur hdone]
    exact haim

theorem Stage.reached_replace (check : Snapshot) :
    Reached record (disk.replace record (replacement c.platform record check)) := by
  rcases snapshot_replacement (h.custody.valid record rfl) check with ⟨final, hfinal, hdone⟩
  exact ⟨final, by simpa [Disk.replace, Disk.noted] using hfinal, hdone⟩

end

theorem Custody.temporaries_none {loaded : Option Record} {disk : Disk}
    (h : Custody platform loaded disk)
    (hidle : forall record, loaded = some record -> record.phase.pending = true ->
      disk.temporary record = none) (path : Path) (transaction : Transaction) :
    disk.temporaries path transaction = none := by
  cases hfound : disk.temporaries path transaction with
  | none => rfl
  | some file =>
    rcases h.temporaries path transaction file hfound with
      ⟨record, hloaded, hpend, rfl, rfl, _⟩
    have hnone := hidle record hloaded hpend
    rw [Disk.temporary, hfound] at hnone
    cases hnone

theorem standing_saveRecord {record : Record} (hvalid : record.Valid platform) (disk : Disk) :
    (disk.saveRecord record record.bytes).record = some record ∧
      (disk.saveRecord record record.bytes).standing =
        { files := disk.files, capability := disk.capability, phase := some record.phase } := by
  have hrecord : (disk.saveRecord record record.bytes).record = some record := by
    change Option.bind (some record.bytes) _ = some record
    rw [Option.bind_some, hvalid.encodable.decodedRecord_bytes]
    rfl
  refine ⟨hrecord, ?_⟩
  rw [Disk.standing, hrecord]
  rfl

theorem Stage.saveFinal (h : c.Stage begun (some record) disk)
    (hpend : record.phase.pending = true) (htraced : c.Traced begun)
    (hreached : c.env.Quiet -> Reached record disk)
    (hcap : disk.capability = record.phase.capability c.platform)
    (htemporary : disk.temporary record = none) {final : Record}
    (hvalid : final.Valid c.platform) (hphase : final.phase = record.phase.finished) :
    c.Stage begun (some final) (disk.saveRecord final final.bytes) := by
  have hidle : final.phase.pending = false := by
    rw [hphase]
    cases record.phase <;> rfl
  have hnone := Custody.temporaries_none h.custody (by
    intro other hother _
    cases hother
    exact htemporary)
  rcases standing_saveRecord hvalid disk with ⟨hrecord, hstand⟩
  refine ⟨⟨rfl, forall_some hvalid, ?_, ?_⟩, ⟨rfl, h.history.replayed, h.history.exact⟩,
    h.since.note ?_ htraced, ?_⟩
  · change CapabilityFits c.platform disk.capability (some final.phase)
    rw [hcap, hphase]
    cases hcase : record.phase with
    | pendingInstall | pendingRemove | installed | removed => rfl
  · intro path transaction file hfile
    have hnot := hnone path transaction
    change disk.temporaries path transaction = some file at hfile
    rw [hfile] at hnot
    cases hnot
  · intro other hother
    cases hother
    exact hidle
  · intro hquiet
    rcases hreached hquiet with ⟨_, hcur, hafter⟩
    have haim := h.aim hquiet
    rw [settle_after h.record_eq hpend hcur hafter] at haim
    rw [settle_eq_standing hrecord (forall_some hidle), hstand, hcap, hphase]
    exact haim

theorem Stage.saveNew (h : c.Stage false loaded disk)
    (hidle : forall other, loaded = some other -> other.phase.pending = false)
    (hvalid : record.Valid c.platform) (hpend : record.phase.pending = true)
    (haim : c.env.Quiet ->
      c.intent = some (settle c.platform (disk.saveRecord record record.bytes))) :
    c.Stage true (some record) (disk.saveRecord record record.bytes) := by
  have hnone := Custody.temporaries_none h.custody (by
    intro other hother hbusy
    rw [hidle other hother] at hbusy
    cases hbusy)
  refine ⟨⟨rfl, forall_some hvalid, ?_, ?_⟩, ⟨rfl, h.history.replayed, h.history.exact⟩,
    h.since.begin hpend, haim⟩
  · have hfits := h.custody.capability
    change CapabilityFits c.platform disk.capability (some record.phase)
    have hcases : disk.capability = none ∨ disk.capability = some c.platform.capability.toList := by
      cases loaded with
      | none => exact Or.inl hfits
      | some other =>
        have hother := hidle other rfl
        rw [Option.map_some] at hfits
        cases hphase : other.phase with
        | removed =>
          rw [hphase] at hfits
          exact Or.inl hfits
        | installed =>
          rw [hphase] at hfits
          exact Or.inr hfits
        | pendingInstall | pendingRemove => cases hphase ▸ hother
    cases hphase : record.phase with
    | pendingInstall | pendingRemove => exact hcases
    | installed | removed => cases hphase ▸ hpend
  · intro path transaction file hfile
    have hnot := hnone path transaction
    change disk.temporaries path transaction = some file at hfile
    rw [hfile] at hnot
    cases hnot

end Course

end Omux.Setup
