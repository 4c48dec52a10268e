import Omux.Setup.Foreign

/-!
# Crash safety of setup

Over any sequence of calls, crashes and edits a config is replaced only from its recorded
before state to its recorded after state, and a recovery after a crash ends where the
interrupted call would have ended, or, if that call was still completing an earlier
transaction of the other kind, where a recovery in its place would have ended.
-/

namespace Omux.Setup

open Library

/-!
## Every run
-/

def Sound (platform : Platform) (files : Path -> Option File) (disk : Disk) : Prop :=
  exists loaded, Custody platform loaded disk ∧ History files loaded disk

section

variable {platform : Platform} {files : Path -> Option File}

theorem fresh_base {loaded : Option Record} {base : Disk}
    (hcust : Custody platform loaded base) (hhist : History files loaded base)
    (env : Environment) (request : Request) :
    Fresh (courseOf platform files env base request) loaded base := by
  refine ⟨⟨hcust, hhist, ⟨[], rfl, ?_, fun _ _ => .inl rfl⟩, fun _ => rfl⟩, fun _ => rfl⟩
  simp [Begun]

variable {w : World} {disk : Disk} {env : Environment} {request : Request} {c : Course}
  {answer : Answer} {record : Record}

theorem perform_cases (h : Sound platform files w.disk) (env : Environment) (request : Request) :
    let c := courseOf platform files env w.disk request
    match perform platform env request w with
    | (.done answer, t) => Answered c answer t.disk
    | (.failed err, t) => c.Broken err t.disk
    | (.killed, t) => c.Cut t.disk := by
  rcases h with ⟨_, hcust, hhist⟩
  have hrun := perform_proceeds env request hcust w (fresh_base hcust hhist env request)
  revert hrun
  rcases perform platform env request w with ⟨outcome, t⟩
  cases outcome <;> exact id

theorem Answered.ended (h : Answered c answer disk) : c.Ended disk := by
  cases answer with
  | installed | removed =>
    rcases h with ⟨_, saved, hstage, _⟩
    exact hstage.ended
  | recovered recovery =>
    cases recovery with
    | none => exact h.1.ended
    | installed | removed | conflict =>
      rcases h.1 with ⟨saved, hstage, _⟩
      exact hstage.ended

theorem Course.Ended.sound (h : c.Ended disk) : Sound c.platform c.files disk := by
  rcases h with ⟨_, loaded, hstage⟩
  exact ⟨loaded, hstage.custody, hstage.history⟩

theorem perform_sound (h : Sound platform files w.disk) (env : Environment) (request : Request) :
    Sound platform files (perform platform env request w).2.disk := by
  have hcases := perform_cases h env request
  revert hcases
  rcases perform platform env request w with ⟨outcome, t⟩
  cases outcome with
  | done =>
    intro hcases
    exact hcases.ended.sound
  | failed =>
    intro hcases
    rcases hcases with ⟨_, _, hstage, _⟩
    exact hstage.ended.sound
  | killed =>
    intro hcases
    exact hcases.1.sound

theorem Sound.edit (h : Sound platform files disk) (path : Path) (file : Option File) :
    Sound platform files (disk.edit path file) := by
  rcases h with ⟨loaded, hcust, hhist⟩
  refine ⟨loaded, { hcust with }, hhist.saved, ?_, hhist.exact⟩
  change Function.update disk.files path file = _
  rw [hhist.replayed]
  rfl

theorem step_sound (h : Sound platform files w.disk) (event : Event) :
    Sound platform files (step platform w event).disk := by
  cases event with
  | call env request => exact perform_sound h env request
  | edit path file => exact h.edit path file

theorem start_sound (platform : Platform) (files : Path -> Option File) :
    Sound platform files (start files).disk := by
  refine ⟨none, ⟨rfl, ?_, rfl, ?_⟩, rfl, rfl, trivial⟩
  · nofun
  · nofun

theorem run_sound (platform : Platform) (files : Path -> Option File) (events : List Event) :
    Sound platform files (run (step platform) (start files) events).disk :=
  run_invariant (P := fun w : World => Sound platform files w.disk)
    (fun _ event h => step_sound h event) (start_sound platform files) events

/-!
## Calls that are not interrupted
-/

def Uninterrupted (env : Environment) : Prop :=
  env.Calm ∧ env.Quiet

theorem Answered.standing (h : Answered c answer disk) (hquiet : c.env.Quiet) :
    exists begun loaded, c.Stage begun loaded disk ∧
      disk.standing = settle c.platform disk ∧ (begun = false -> c.intent = none) := by
  have hidle : forall {begun : Bool} {saved : Record}, c.Stage begun (some saved) disk ->
      saved.phase = .installed ∨ saved.phase = .removed ->
      disk.standing = settle c.platform disk := by
    intro begun saved hstage hphase
    exact (settle_eq_standing hstage.record_eq (forall_some (pending_false_of_phase hphase))).symm
  cases answer with
  | installed =>
    rcases h with ⟨begun, saved, hstage, hphase, hintent⟩
    exact ⟨begun, some saved, hstage, hidle hstage (.inl hphase), hintent hquiet⟩
  | removed =>
    rcases h with ⟨begun, saved, hstage, hphase, hintent⟩
    exact ⟨begun, some saved, hstage, hidle hstage (.inr hphase), hintent hquiet⟩
  | recovered recovery =>
    rcases h with ⟨hrec, hnone⟩
    cases recovery with
    | none =>
      refine ⟨false, none, hrec, ?_, fun _ => hnone⟩
      exact (settle_eq_standing hrec.record_eq nofun).symm
    | installed =>
      rcases hrec with ⟨saved, hstage, hphase⟩
      exact ⟨false, some saved, hstage, hidle hstage (.inl hphase), fun _ => hnone⟩
    | removed =>
      rcases hrec with ⟨saved, hstage, hphase⟩
      exact ⟨false, some saved, hstage, hidle hstage (.inr hphase), fun _ => hnone⟩
    | conflict =>
      rcases hrec with ⟨saved, hstage, hstand⟩
      exact ⟨false, some saved, hstage, hstand hquiet, fun _ => hnone⟩

theorem uninterrupted_ends (h : Sound platform files w.disk) (hwhole : Uninterrupted env)
    (request : Request) :
    let c := courseOf platform files env w.disk request
    exists begun loaded, c.Stage begun loaded (perform platform env request w).2.disk ∧
      ((perform platform env request w).2.disk.standing =
        settle platform (perform platform env request w).2.disk ∨ c.refused) ∧
      (begun = false -> c.intent = none) := by
  have hcases := perform_cases h env request
  revert hcases
  rcases perform platform env request w with ⟨outcome, t⟩
  cases outcome with
  | done =>
    intro hcases
    rcases hcases.standing hwhole.2 with ⟨begun, loaded, hstage, hstand, hintent⟩
    exact ⟨begun, loaded, hstage, .inl hstand, hintent⟩
  | failed err =>
    intro hcases
    rcases hcases with ⟨begun, loaded, hstage, hsystem, hother⟩
    have herr : err ≠ .system := fun herr => hsystem herr hwhole.1
    rcases hother herr hwhole.2 with ⟨hstand, hintent⟩
    exact ⟨begun, loaded, hstage, hstand, hintent⟩
  | killed =>
    intro hcases
    exact absurd hwhole.1 hcases.2

theorem refused_intent {base : Disk} (h : (courseOf platform files env base request).refused) :
    intended platform base request = none := by
  rcases h with ⟨_, _, rfl, herr⟩
  exact intendedInstall_refused herr

section

variable (h : Sound platform files w.disk) (hwhole : Uninterrupted env)
include h hwhole

/-- A call that is meant to change something does. -/
theorem uninterrupted_intended {standing : Standing}
    (hintent : intended platform w.disk request = some standing) :
    (perform platform env request w).2.disk.standing = standing := by
  rcases uninterrupted_ends h hwhole request with
    ⟨begun, _, hstage, hstand, hnone⟩
  have haim := hstage.aim hwhole.2
  rcases hstand with hstand | hrefused
  · cases begun with
    | false =>
      have hcontra : intended platform w.disk request = none := hnone rfl
      rw [hcontra] at hintent
      cases hintent
    | true =>
      change intended platform w.disk request = some _ at haim
      rw [haim] at hintent
      rw [hstand]
      exact Option.some.inj hintent
  · rw [refused_intent hrefused] at hintent
    cases hintent

/-- Any other call leaves the disk settled. -/
theorem uninterrupted_settled (hintent : intended platform w.disk request = none)
    (hacc : ¬ (courseOf platform files env w.disk request).refused) :
    (perform platform env request w).2.disk.standing = settle platform w.disk := by
  rcases uninterrupted_ends h hwhole request with
    ⟨begun, _, hstage, hstand, _⟩
  have haim := hstage.aim hwhole.2
  rcases hstand with hstand | hrefused
  · cases begun with
    | false =>
      rw [hstand]
      exact haim
    | true =>
      change intended platform w.disk request = some _ at haim
      rw [haim] at hintent
      cases hintent
  · exact absurd hrefused hacc

theorem recover_settles :
    (perform platform env .recover w).2.disk.standing = settle platform w.disk := by
  apply uninterrupted_settled h hwhole rfl
  intro hrefused
  rcases hrefused with ⟨_, _, hreq, _⟩
  cases hreq

end

/-!
## Calls that are cut off
-/

/-- The call first completes a pending transaction of the other kind. -/
def crosses (request : Request) (record : Option Record) : Bool :=
  match request with
  | .install _ => record.any (fun record => record.phase == .pendingRemove)
  | .remove => record.any (fun record => record.phase == .pendingInstall)
  | .recover => false

theorem settle_phase (hrecord : disk.record = some record) :
    (settle platform disk).phase = some record.phase ∨
      (settle platform disk).phase = some record.phase.finished := by
  have hstand : disk.standing.phase = some record.phase := by
    rw [Disk.standing, hrecord]
    rfl
  unfold settle
  rw [hrecord]
  dsimp only
  split
  · unfold settleRecord
    split
    · exact Or.inl hstand
    · split
      · exact Or.inr rfl
      · split
        · exact Or.inr rfl
        · exact Or.inl hstand
  · exact Or.inl hstand

/-- A call over a pending transaction of its own kind only completes it. -/
theorem intended_of_pending (hrecord : disk.record = some record)
    (hpend : record.phase.pending = true) (hkind : crosses request disk.record = false) :
    intended platform disk request = none := by
  have hphase : (settle platform disk).phase = some record.phase ∨
      (settle platform disk).phase = some record.phase.finished := settle_phase hrecord
  rw [hrecord] at hkind
  cases request with
  | recover => rfl
  | install =>
    cases hcase : record.phase with
    | pendingInstall =>
      rw [hcase] at hphase
      rcases hphase with h | h <;> exact intendedInstall_phase h (by decide)
    | pendingRemove => simp [crosses, hcase] at hkind
    | installed | removed => cases hcase ▸ hpend
  | remove =>
    apply intendedRemoval_phase
    cases hcase : record.phase with
    | pendingInstall => simp [crosses, hcase] at hkind
    | pendingRemove =>
      rw [hcase] at hphase
      rcases hphase with h | h <;> rw [h] <;> decide
    | installed | removed => cases hcase ▸ hpend

theorem accepted_of_kind (hkind : crosses request disk.record = false) :
    ¬ (courseOf platform files env disk request).refused := by
  intro hrefused
  rcases hrefused with ⟨selection, _, rfl, herr⟩
  have hpassed : refusal disk selection = .ok () := by
    apply refusal_of_phase
    intro _ hrecord hphase
    rw [hrecord] at hkind
    simp [crosses, hphase] at hkind
  rw [hpassed] at herr
  cases herr

/-- Recovery after a crash of `request` between `w` and `t`. -/
def RecoversAlike (platform : Platform) (request : Request) (w t : World) : Prop :=
  exists made, t.disk.log = made ++ w.disk.log ∧
    forall env env', Uninterrupted env -> Uninterrupted env' ->
      (made ≠ [] -> crosses request w.disk.record = false ∨ Begun made -> (perform platform env
        .recover t).2.disk.standing = (perform platform env' request w).2.disk.standing) ∧
      (¬ Begun made -> (perform platform env .recover t).2.disk.standing =
        (perform platform env' .recover w).2.disk.standing)

theorem killed_recoversAlike {t : World} (h : Sound platform files w.disk) (hquiet : env.Quiet)
    (hkilled : perform platform env request w = (.killed, t)) :
    RecoversAlike platform request w t := by
  have hcases := perform_cases h env request
  rw [hkilled] at hcases
  rcases hcases with ⟨⟨begun, loaded, hstage⟩, _⟩
  have hsound : Sound platform files t.disk := ⟨loaded, hstage.custody, hstage.history⟩
  rcases hstage.since with ⟨made, hlog, hbegun, hpend⟩
  refine ⟨made, hlog, ?_⟩
  intro _ _ hfirst hsecond
  rw [recover_settles hsound hfirst]
  have haim := hstage.aim hquiet
  cases begun with
  | true =>
    have hmade : Begun made := hbegun.mpr rfl
    refine ⟨fun _ _ => ?_, fun hnot => absurd hmade hnot⟩
    exact (uninterrupted_intended h hsecond haim).symm
  | false =>
    have hnot : ¬ Begun made := fun hmade => by cases hbegun.mp hmade
    refine ⟨fun hsteps hkind => ?_, fun _ => ?_⟩
    · have hkind' : crosses request w.disk.record = false := by
        rcases hkind with hkind | hmade
        · exact hkind
        · exact absurd hmade hnot
      rcases hpend hquiet rfl with hnil | ⟨_, hrecord, hbusy⟩
      · exact absurd hnil hsteps
      · rw [uninterrupted_settled h hsecond
          (intended_of_pending hrecord hbusy hkind') (accepted_of_kind hkind')]
        exact haim
    · rw [recover_settles h hsecond]
      exact haim

/-!
## Reports
-/

/-- The capability file agrees with what the call reports. -/
def TrueReport (disk : Disk) : Answer -> Prop
  | .installed _ | .recovered .installed =>
    exists record, disk.record = some record ∧ record.phase = .installed ∧
      disk.capability = some record.capability.toList
  | .removed _ | .recovered .removed =>
    (exists record, disk.record = some record ∧ record.phase = .removed) ∧
      disk.capability = none
  | .recovered .none | .recovered .conflict => True

theorem Answered.trueReport (h : Answered c answer disk) : TrueReport disk answer := by
  have hinst : forall {begun : Bool} {saved : Record}, c.Stage begun (some saved) disk ->
      saved.phase = .installed -> exists record, disk.record = some record ∧
        record.phase = .installed ∧ disk.capability = some record.capability.toList :=
    fun hstage hphase => ⟨_, hstage.record_eq, hphase, hstage.capability_installed hphase⟩
  have hremoved : forall {begun : Bool} {saved : Record}, c.Stage begun (some saved) disk ->
      saved.phase = .removed -> (exists record, disk.record = some record ∧
        record.phase = .removed) ∧ disk.capability = none :=
    fun hstage hphase => ⟨⟨_, hstage.record_eq, hphase⟩, hstage.capability_removed hphase⟩
  cases answer with
  | installed =>
    rcases h with ⟨begun, saved, hstage, hphase, _⟩
    exact hinst hstage hphase
  | removed =>
    rcases h with ⟨begun, saved, hstage, hphase, _⟩
    exact hremoved hstage hphase
  | recovered recovery =>
    cases recovery with
    | none | conflict => trivial
    | installed =>
      rcases h.1 with ⟨saved, hstage, hphase⟩
      exact hinst hstage hphase
    | removed =>
      rcases h.1 with ⟨saved, hstage, hphase⟩
      exact hremoved hstage hphase

/-- A call over a config in neither state: nothing on the disk changes. -/
def LeftAlone (platform : Platform) (env : Environment) (request : Request) (record : Record)
    (w : World) : Prop :=
  match perform platform env request w with
  | (.done answer, t) => t.disk = w.disk ∧ foreignAnswer w.disk record request = .ok answer
  | (.failed err, t) => t.disk = w.disk ∧ (err = .system ∧ ¬ env.Calm ∨
      foreignAnswer w.disk record request = .error err)
  | (.killed, t) => t.disk = w.disk ∧ ¬ env.Calm

theorem foreign_leftAlone (h : Sound platform files w.disk)
    (hrecord : w.disk.record = some record) (hpend : record.phase.pending = true)
    (hquiet : env.Quiet) (hforeign : ¬ Matching record w.disk) (request : Request) :
    LeftAlone platform env request record w := by
  rcases h with ⟨_, hcust, _⟩
  rw [hcust.record_eq] at hrecord
  rw [hrecord] at hcust
  have hrun := perform_foreign hcust hpend hquiet hforeign request w rfl
  revert hrun
  unfold LeftAlone
  rcases perform platform env request w with ⟨outcome, t⟩
  cases outcome with
  | done =>
    intro hrun
    exact ⟨hrun.1, hrun.2.2 hquiet⟩
  | failed err =>
    intro hrun
    refine ⟨hrun.1, ?_⟩
    by_cases hsystem : err = .system
    · exact Or.inl ⟨hsystem, hrun.2.1 hsystem⟩
    · exact Or.inr (hrun.2.2 hsystem hquiet)
  | killed =>
    intro hrun
    exact hrun

end

theorem setup_transactions_crash_safe (platform : Platform) (files : Path -> Option File)
    (events : List Event) :
    let w := run (step platform) (start files) events
    (w.disk.files = replay files w.disk.log ∧ AllExact files w.disk.log) ∧
    (forall env request record, env.Quiet -> w.disk.record = some record -> record.phase.pending =
      true -> ¬ Matching record w.disk -> LeftAlone platform env request record w) ∧
    (forall env request t, env.Quiet -> perform platform env request w = (.killed, t) ->
      RecoversAlike platform request w t) ∧
    (forall env request answer t, perform platform env request w = (.done answer, t) ->
      TrueReport t.disk answer) := by
  intro w
  have hsound : Sound platform files w.disk := run_sound platform files events
  refine ⟨?_, ?_, ?_, ?_⟩
  · rcases hsound with ⟨_, _, hhist⟩
    exact ⟨hhist.replayed, hhist.exact⟩
  · intro env request record hquiet hrecord hpend hforeign
    exact foreign_leftAlone hsound hrecord hpend hquiet hforeign request
  · intro env request t hquiet hkilled
    exact killed_recoversAlike hsound hquiet hkilled
  · intro env request answer t hdone
    have hcases := perform_cases hsound env request
    rw [hdone] at hcases
    exact hcases.trueReport

/-!
## Where the call is not what is recovered
-/

def samplePlatform : Platform :=
  { capability := Vector.replicate 64 0x30, group := 0, stateDir := ascii "/s" }

def sampleSelection : Selection :=
  { home := ascii "/h", xdgConfigHome := none, configPath := some (ascii "/c") }

def crashAt (crash : Option Nat) : Environment :=
  { fault := fun tick => if some tick = crash then .crash else .none
    edits := fun _ => []
    random := fun _ => Vector.replicate 16 0 }

/-- An install that was cut off right after its record was saved. -/
def cutInstall : World :=
  run (step samplePlatform) (start (fun _ => none))
    [.call (crashAt (some 9)) (.install sampleSelection)]

/-- A removal that was cut off while it still completed that install. -/
def cutRemoval : Outcome SetupError Answer × World :=
  perform samplePlatform (crashAt (some 20)) .remove cutInstall

/-- The user makes the config writable for the group. -/
def unsafeEdit : World :=
  step samplePlatform cutInstall
    (.edit (ascii "/c") (some { regular := true, mode := 0o664, gid := 0, bytes := [] }))

/-- A removal that was cut off right after its record was saved, and then an edit. -/
def editedRemoval : World :=
  run (step samplePlatform) (start (fun _ => none))
    [.call (crashAt none) (.install sampleSelection), .call (crashAt (some 180)) .remove,
      .edit (ascii "/c") (some { regular := true, mode := 0o600, gid := 0, bytes := [0x61] })]

def relativeSelection : Selection :=
  { sampleSelection with configPath := some (ascii "c") }

/-- The recovery finishes the install, where the removal would have gone on to remove it;
a config that is not safe to read is no conflict but an error of its own; and an install
over a pending removal can be refused before it comes to the config. -/
theorem recovery_finishes_the_recorded_transaction : cutRemoval.1 = .killed ∧
      cutRemoval.2.disk.log = .capabilityWritten :: cutInstall.disk.log ∧
      (perform samplePlatform (crashAt none) .recover cutRemoval.2).2.disk.standing.phase =
        some .installed ∧
      (perform samplePlatform (crashAt none) .remove cutInstall).2.disk.standing.phase =
        some .removed ∧
      unsafeEdit.disk.record.map (fun record => record.phase) = some .pendingInstall ∧
      (perform samplePlatform (crashAt none) .recover unsafeEdit).1 = .failed .unsafeConfigFile ∧
      editedRemoval.disk.record.map (fun record => record.phase) = some .pendingRemove ∧
      (perform samplePlatform (crashAt none) .recover editedRemoval).1 =
        .done (.recovered .conflict) ∧
      (perform samplePlatform (crashAt none) (.install relativeSelection) editedRemoval).1 =
        .failed .unsafePath := by
  decide +kernel

end Omux.Setup
