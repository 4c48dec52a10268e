import Omux.Setup.Custody

/-!
# What the calls read

As long as no other program edits a config, a part of a call that only reads returns what
a pure function makes of the files.
-/

namespace Omux.Setup

open Library

/-- No other program edits a config while the call runs. -/
def Environment.Quiet (env : Environment) : Prop :=
  forall tick, env.edits tick = []

/-- Nothing fails and nothing is cut off. -/
def Environment.Calm (env : Environment) : Prop :=
  forall tick, env.fault tick = .none

/-- An assertion that survives the edits of other programs. -/
def Environment.Stable (env : Environment) (P : Disk -> Prop) : Prop :=
  forall disk path file, ¬ env.Quiet -> P disk -> P (disk.edit path file)

/-!
## Errors of the code

Only the environment fails with the system's error.
-/

def Plain {α : Type} (result : Result α) : Prop :=
  result ≠ .error .system

variable {α : Type} {err : SetupError}

theorem Plain.other {result : Result α} (h : Plain result) (herr : result = .error err) :
    err ≠ .system := by
  intro hsystem
  rw [hsystem] at herr
  exact h herr

theorem plain_pure (a : α) : Plain (pure a : Result α) := by
  nofun

theorem plain_bind {β : Type} {result : Result α} {next : α -> Result β} (hresult : Plain result)
    (hnext : forall a, Plain (next a)) : Plain (result >>= next) := by
  intro h
  rw [bind_eq_error] at h
  rcases h with herr | ⟨a, _, herr⟩
  · exact hresult herr
  · exact hnext a herr

theorem plain_failIf {cond : Bool} (h : err ≠ .system) : Plain (failIf cond err) := by
  intro herr
  rw [failIf_eq_error] at herr
  exact h herr.2

theorem plain_orFail {value : Option α} (h : err ≠ .system) : Plain (orFail value err) := by
  cases value with
  | none =>
    intro herr
    cases herr
    exact h rfl
  | some a => exact plain_pure a

theorem plain_checkAll {check : α -> Result Unit} (h : forall a, Plain (check a)) (items : List α)
    : Plain (checkAll check items) := by
  induction items with
  | nil => exact plain_pure ()
  | cons item _ ih => exact plain_bind (h item) (fun _ => ih)

theorem plain_validateAbsolute (path : Path) : Plain (validateAbsolute path) :=
  plain_bind (plain_failIf (by decide)) (fun _ =>
    plain_checkAll (fun _ => plain_failIf (by decide)) _)

theorem plain_openParent (path : Path) : Plain (openParent path) :=
  plain_bind (plain_validateAbsolute path) (fun _ => plain_failIf (by decide))

theorem plain_checkCompletion (operation : Operation) (path : Path) :
    Plain (checkCompletion operation path) :=
  plain_checkAll (fun _ => plain_failIf (by decide)) _

theorem plain_alternative (selection : Selection) : Plain (alternative selection) := by
  unfold alternative
  cases selection.xdgConfigHome with
  | none => exact plain_pure _
  | some base => exact plain_bind (plain_validateAbsolute base) (fun _ => plain_pure _)

theorem plain_installConfig (original helperName : Bytes) :
    Plain (installConfig original helperName) :=
  plain_bind (plain_failIf (by decide)) (fun _ =>
    plain_bind (plain_failIf (by decide)) (fun _ =>
      plain_bind (plain_failIf (by decide)) (fun _ => plain_pure _)))

theorem plain_removeConfig (current installed original : Bytes) :
    Plain (removeConfig current installed original) := by
  unfold removeConfig
  split
  · exact plain_pure _
  · exact plain_bind (plain_orFail (by decide)) (fun _ =>
      plain_bind (plain_orFail (by decide)) (fun _ =>
        plain_bind (plain_failIf (by decide)) (fun _ =>
          plain_bind (plain_orFail (by decide)) (fun _ =>
            plain_bind (plain_failIf (by decide)) (fun _ =>
              plain_bind (plain_failIf (by decide)) (fun _ => plain_pure _))))))

theorem plain_snapshot (file : Option File) : Plain (snapshot file) := by
  cases file with
  | none => exact plain_pure _
  | some =>
    exact plain_bind (plain_failIf (by decide)) (fun _ =>
      plain_bind (plain_failIf (by decide)) (fun _ => plain_pure _))

/-!
## The rules of reading
-/

/-- The task keeps `P`, and what it returns satisfies `φ`; undisturbed it returns
`result`. -/
def Reads {α : Type} (env : Environment) (P : Disk -> Prop) (task : Work α)
    (result : Result α) (φ : α -> Prop) : Prop :=
  Meets (fun w => P w.disk) task
    (fun a w => P w.disk ∧ φ a ∧ (env.Quiet -> result = .ok a))
    (fun err w => P w.disk ∧ (err = .system -> ¬ env.Calm) ∧
      (err ≠ .system -> env.Quiet -> result = .error err))
    (fun w => P w.disk ∧ ¬ env.Calm)

section

variable {env : Environment} {P : Disk -> Prop} {β : Type} {result : Result α} {φ : α -> Prop}
  {ψ : β -> Prop}

theorem reads_pure {a : α} (h : φ a) : Reads env P (pure a) (pure a) φ :=
  meets_pure (fun _ hw => ⟨hw, h, fun _ => rfl⟩)

theorem reads_lift (hplain : Plain result) :
    Reads env P (Task.lift result) result (fun a => result = .ok a) :=
  meets_lift (fun _ _ ha hw => ⟨hw, ha, fun _ => ha⟩)
    (fun _ _ herr hw => ⟨hw, fun hsystem => absurd hsystem (hplain.other herr), fun _ _ => herr⟩)

theorem reads_interrupt : Reads env P (interrupt env) (pure ()) (fun _ => True) := by
  intro w hw
  unfold interrupt
  cases hfault : env.fault w.tick with
  | none => exact ⟨hw, trivial, fun _ => rfl⟩
  | failure =>
    refine ⟨hw, ?_, fun hother => absurd rfl hother⟩
    intro _ hcalm
    rw [hcalm] at hfault
    cases hfault
  | crash =>
    refine ⟨hw, ?_⟩
    intro hcalm
    rw [hcalm] at hfault
    cases hfault

theorem reads_bind {task : Work α} {next : α -> Work β} {f : α -> Result β}
    (htask : Reads env P task result φ) (hnext : forall a, φ a -> Reads env P (next a) (f a) ψ) :
    Reads env P (task >>= next) (result >>= f) ψ := by
  refine meets_bind (htask.post (fun _ _ h => h) ?_ (fun _ h => h)) (fun a => ?_)
  · intro err w hw
    refine ⟨hw.1, hw.2.1, fun hother hquiet => ?_⟩
    rw [hw.2.2 hother hquiet, bind_error]
  · intro w hw
    have hresult : env.Quiet -> (result >>= f) = f a := by
      intro hquiet
      rw [hw.2.2 hquiet, bind_ok]
    refine (hnext a hw.2.1).post ?_ ?_ (fun _ h => h) w hw.1
    · intro b v hv
      exact ⟨hv.1, hv.2.1, fun hquiet => (hresult hquiet).trans (hv.2.2 hquiet)⟩
    · intro err v hv
      exact ⟨hv.1, hv.2.1, fun hother hquiet => (hresult hquiet).trans (hv.2.2 hother hquiet)⟩

theorem reads_after {first : Work Unit} {task : Work α}
    (hfirst : Reads env P first (pure ()) (fun _ => True))
    (htask : Reads env P task result φ) : Reads env P (first >>= fun _ => task) result φ :=
  reads_bind hfirst (fun _ _ => htask)

theorem meets_otherPrograms {E : SetupError -> World -> Prop} {K : World -> Prop}
    (hstable : env.Stable P) :
    Meets (fun w => P w.disk) (otherPrograms env) (fun _ w => P w.disk) E K := by
  have hfold : forall (edits : List (Path × Option File)) disk, (edits = [] ∨ ¬ env.Quiet) ->
      P disk -> P (edits.foldl (fun disk edit => disk.edit edit.1 edit.2) disk) := by
    intro edits
    induction edits with
    | nil =>
      intro disk _ hdisk
      exact hdisk
    | cons edit _ ih =>
      intro disk hloud hdisk
      have hloud' : ¬ env.Quiet := by
        rcases hloud with hnil | hloud
        · cases hnil
        · exact hloud
      exact ih _ (.inr hloud') (hstable disk edit.1 edit.2 hloud' hdisk)
  intro w hw
  refine hfold (env.edits w.tick) w.disk ?_ hw
  by_cases hquiet : env.Quiet
  · exact Or.inl (hquiet w.tick)
  · exact Or.inr hquiet

end

/-!
## Reading a config
-/

def readFrom (files : Path -> Option File) (path : Path) : Result Snapshot := do
  openParent path
  snapshot (files path)

theorem snapshot_of_readFrom {files : Path -> Option File} {path : Path} {current : Snapshot}
    (h : readFrom files path = .ok current) : snapshot (files path) = .ok current := by
  rw [readFrom, bind_eq_ok] at h
  rcases h with ⟨_, _, h⟩
  exact h

/-- Files that the reader knows as long as nobody edits. -/
structure Known (env : Environment) (files : Path -> Option File) (P : Disk -> Prop) :
    Prop where
  stable : env.Stable P
  files : forall disk, env.Quiet -> P disk -> disk.files = files

section

variable {env : Environment} {files : Path -> Option File} {P : Disk -> Prop}

abbrev WasRead (path : Path) (current : Snapshot) : Prop :=
  openParent path = .ok () ∧ exists file, snapshot file = .ok current

section

variable (hknown : Known env files P)
include hknown

theorem readConfig_reads (path : Path) :
    Reads env P (readConfig env path) (readFrom files path) (WasRead path) := by
  refine reads_bind (reads_lift (plain_openParent path)) (fun _ hparent => ?_)
  refine reads_after reads_interrupt ?_
  refine meets_bind (meets_otherPrograms hknown.stable) (fun _ => ?_)
  refine meets_bind (meets_read (Q := fun file w => P w.disk ∧ file = w.disk.files path)
    (fun _ hw => ⟨hw, rfl⟩)) (fun file => ?_)
  have hlift : Reads env P (Task.lift (snapshot file)) (snapshot file)
      (fun current => snapshot file = .ok current) := reads_lift (plain_snapshot file)
  intro w hw
  have hsame : env.Quiet -> snapshot (files path) = snapshot file := by
    intro hquiet
    rw [hw.2, hknown.files w.disk hquiet hw.1]
  refine hlift.post ?_ ?_ (fun _ h => h) w hw.1
  · intro current v hv
    exact ⟨hv.1, ⟨hparent, file, hv.2.1⟩, fun hquiet => (hsame hquiet).trans hv.2.1⟩
  · intro _ v hv
    exact ⟨hv.1, hv.2.1, fun hother hquiet => (hsame hquiet).trans (hv.2.2 hother hquiet)⟩

/-!
## Choosing a config
-/

def chosen (files : Path -> Option File) (selection : Selection) : Result Path :=
  match selection.configPath with
  | some path => do
    validateAbsolute path
    pure path
  | none => do
    validateAbsolute selection.home
    let current <- readFrom files (conventional selection)
    if current.existed then pure (conventional selection)
    else do
      let xdg <- alternative selection
      let alternate <- readFrom files xdg
      pure (if alternate.existed then xdg else conventional selection)

def choice (files : Path -> Option File) (selection : Selection) : Result Path := do
  let path <- chosen files selection
  checkCompletion (.install selection) path
  pure path

theorem chooseConfig_reads (selection : Selection) :
    Reads env P (chooseConfig env selection) (chosen files selection) (fun _ => True) := by
  refine reads_after reads_interrupt ?_
  unfold chosen
  cases selection.configPath with
  | some path =>
    refine reads_bind (reads_lift (plain_validateAbsolute path)) (fun _ _ => ?_)
    exact reads_pure trivial
  | none =>
    refine reads_bind (reads_lift (plain_validateAbsolute selection.home)) (fun _ _ => ?_)
    refine reads_bind (readConfig_reads hknown _) (fun current _ => ?_)
    cases current.existed with
    | true => exact reads_pure trivial
    | false =>
      refine reads_bind (reads_lift (plain_alternative selection)) (fun xdg _ => ?_)
      refine reads_bind (readConfig_reads hknown xdg) (fun _ _ => ?_)
      exact reads_pure trivial

theorem chooseFitting_reads (selection : Selection) :
    Reads env P (chooseFitting env selection) (choice files selection)
      (fun path => checkCompletion (.install selection) path = .ok ()) := by
  refine reads_bind (chooseConfig_reads hknown selection) (fun path _ => ?_)
  refine reads_bind (reads_lift (plain_checkCompletion _ path)) (fun _ hfits => ?_)
  exact reads_pure hfits

/-!
## Preparing a change
-/

def preparedInstall (files : Path -> Option File) (selection : Selection) :
    Result (Path × Snapshot × Bytes) := do
  let configPath <- choice files selection
  let before <- readFrom files configPath
  let installed <- installConfig before.bytes (ascii "omux")
  failIf (decide (maximumConfig < installed.length)) .configTooLarge
  pure (configPath, before, installed)

def preparedRemove (files : Path -> Option File) (record : Record) :
    Result (Snapshot × Bytes) := do
  let before <- readFrom files record.configPath
  let restored <- removeConfig before.bytes record.installed record.original
  pure (before, restored)

theorem prepareInstall_reads (selection : Selection) :
    Reads env P (prepareInstall env selection) (preparedInstall files selection)
      (fun prepared => checkCompletion (.install selection) prepared.1 = .ok () ∧
        WasRead prepared.1 prepared.2.1 ∧ prepared.2.2.length <= maximumConfig) := by
  refine reads_bind (chooseFitting_reads hknown selection) (fun path hfits => ?_)
  refine reads_bind (readConfig_reads hknown path) (fun _ hbefore => ?_)
  refine reads_bind (reads_lift (plain_installConfig _ _)) (fun _ _ => ?_)
  refine reads_bind (reads_lift (plain_failIf (by decide))) (fun _ hlength => ?_)
  rw [failIf_eq_ok, decide_eq_false_iff_not, not_lt] at hlength
  exact reads_pure ⟨hfits, hbefore, hlength⟩

theorem prepareRemove_reads (record : Record) :
    Reads env P (prepareRemove env record) (preparedRemove files record)
      (fun prepared => WasRead record.configPath prepared.1 ∧
        removeConfig prepared.1.bytes record.installed record.original = .ok prepared.2) := by
  refine reads_bind (readConfig_reads hknown _) (fun _ hbefore => ?_)
  refine reads_bind (reads_lift (plain_removeConfig _ _ _)) (fun _ hrest => ?_)
  exact reads_pure ⟨hbefore, hrest⟩

/-!
## The registry and the installed config
-/

def verified (files : Path -> Option File) (record : Record) : Result Unit := do
  let current <- readFrom files record.configPath
  failIf (!current.existed) .integrationConflict
  let _ <- removeConfig current.bytes record.installed record.original
  pure ()

theorem verifyInstalled_reads (record : Record) :
    Reads env P (verifyInstalled env record) (verified files record) (fun _ => True) := by
  refine reads_after reads_interrupt ?_
  refine reads_bind (readConfig_reads hknown _) (fun _ _ => ?_)
  refine reads_bind (reads_lift (plain_failIf (by decide))) (fun _ _ => ?_)
  refine reads_bind (reads_lift (plain_removeConfig _ _ _)) (fun _ _ => ?_)
  exact reads_pure trivial

end

variable {platform : Platform} {loaded : Option Record}

theorem load_reads (hcust : forall disk, P disk -> Custody platform loaded disk) :
    Reads env P (load env) (.ok loaded) (fun found => found = loaded) := by
  refine reads_after reads_interrupt ?_
  refine meets_bind (meets_read (Q := fun registry w => P w.disk ∧
    registry = loaded.map Record.bytes) (fun w hw => ⟨hw, (hcust w.disk hw).registry⟩))
    (fun registry => ?_)
  intro w hw
  rw [hw.2]
  have hvalid := (hcust w.disk hw.1).valid
  cases loaded with
  | none => exact ⟨hw.1, rfl, fun _ => rfl⟩
  | some record =>
    have hrecord := (hvalid record rfl).encodable.decodedRecord_bytes
    have hfound : Reads env P (do
        let found <- Task.lift (decodedRecord record.bytes)
        pure (some found)) (.ok (some record)) (fun found => found = some record) := by
      rw [hrecord]
      exact reads_pure rfl
    exact hfound w hw.1

theorem reads_loaded {α : Type} {next : Option Record -> Work α} {result : Result α}
    {φ : α -> Prop} (hcust : forall disk, P disk -> Custody platform loaded disk)
    (hnext : Reads env P (next loaded) result φ) : Reads env P (load env >>= next) result φ := by
  have hbind := reads_bind (f := fun _ => result) (load_reads hcust) (fun _ hfound => by
    rw [hfound]
    exact hnext)
  exact hbind

/-!
## Preflight
-/

def preflightedInstall (files : Path -> Option File) (selection : Selection) :
    Option Record -> Result Unit
  | none => do
    let _ <- choice files selection
    pure ()
  | some record =>
    match record.phase with
    | .removed | .pendingRemove => do
      let _ <- choice files selection
      pure ()
    | .installed | .pendingInstall => pure ()

theorem fits_reads {operation : Operation} {path : Path} (h : Fits path) :
    Reads env P (Task.lift (checkCompletion operation path)) (pure ()) (fun _ => True) := by
  rw [h operation]
  exact reads_pure trivial

theorem preflightInstall_reads (hknown : Known env files P) (selection : Selection)
    (hvalid : forall record, loaded = some record -> record.Valid platform) :
    Reads env P (preflightInstall env selection loaded)
      (preflightedInstall files selection loaded) (fun _ => True) := by
  have hchoice : Reads env P (preflightChoice env selection) (do
      let _ <- choice files selection
      pure ()) (fun _ => True) :=
    reads_bind (chooseFitting_reads hknown selection) (fun _ _ => reads_pure trivial)
  cases loaded with
  | none => exact hchoice
  | some record =>
    have hfits := (hvalid record rfl).fits
    unfold preflightInstall preflightedInstall
    cases hphase : record.phase with
    | removed =>
      simp only [hphase]
      exact hchoice
    | pendingRemove =>
      simp only [hphase]
      exact reads_after (fits_reads hfits) hchoice
    | installed | pendingInstall =>
      simp only [hphase]
      exact fits_reads hfits

end

end Omux.Setup
