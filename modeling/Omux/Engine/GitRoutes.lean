import Omux.Engine.Memory
import Omux.Domain.Rejection
import Mathlib.Data.List.MinMax

/-!
# Idle Git routes

A Git helper holds no session and no lease.  Before one of its routes is bound, the oldest
idle routes are retired, which leaves 64 slots to native bindings where possible.
-/

namespace Omux.Engine

open Library Domain List
open Relation (ReflTransGen)

def idleGit (preserved : Bytes) (b : Binding) : Bool :=
  b.application == ascii "git" && b.inFlight == 0 && b.id != preserved

/-- Of several least recently used routes the first. -/
def oldestIdleGit (preserved : Bytes) (bindings : List Binding) : Option Binding :=
  (bindings.filter (idleGit preserved)).argmin Binding.lastUsedRevision

variable {s t : State} {preserved id : Bytes} {b : Binding}

theorem length_eraseIdx_lt {bindings : List Binding} {i : Nat} (h : bindings[i]? = some b) :
    (bindings.eraseIdx i).length < bindings.length := by
  rcases List.getElem?_eq_some_iff.mp h with ⟨hi, _⟩
  rw [length_eraseIdx_of_lt hi]
  omega

theorem length_lt_of_releaseBinding (h : s.releaseBinding id = .ok t) :
    t.bindings.length < s.bindings.length := by
  rcases State.releaseBinding_inv h with ⟨i, b, hentry, _, rfl⟩
  exact length_eraseIdx_lt (recordEntry_eq_some hentry).left

/-- The state changes in place: a failure keeps what the loop has done. -/
def retireIdleGitBindings (s : State) (preserved : Bytes) : State × Except EngineError Unit :=
  if maxRecords - 64 <= s.bindings.length then
    match oldestIdleGit preserved s.bindings with
    | none => (s, failIf ((s.binding preserved).isNone &&
        decide (maxRecords <= s.bindings.length)) .serviceBusy)
    | some b =>
      match _h : s.releaseBinding b.id with
      | .error error => (s, .error (.domain error))
      | .ok next => retireIdleGitBindings next preserved
  else (s, .ok ())
termination_by s.bindings.length
decreasing_by exact length_lt_of_releaseBinding _h

/-- No idle route that stays was used before the one that goes. -/
inductive Retires (preserved : Bytes) (s : State) : State -> Prop where
  | oldest {i : Nat} {b : Binding} (hat : s.bindings[i]? = some b)
      (hidle : idleGit preserved b = true)
      (hleast : forall c, c ∈ s.bindings -> idleGit preserved c = true ->
        b.lastUsedRevision <= c.lastUsedRevision) :
      Retires preserved s { s with bindings := s.bindings.eraseIdx i }.changed

/-- What the loop needs of the bindings, and keeps. -/
structure Routes (bindings : List Binding) : Prop where
  distinct : (bindings.map Binding.id).Nodup
  git : forall b, b ∈ bindings -> b.application = ascii "git" -> b.nativeRef = none

theorem releaseBinding_oldest (h : Routes s.bindings)
    (hb : oldestIdleGit preserved s.bindings = some b) :
    exists next, s.releaseBinding b.id = .ok next ∧ Retires preserved s next ∧
      Routes next.bindings := by
  rcases mem_filter.mp (argmin_mem hb) with ⟨hmem, hidle⟩
  rcases recordEntry_of_mem h.distinct hmem rfl with ⟨i, hentry⟩
  have hgit := hidle
  simp only [idleGit, bool_iff] at hgit
  rcases hgit with ⟨⟨hgit, hflight⟩, _⟩
  refine ⟨_, ?_, .oldest (recordEntry_eq_some hentry).left hidle ?_, nodup_map_eraseIdx h.distinct,
    fun c hc => h.git c (mem_of_mem_eraseIdx hc)⟩
  · simp [State.releaseBinding, State.bindingEntry, hentry, h.git b hmem hgit, bind_ok,
      State.releaseBindingIndex, hflight]
  · intro c hc hother
    exact le_of_mem_argmin (mem_filter.mpr ⟨hc, hother⟩) hb

/-- The loop ends with room for the preserved route, or at once with all slots in use. -/
theorem retireIdleGitBindings_meets (s : State) (preserved : Bytes) (h : Routes s.bindings) :
    exists t outcome, retireIdleGitBindings s preserved = (t, outcome) ∧
      ReflTransGen (Retires preserved) s t ∧
      (outcome = .ok () ∧ (t.binding preserved = none -> t.bindings.length < maxRecords) ∨
        outcome = .error .serviceBusy ∧ t.binding preserved = none ∧
          maxRecords <= t.bindings.length ∧
          forall b, b ∈ t.bindings -> idleGit preserved b = false) := by
  fun_induction retireIdleGitBindings s preserved with
  | case1 s hfull hnone =>
    refine ⟨_, _, rfl, .refl, ?_⟩
    rw [oldestIdleGit, argmin_eq_none, filter_eq_nil_iff] at hnone
    cases hbusy : (s.binding preserved).isNone && decide (maxRecords <= s.bindings.length) with
    | true =>
      simp only [bool_iff, Option.isNone_iff_eq_none] at hbusy
      exact .inr ⟨rfl, hbusy.left, hbusy.right, fun b hb => by simpa using hnone b hb⟩
    | false =>
      refine .inl ⟨rfl, fun habsent => ?_⟩
      simpa [habsent] using hbusy
  | case2 s hfull b hb error herror =>
    rcases releaseBinding_oldest h hb with ⟨next, hnext, _⟩
    simp [herror] at hnext
  | case3 s hfull b hb next hnext ih =>
    rcases releaseBinding_oldest h hb with ⟨_, hnext', hstep, hroutes⟩
    cases hnext.symm.trans hnext'
    rcases ih hroutes with ⟨t, outcome, heq, hrun, hend⟩
    exact ⟨t, outcome, heq, .head hstep hrun, hend⟩
  | case4 s hroom =>
    refine ⟨_, _, rfl, .refl, .inl ⟨rfl, fun _ => ?_⟩⟩
    omega

/-- Retiring touches nothing but idle routes and the revision. -/
theorem retires_frame (h : ReflTransGen (Retires preserved) s t) :
    t = { s with bindings := t.bindings, revision := t.revision } ∧
      t.bindings <+ s.bindings ∧
      (forall b, b ∈ s.bindings -> idleGit preserved b = false -> b ∈ t.bindings) ∧
      (t = s ∨ t.bindings.length < s.bindings.length) := by
  induction h with
  | refl => exact ⟨rfl, .refl _, fun _ hb _ => hb, .inl rfl⟩
  | tail _ hstep ih =>
    rcases ih with ⟨hframe, hsub, hkept, _⟩
    cases hstep with
    | @oldest i removed hat hidle _ =>
      refine ⟨by rw [hframe]; rfl, (eraseIdx_sublist _ i).trans hsub, ?_,
        .inr ((length_eraseIdx_lt hat).trans_le hsub.length_le)⟩
      intro b hb hactive
      refine mem_eraseIdx_of_ne hat (hkept b hb hactive) (fun heq => ?_)
      simp [heq, hidle] at hactive

theorem full_of_bind {input : Binding} (h : t.bind input = .error .tooManyRecords) :
    t.binding input.id = none ∧ maxRecords <= t.bindings.length := by
  have href : validate input.nativeRef ≠ .error .tooManyRecords := by
    cases input.nativeRef <;> simp [validate, Native.NativeRef.validate]
  have hvalid : validate input ≠ .error .tooManyRecords := by
    intro hvalue
    simp [validate, bind_eq_error] at hvalue
    exact href hvalue.right.right.right
  have hgrant : orFail (t.grant input.grantId) DomainError.notFound ≠ .error .tooManyRecords := by
    cases t.grant input.grantId <;> simp [orFail]
  -- Only the append of a new binding looks at the number of records.
  cases hentry : t.bindingEntry input.id with
  | some =>
    simp [State.bind, bind_eq_error, hvalid, href, requireId, hgrant, hentry, replaceOwned] at h
  | none =>
    simp [State.bind, bind_eq_error, hvalid, href, requireId, hgrant, hentry, appendOwned] at h
    rcases h with ⟨_, _, _, _, _, _, _, _, _, hlength⟩
    exact ⟨recordAt_eq_none.mpr (recordEntry_eq_none.mp hentry), hlength⟩

theorem idle_git_routes_make_room (s : State) (preserved : Bytes) (hreach : s.Reachable)
    (hgit : forall b, b ∈ s.bindings -> b.application = ascii "git" -> b.nativeRef = none) :
    exists t outcome, retireIdleGitBindings s preserved = (t, outcome) ∧
      ReflTransGen (Retires preserved) s t ∧
      t = { s with bindings := t.bindings, revision := t.revision } ∧
      t.bindings <+ s.bindings ∧
      (forall b, b ∈ s.bindings -> b ∉ t.bindings -> idleGit preserved b = true) ∧
      (outcome = .ok () ∧
          (forall input : Binding, input.id = preserved -> t.bind input ≠ .error .tooManyRecords) ∨
        outcome = .error .serviceBusy ∧ t = s ∧ s.binding preserved = none ∧
          s.bindings.length = maxRecords ∧
          forall b, b ∈ s.bindings -> idleGit preserved b = false) := by
  have hbinds := (State.wellFormed_of_reachable hreach).bindings
  rcases retireIdleGitBindings_meets s preserved ⟨hbinds.distinct, hgit⟩ with
    ⟨t, outcome, heq, hrun, hend⟩
  rcases retires_frame hrun with ⟨hframe, hsub, hkept, hsame⟩
  refine ⟨t, outcome, heq, hrun, hframe, hsub, ?_, hend.imp ?_ ?_⟩
  · intro b hb hgone
    by_contra hactive
    exact hgone (hkept b hb (by simpa using hactive))
  · rintro ⟨hok, hroom⟩
    refine ⟨hok, fun input hid hfull => ?_⟩
    rcases full_of_bind hfull with ⟨habsent, hlength⟩
    have := hroom (hid ▸ habsent)
    omega
  · rintro ⟨hbusy, habsent, hlength, hactive⟩
    have hbounded := hbinds.bounded
    rcases hsame with rfl | hless
    · exact ⟨hbusy, rfl, habsent, by omega, hactive⟩
    · omega

/-!
### All slots taken by idle routes
-/

def gitRoute (n : Nat) : Binding :=
  { id := [UInt8.ofNat (64 + n / 32), UInt8.ofNat (64 + n % 32)], application := ascii "git",
    sessionId := ascii "git", accountId := [97], grantId := [103], grantGeneration := 1,
    lastUsedRevision := n }

def gitState (n : Nat) : State :=
  run State.step State.init (State.pairedRun ++ (range n).map (fun i => .bind (gitRoute i)))

theorem gitState_reachable (n : Nat) : (gitState n).Reachable :=
  ⟨_, rfl⟩

theorem gitRoute_id_ne {m n : Nat} (hm : m < n) (hn : n <= maxRecords) :
    (gitRoute m).id ≠ (gitRoute n).id := by
  simp only [maxRecords] at hn
  intro h
  simp only [gitRoute, cons.injEq, ← UInt8.toNat_inj, UInt8.toNat_ofNat'] at h
  omega

theorem validate_gitRoute : forall n, n < maxRecords + 1 ->
    validate (gitRoute n) = .ok () ∧ requireId (gitRoute n).id = .ok () := by
  decide +kernel

theorem bind_gitRoute {n : Nat} (hgrants : s.grants = (gitState 0).grants)
    (hroutes : s.bindings = (range n).map gitRoute) (hn : n <= maxRecords) :
    s.bind (gitRoute n) =
      if maxRecords <= n then .error .tooManyRecords
      else .ok ({ s with bindings := (range (n + 1)).map gitRoute }.changed, gitRoute n) := by
  have hvalid := validate_gitRoute n (Nat.lt_succ_of_le hn)
  have hfresh : s.bindingEntry (gitRoute n).id = none := by
    rw [State.bindingEntry, recordEntry_eq_none, hroutes]
    intro b hb
    rcases mem_map.mp hb with ⟨m, hm, rfl⟩
    exact gitRoute_id_ne (mem_range.mp hm) hn
  have hgranted : exists g, s.grant (gitRoute n).grantId = some g ∧
      (g.accountId != (gitRoute n).accountId ||
        g.generation != (gitRoute n).grantGeneration) = false := by
    have hfound : ((gitState 0).grant [103]).any (fun g =>
        !(g.accountId != [97] || g.generation != 1)) = true := by
      decide +kernel
    rcases Option.any_eq_true _ _ |>.mp hfound with ⟨g, hg, hsame⟩
    refine ⟨g, ?_, Bool.not_eq_true' _ |>.mp hsame⟩
    rw [State.grant, hgrants]
    exact hg
  rcases hgranted with ⟨g, hg, hsame⟩
  have hgit : requireId (gitRoute n).application = .ok () ∧
      requireId (gitRoute n).sessionId = .ok () := ⟨rfl, rfl⟩
  have hnative : validate (gitRoute n).nativeRef = .ok () := by rfl
  have hroute : ((gitRoute n).inFlight != 0 || (gitRoute n).routeGeneration == 0) = false := by rfl
  simp only [State.bind, hvalid, hnative, hgit, hroute, hg, hsame, hfresh, appendOwned, hroutes,
    length_map, length_range, bind_ok, failIf_false, orFail_some]
  by_cases hfull : maxRecords <= n
  · simp only [hfull, decide_true, failIf_true, if_true]
    rfl
  · simp [hfull, range_succ, bind_ok]

theorem gitState_routes {n : Nat} (hn : n <= maxRecords) :
    (gitState n).grants = (gitState 0).grants ∧ (gitState n).bindings = (range n).map gitRoute := by
  induction n with
  | zero => exact ⟨rfl, by decide +kernel⟩
  | succ n ih =>
    rcases ih (by omega) with ⟨hgrants, hroutes⟩
    have hstep : gitState (n + 1) = (gitState n).step (.bind (gitRoute n)) := by
      rw [gitState, range_succ, map_append, ← append_assoc, run_append]
      rfl
    rw [hstep, State.step, State.attempt, bind_gitRoute hgrants hroutes (by omega),
      if_neg (by omega)]
    exact ⟨hgrants, rfl⟩

theorem idle_git_routes_make_room_gitState :
    (gitState maxRecords).bind (gitRoute maxRecords) = .error .tooManyRecords ∧
    exists t, retireIdleGitBindings (gitState maxRecords) (gitRoute maxRecords).id = (t, .ok ()) ∧
      (exists b, b ∈ (gitState maxRecords).bindings ∧ b ∉ t.bindings) ∧
      t.bind (gitRoute maxRecords) ≠ .error .tooManyRecords := by
  obtain ⟨n, hn⟩ : exists n, n = maxRecords := ⟨_, rfl⟩
  rw [← hn]
  rcases gitState_routes hn.le with ⟨hgrants, hroutes⟩
  have hidle : forall b, b ∈ (gitState n).bindings ->
      b.nativeRef = none ∧ idleGit (gitRoute n).id b = true := by
    intro b hb
    rw [hroutes] at hb
    rcases mem_map.mp hb with ⟨m, hm, rfl⟩
    have hne := gitRoute_id_ne (mem_range.mp hm) hn.le
    exact ⟨rfl, by simpa [idleGit, gitRoute] using hne⟩
  have hfull : forall t : State, t.grants = (gitState n).grants ->
      t.bindings = (gitState n).bindings -> t.bind (gitRoute n) = .error .tooManyRecords := by
    intro t htgrants hbinds
    rw [bind_gitRoute (htgrants.trans hgrants) (hbinds.trans hroutes) hn.le, if_pos hn.ge]
  have hreach := gitState_reachable n
  rcases idle_git_routes_make_room (gitState n) (gitRoute n).id hreach
    (fun b hb _ => (hidle b hb).left) with ⟨t, outcome, heq, _, hframe, hsub, _, hok | hbusy⟩
  · rcases hok with ⟨rfl, hroom⟩
    refine ⟨hfull _ rfl rfl, t, heq, ?_, hroom _ rfl⟩
    by_contra hkept
    have hall : (gitState n).bindings ⊆ t.bindings := by
      intro b hb
      by_contra hgone
      exact hkept ⟨b, hb, hgone⟩
    have hdist : (gitState n).bindings.Nodup :=
      .of_map Binding.id (State.wellFormed_of_reachable hreach).bindings.distinct
    have hsame := hsub.eq_of_length_le (hdist.subperm hall).length_le
    have hgranted : t.grants = (gitState n).grants := by rw [hframe]
    exact hroom _ rfl (hfull t hgranted hsame)
  · have hfirst : gitRoute 0 ∈ (gitState n).bindings := by
      rw [hroutes]
      exact mem_map_of_mem (by simp [hn, maxRecords])
    have hactive := hbusy.right.right.right.right _ hfirst
    simp [(hidle _ hfirst).right] at hactive

end Omux.Engine
