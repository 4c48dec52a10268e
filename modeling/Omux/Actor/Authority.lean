import Omux.Actor.Model
import Omux.Mutation.RecordInvariant

/-!
# What the snapshot promises about mutations

The abstract side of the mutation path: the records with their states and results, and
the credits and intents that mutations hold.  Six moves change it, and each keeps every
unfinished external record backed by exactly one credit and one intent of its own.
-/

namespace Omux.Actor

open Library List
open Mutation (Platform)
open Admission (Key)

structure Entry where
  intent : Mutation.Intent
  state : Mutation.State
  result : Bytes

namespace Entry

variable (e : Entry)

def id : Bytes :=
  e.intent.id.take e.intent.idLen

def key (platform : Platform) (e : Entry) : Key :=
  creditKey platform .mutation e.id e.intent.expectedRevision

def complete (bytes : Bytes) : Entry :=
  { e with state := .completed, result := bytes }

def doubt : Entry :=
  { e with state := .indeterminate }

def recover : Entry :=
  { e with state := if e.state == .started then .indeterminate else e.state }

/-- An effect outside the engine that has no result. -/
def Pending : Prop :=
  e.intent.kind = .external ∧ e.state ≠ .completed

/-- The state of the credit of an unfinished record. -/
def creditState : Admission.State :=
  if e.state == .started then .reserved else .indeterminate

end Entry

structure Authority where
  records : List Entry
  credits : List (Key × Admission.State)
  intents : List (Key × Bytes)

namespace Authority

variable (a : Authority)

def start (e : Entry) : Authority :=
  { a with records := a.records ++ [e] }

def reserve (key : Key) (owner : Bytes) : Authority :=
  { a with
    credits := a.credits ++ [(key, .reserved)]
    intents := a.intents ++ [(key, owner)] }

def replace (slot : Nat) (e : Entry) : Authority :=
  { a with records := a.records.set slot e }

def release (key : Key) : Authority :=
  { a with
    credits := a.credits.filter (fun credit => credit.1 != key)
    intents := a.intents.filter (fun intent => intent.1 != key) }

def doubtCredit (key : Key) : Authority :=
  { a with
    credits := a.credits.map fun credit =>
      if credit.1 = key then (credit.1, .indeterminate) else credit }

def recover : Authority :=
  { a with
    records := a.records.map Entry.recover
    credits := a.credits.map fun credit => (credit.1, .indeterminate) }

def ids : List Bytes :=
  a.records.map Entry.id

def enter (platform : Platform) (a : Authority) (e : Entry) : Authority :=
  (a.start e).reserve (e.key platform) e.id

def settle (platform : Platform) (a : Authority) (slot : Nat) (e : Entry)
    (bytes : Bytes) : Authority :=
  (a.replace slot (e.complete bytes)).release (e.key platform)

def fence (platform : Platform) (a : Authority) (slot : Nat) (e : Entry) : Authority :=
  (a.replace slot e.doubt).doubtCredit (e.key platform)

/-!
## The invariant
-/

structure Backed (platform : Platform) (a : Authority) : Prop where
  ids : a.ids.Nodup
  creditKeys : (a.credits.map Prod.fst).Nodup
  intentKeys : (a.intents.map Prod.fst).Nodup
  matched : forall key, key ∈ a.credits.map Prod.fst ↔ key ∈ a.intents.map Prod.fst
  owned : forall key owner, (key, owner) ∈ a.intents ->
    exists e, e ∈ a.records ∧ e.Pending ∧ e.id = owner ∧ e.key platform = key
  credited : forall e, e ∈ a.records -> e.Pending ->
    (e.key platform, e.id) ∈ a.intents ∧
      (e.key platform, e.creditState) ∈ a.credits

variable {platform : Platform} {a : Authority}

theorem key_ne_of_id_ne (h : a.Backed platform) {x e : Entry} (hx : x ∈ a.records)
    (he : e ∈ a.records) (hxp : x.Pending) (hep : e.Pending) (hne : x.id ≠ e.id) :
    x.key platform ≠ e.key platform := by
  intro hkey
  have hxi := (h.credited x hx hxp).left
  have hei := (h.credited e he hep).left
  have heq := inj_on_of_nodup_map h.intentKeys hxi hei hkey
  exact hne (Prod.mk.inj heq).right

theorem backed_start {e : Entry} (h : a.Backed platform) (hfresh : e.id ∉ a.ids)
    (hkind : e.intent.kind = .localAtomic) : (a.start e).Backed platform where
  ids := nodup_map_concat h.ids (fresh_of_not_mem hfresh)
  creditKeys := h.creditKeys
  intentKeys := h.intentKeys
  matched := h.matched
  owned := by
    intro key owner hmem
    rcases h.owned key owner hmem with ⟨x, hx, hrest⟩
    exact ⟨x, mem_append_left _ hx, hrest⟩
  credited := by
    apply forall_mem_concat h.credited
    intro hpend
    have hext := hpend.left
    rw [hkind] at hext
    cases hext

theorem backed_admit {e : Entry} (h : a.Backed platform) (hfresh : e.id ∉ a.ids)
    (hkind : e.intent.kind = .external) (hstate : e.state = .started)
    (hkey : e.key platform ∉ a.credits.map Prod.fst) : (a.enter platform e).Backed platform where
  ids := nodup_map_concat h.ids (fresh_of_not_mem hfresh)
  creditKeys := nodup_map_concat h.creditKeys (fresh_of_not_mem hkey)
  intentKeys := nodup_map_concat h.intentKeys (fresh_of_not_mem (mt (h.matched _).mpr hkey))
  matched := by
    intro key
    have hold := h.matched key
    simp [enter, reserve, start, hold]
  owned := by
    intro key owner hmem
    rcases mem_append.mp hmem with hold | hnew
    · rcases h.owned key owner hold with ⟨x, hx, hrest⟩
      exact ⟨x, mem_append_left _ hx, hrest⟩
    · rcases Prod.mk.inj (mem_singleton.mp hnew) with ⟨hk, ho⟩
      refine ⟨e, by simp [enter, reserve, start], ⟨hkind, ?_⟩, ho.symm, hk.symm⟩
      rw [hstate]
      decide
  credited := by
    apply forall_mem_concat
    · intro x hold hpend
      rcases h.credited x hold hpend with ⟨hintent, hcredit⟩
      exact ⟨mem_append_left _ hintent, mem_append_left _ hcredit⟩
    · simp [enter, reserve, Entry.creditState, hstate]

theorem ids_replace {slot : Nat} {e e' : Entry} (hslot : a.records[slot]? = some e)
    (hid : e'.id = e.id) : (a.replace slot e').ids = a.ids :=
  map_set_of_eq hslot hid

theorem mem_keys_filter {β : Type} {key x : Key} (pairs : List (Key × β)) :
    x ∈ (pairs.filter (fun pair => pair.1 != key)).map Prod.fst ↔
      x ∈ pairs.map Prod.fst ∧ x ≠ key := by
  simp only [mem_map, mem_filter, bool_iff]
  constructor
  · intro h
    rcases h with ⟨pair, ⟨hmem, hne⟩, hx⟩
    exact ⟨⟨pair, hmem, hx⟩, hx ▸ hne⟩
  · intro h
    rcases h with ⟨⟨pair, hmem, hx⟩, hne⟩
    exact ⟨pair, ⟨hmem, hx ▸ hne⟩, hx⟩

theorem backed_settle {slot : Nat} {e : Entry} (bytes : Bytes)
    (h : a.Backed platform) (hslot : a.records[slot]? = some e)
    (hpend : e.Pending) : (a.settle platform slot e bytes).Backed platform where
  ids := by
    have hids : (a.settle platform slot e bytes).ids = a.ids :=
      ids_replace hslot rfl
    rw [hids]
    exact h.ids
  creditKeys := nodup_map_filter h.creditKeys
  intentKeys := nodup_map_filter h.intentKeys
  matched := by
    intro key
    show key ∈ (a.credits.filter _).map Prod.fst ↔ key ∈ (a.intents.filter _).map Prod.fst
    rw [mem_keys_filter, mem_keys_filter, h.matched key]
  owned := by
    intro key owner hmem
    rcases mem_filter.mp hmem with ⟨hold, hne⟩
    rcases h.owned key owner hold with ⟨x, hx, hxp, hid, hkey⟩
    refine ⟨x, mem_set_of_ne hslot hx ?_, hxp, hid, hkey⟩
    intro hxe
    rw [<- hkey, hxe] at hne
    simp at hne
  credited := by
    intro x hx hxp
    have hmem := mem_of_getElem? hslot
    rcases eq_or_key_ne_of_mem_set h.ids hslot hx with hnew | hold
    · rw [hnew] at hxp
      exact absurd rfl hxp.right
    · rcases h.credited x hold.left hxp with ⟨hintent, hcredit⟩
      have hkey := key_ne_of_id_ne h hold.left hmem hxp hpend hold.right
      exact ⟨mem_filter.mpr ⟨hintent, by simpa using hkey⟩,
        mem_filter.mpr ⟨hcredit, by simpa using hkey⟩⟩

theorem backed_fence {slot : Nat} {e : Entry} (h : a.Backed platform)
    (hslot : a.records[slot]? = some e) (hpend : e.Pending) :
    (a.fence platform slot e).Backed platform := by
  have hkeys : (a.fence platform slot e).credits.map Prod.fst = a.credits.map Prod.fst := by
    simp only [fence, doubtCredit, map_map]
    apply map_congr_left
    intro _ _
    simp only [Function.comp_apply]
    split <;> rfl
  have hdoubt : e.doubt.Pending := ⟨hpend.left, by simp [Entry.doubt]⟩
  have hmem := mem_of_getElem? hslot
  exact
    { ids := by
        have hids : (a.fence platform slot e).ids = a.ids := ids_replace hslot rfl
        rw [hids]
        exact h.ids
      creditKeys := by rw [hkeys]; exact h.creditKeys
      intentKeys := h.intentKeys
      matched := by
        intro key
        rw [hkeys]
        exact h.matched key
      owned := by
        intro key owner hintent
        rcases h.owned key owner hintent with ⟨x, hx, hxp, hid, hkey⟩
        by_cases hxe : x = e
        · rw [hxe] at hid hkey
          exact ⟨e.doubt, mem_set_self hslot, hdoubt, hid, hkey⟩
        · exact ⟨x, mem_set_of_ne hslot hx hxe, hxp, hid, hkey⟩
      credited := by
        intro x hx hxp
        rcases eq_or_key_ne_of_mem_set h.ids hslot hx with rfl | hold
        · rcases h.credited e hmem hpend with ⟨hintent, hcredit⟩
          refine ⟨hintent, mem_map.mpr ⟨_, hcredit, ?_⟩⟩
          exact if_pos rfl
        · rcases h.credited x hold.left hxp with ⟨hintent, hcredit⟩
          have hkey := key_ne_of_id_ne h hold.left hmem hxp hpend hold.right
          exact ⟨hintent, mem_map.mpr ⟨_, hcredit, if_neg hkey⟩⟩ }

theorem backed_recover (h : a.Backed platform) : a.recover.Backed platform := by
  have hkeys : a.recover.credits.map Prod.fst = a.credits.map Prod.fst := by simp [recover]
  have hpend : forall e : Entry, e.recover.Pending ↔ e.Pending := by
    intro e
    unfold Entry.Pending Entry.recover
    cases hstate : e.state <;> simp
  exact
    { ids := by
        have hids : a.recover.ids = a.ids := by
          simp only [Authority.ids, recover, map_map]
          rfl
        rw [hids]
        exact h.ids
      creditKeys := by rw [hkeys]; exact h.creditKeys
      intentKeys := h.intentKeys
      matched := by
        intro key
        rw [hkeys]
        exact h.matched key
      owned := by
        intro key owner hintent
        rcases h.owned key owner hintent with ⟨x, hx, hxp, hid, hkey⟩
        exact ⟨x.recover, mem_map_of_mem hx, (hpend x).mpr hxp, hid, hkey⟩
      credited := by
        intro x hx hxp
        rcases mem_map.mp hx with ⟨e, he, rfl⟩
        rcases h.credited e he ((hpend e).mp hxp) with ⟨hintent, hcredit⟩
        refine ⟨hintent, mem_map.mpr ⟨_, hcredit, ?_⟩⟩
        have hstate : e.recover.creditState = .indeterminate := by
          unfold Entry.creditState Entry.recover
          cases e.state <;> simp
        rw [hstate]
        rfl }

/-- A finished record has no intent, and no credit unless two ids share a hash. -/
theorem unbacked_of_completed {e : Entry} (h : a.Backed platform)
    (he : e ∈ a.records) (hstate : e.state = .completed) : (forall key, (key, e.id) ∉ a.intents) ∧
      ((forall x, x ∈ a.records -> platform.sha256 x.id = platform.sha256 e.id ->
          x.id = e.id) ->
        e.key platform ∉ a.credits.map Prod.fst ∧
          e.key platform ∉ a.intents.map Prod.fst) := by
  have hnone : forall key, (key, e.id) ∉ a.intents := by
    intro key hmem
    rcases h.owned key e.id hmem with ⟨x, hx, hxp, hid, _⟩
    rw [inj_on_of_nodup_map h.ids hx he hid] at hxp
    exact hxp.right hstate
  refine ⟨hnone, ?_⟩
  intro hdigest
  have hintent : e.key platform ∉ a.intents.map Prod.fst := by
    intro hmem
    rcases mem_map.mp hmem with ⟨⟨key, owner⟩, hpair, hkey⟩
    rcases h.owned key owner hpair with ⟨x, hx, _, hid, hxkey⟩
    have hsame : x.id = e.id :=
      hdigest x hx (congrArg Key.id (hxkey.trans hkey))
    rw [<- hid, hsame] at hpair
    exact hnone key hpair
  exact ⟨fun hmem => hintent ((h.matched _).mp hmem), hintent⟩

end Authority
end Omux.Actor
