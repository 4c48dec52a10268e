import Mathlib.Data.List.Nodup
import Mathlib.Data.List.Basic
import Mathlib.Algebra.Order.Ring.Nat

/-!
# Keyed record lists

Tables are plain lists of records that carry a key.  The keys of a table stay pairwise
different, and then the first record with a key is the only one.
-/

namespace Omux.Library

open List

variable {α β κ : Type _}

/-!
## The first matching entry
-/

def firstEntry (p : α -> Bool) : List α -> Option (Nat × α)
  | [] => none
  | x :: rest =>
    if p x then some (0, x)
    else
      match firstEntry p rest with
      | some (i, y) => some (i + 1, y)
      | none => none

variable {records before after : List α} {x y z : α} {i : Nat} {p : α -> Bool} {k : κ}
  {f : α -> List β} {R : α -> α -> Prop}

theorem firstEntry_eq_none :
    firstEntry p records = none ↔ forall x, x ∈ records -> p x = false := by
  induction records with
  | nil => simp [firstEntry]
  | cons x rest ih =>
    cases hx : p x with
    | true => simp [firstEntry, hx]
    | false =>
      cases hrest : firstEntry p rest with
      | none =>
        have hall := ih.mp hrest
        simpa [firstEntry, hx, hrest] using hall
      | some =>
        have hnot : ¬ forall y, y ∈ rest -> p y = false := by
          intro hall
          rw [ih.mpr hall] at hrest
          cases hrest
        simpa [firstEntry, hx, hrest] using hnot

/-- The list around the first matching entry. -/
theorem firstEntry_split (h : firstEntry p records = some (i, x)) :
    exists before after, records = before ++ x :: after ∧ before.length = i ∧
      p x = true ∧ forall y, y ∈ before -> p y = false := by
  induction records generalizing i with
  | nil => cases h
  | cons y rest ih =>
    cases hy : p y with
    | true =>
      have heq : 0 = i ∧ y = x := by simpa [firstEntry, hy] using h
      rcases heq with ⟨hi, hyx⟩
      subst hi hyx
      exact ⟨[], rest, rfl, rfl, hy, by simp⟩
    | false =>
      cases hrest : firstEntry p rest with
      | none => simp [firstEntry, hy, hrest] at h
      | some entry =>
        rcases entry with ⟨j, z⟩
        have heq : j + 1 = i ∧ z = x := by simpa [firstEntry, hy, hrest] using h
        rcases heq with ⟨hi, hzx⟩
        subst hi hzx
        rcases ih hrest with ⟨before, after, hsplit, hlen, hz, hbefore⟩
        refine ⟨y :: before, after, by simp [hsplit], by simp [hlen], hz, ?_⟩
        intro w hw
        rcases mem_cons.mp hw with rfl | hmem
        · exact hy
        · exact hbefore w hmem

theorem firstEntry_eq_some (h : firstEntry p records = some (i, x)) :
    records[i]? = some x ∧ p x = true := by
  rcases firstEntry_split h with ⟨_, _, rfl, rfl, hp, _⟩
  refine ⟨?_, hp⟩
  simp

theorem firstEntry_append_of_none (hbefore : forall y, y ∈ before -> p y = false)
    (hx : p x = true) : firstEntry p (before ++ x :: after) = some (before.length, x) := by
  induction before with
  | nil => simp [firstEntry, hx]
  | cons y _ ih =>
    have hy : p y = false := hbefore y (by simp)
    have hrest := ih (by
      intro z hz
      exact hbefore z (by simp [hz]))
    simp [firstEntry, hy, hrest]

theorem find?_eq_of_unique (hx : x ∈ records) (hp : p x = true)
    (hunique : forall y, y ∈ records -> p y = true -> y = x) : records.find? p = some x := by
  cases hfind : records.find? p with
  | none => exact absurd hp (List.find?_eq_none.mp hfind x hx)
  | some y => rw [hunique y (mem_of_find?_eq_some hfind) (List.find?_some hfind)]

theorem firstEntry_of_unique (hx : x ∈ records) (hp : p x = true)
    (hunique : forall y, y ∈ records -> p y = true -> y = x) :
    exists i, firstEntry p records = some (i, x) := by
  cases hentry : firstEntry p records with
  | none => simp [firstEntry_eq_none.mp hentry x hx] at hp
  | some entry =>
    rcases firstEntry_eq_some hentry with ⟨hget, hentryp⟩
    rw [<- hunique entry.2 (mem_of_getElem? hget) hentryp]
    exact ⟨entry.1, rfl⟩

theorem set_at_split (before : List α) (x y : α) (after : List α) :
    (before ++ x :: after).set before.length y = before ++ y :: after := by
  simp

theorem eraseIdx_at_split (before : List α) (x : α) (after : List α) :
    (before ++ x :: after).eraseIdx before.length = before ++ after := by
  simp [eraseIdx_append_of_length_le]

/-!
## Lookups by key
-/

section Lookup

variable [DecidableEq κ] {key : α -> κ}

def recordEntry (key : α -> κ) (records : List α) (k : κ) : Option (Nat × α) :=
  firstEntry (fun x => key x == k) records

def recordAt (key : α -> κ) (records : List α) (k : κ) : Option α :=
  (recordEntry key records k).map Prod.snd

theorem recordEntry_eq_none :
    recordEntry key records k = none ↔ forall x, x ∈ records -> key x ≠ k := by
  simp [recordEntry, firstEntry_eq_none]

theorem recordEntry_eq_some (h : recordEntry key records k = some (i, x)) :
    records[i]? = some x ∧ key x = k := by
  rcases firstEntry_eq_some h with ⟨hget, hkey⟩
  exact ⟨hget, by simpa using hkey⟩

theorem recordEntry_mem (h : recordEntry key records k = some (i, x)) : x ∈ records :=
  mem_of_getElem? (recordEntry_eq_some h).left

theorem recordAt_eq_some (h : recordAt key records k = some x) : x ∈ records ∧ key x = k := by
  rcases Option.map_eq_some_iff.mp h with ⟨⟨i, y⟩, hentry, hyx⟩
  have hy : y = x := hyx
  subst hy
  exact ⟨recordEntry_mem hentry, (recordEntry_eq_some hentry).right⟩

theorem recordAt_eq_none : recordAt key records k = none ↔ forall x, x ∈ records -> key x ≠ k := by
  unfold recordAt
  rw [Option.map_eq_none_iff]
  exact recordEntry_eq_none

theorem recordEntry_isSome (hx : x ∈ records) (hkey : key x = k) :
    exists i y, recordEntry key records k = some (i, y) := by
  cases hentry : recordEntry key records k with
  | none => exact absurd hkey (recordEntry_eq_none.mp hentry x hx)
  | some entry => exact ⟨entry.1, entry.2, rfl⟩

theorem recordEntry_map {f : α -> α} (hkey : forall x, key (f x) = key x)
    (h : recordEntry key records k = some (i, x)) :
    recordEntry key (records.map f) k = some (i, f x) := by
  rcases firstEntry_split h with ⟨before, _, hsplit, hlen, hp, hbefore⟩
  have hother : forall y, y ∈ before.map f -> (key y == k) = false := by
    intro y hy
    rcases mem_map.mp hy with ⟨z, hz, rfl⟩
    rw [hkey]
    exact hbefore z hz
  have hfound : (key (f x) == k) = true := by
    rw [hkey]
    exact hp
  rw [recordEntry, hsplit, map_append, map_cons,
    firstEntry_append_of_none hother hfound, length_map, hlen]

end Lookup

/-!
## Unique keys
-/

variable {key : α -> κ}

section

variable (hnd : (records.map key).Nodup)
include hnd

theorem key_ne_of_index_ne {j : Nat} (hx : records[i]? = some x)
    (hy : records[j]? = some y) (hij : j ≠ i) : key y ≠ key x := by
  intro hkey
  have hlen : j < (records.map key).length := by
    rw [length_map]
    exact (List.getElem?_eq_some_iff.mp hy).1
  apply hij
  apply (List.getElem?_inj hlen hnd).mp
  simp [hx, hy, hkey]

theorem recordEntry_of_mem [DecidableEq κ] (hx : x ∈ records)
    (hkey : key x = k) : exists i, recordEntry key records k = some (i, x) := by
  rcases recordEntry_isSome hx hkey with ⟨i, y, hentry⟩
  have hxy : y = x := by
    apply inj_on_of_nodup_map hnd (recordEntry_mem hentry) hx
    rw [(recordEntry_eq_some hentry).right, hkey]
  exact ⟨i, by rw [hentry, hxy]⟩

theorem recordAt_of_mem [DecidableEq κ] (hx : x ∈ records)
    (hkey : key x = k) : recordAt key records k = some x := by
  rcases recordEntry_of_mem hnd hx hkey with ⟨i, hentry⟩
  simp [recordAt, hentry]

theorem nodup_map_concat
    (hfresh : forall y, y ∈ records -> key y ≠ key x) : ((records ++ [x]).map key).Nodup := by
  rw [map_append, nodup_append]
  refine ⟨hnd, by simp, ?_⟩
  intro a ha b hb
  rcases mem_map.mp ha with ⟨y, hy, rfl⟩
  have hbx : b = key x := by simpa using hb
  rw [hbx]
  exact hfresh y hy

end

theorem length_concat_le {n : Nat} (h : records.length < n) : (records ++ [x]).length <= n := by
  rwa [length_append]

theorem fresh_of_not_mem (h : key x ∉ records.map key) :
    forall y, y ∈ records -> key y ≠ key x := by
  intro y hy heq
  exact h (mem_map.mpr ⟨y, hy, heq⟩)

theorem forall_mem_concat {P : α -> Prop} (hall : forall x, x ∈ records -> P x) (hy : P y) :
    forall x, x ∈ records ++ [y] -> P x := by
  intro x hx
  rcases mem_append.mp hx with hold | hnew
  · exact hall x hold
  · rw [mem_singleton.mp hnew]
    exact hy

section

variable (hsplit : records = before ++ x :: after)
include hsplit

theorem key_ne_of_split (hnd : (records.map key).Nodup) :
    forall y, y ∈ before -> key y ≠ key x := by
  intro y hy hkey
  rw [hsplit, map_append, nodup_append] at hnd
  exact hnd.right.right (key y) (mem_map_of_mem hy) (key x) (by simp) hkey

theorem mem_of_split : x ∈ records := by
  simp [hsplit]

theorem mem_of_before (hy : y ∈ before) : y ∈ records := by
  simp [hsplit, hy]

end

/-!
## In-place updates
-/

theorem forall_mem_set {P : α -> Prop} (hall : forall x, x ∈ records -> P x) (hy : P y) :
    forall x, x ∈ records.set i y -> P x := by
  intro x hx
  rcases mem_or_eq_of_mem_set hx with hmem | rfl
  · exact hall x hmem
  · exact hy

theorem map_set_of_eq {f : α -> β} (hx : records[i]? = some x) (hf : f y = f x) :
    (records.set i y).map f = records.map f := by
  rw [map_set, hf]
  apply ext_getElem?
  intro n
  rw [List.getElem?_set]
  split
  · rename_i hin
    subst hin
    split
    · simp [hx]
    · rename_i hlen
      rw [List.getElem?_eq_none (by simpa using hlen)]
  · rfl

theorem nodup_map_set {f : α -> β} (hnd : (records.map f).Nodup) (hx : records[i]? = some x)
    (hf : f y = f x) : ((records.set i y).map f).Nodup := by
  rw [map_set_of_eq hx hf]
  exact hnd

/-- What an update adds to a sum over the table. -/
theorem sum_map_set {f : α -> Nat} (y : α) (hx : records[i]? = some x) :
    ((records.set i y).map f).sum + f x = (records.map f).sum + f y := by
  induction records generalizing i with
  | nil => cases hx
  | cons z _ ih =>
    cases i with
    | zero =>
      have hzx : z = x := by simpa using hx
      rw [hzx]
      simp only [set_cons_zero, map_cons, sum_cons]
      omega
    | succ i =>
      have hrest := ih (i := i) (by simpa using hx)
      simp only [set_cons_succ, map_cons, sum_cons]
      omega

theorem eq_or_key_ne_of_mem_set (hnd : (records.map key).Nodup) (hx : records[i]? = some x)
    (hz : z ∈ records.set i y) : z = y ∨ (z ∈ records ∧ key z ≠ key x) := by
  rcases List.getElem?_of_mem hz with ⟨j, hj⟩
  by_cases hij : i = j
  · rw [<- hij, List.getElem?_set_self'] at hj
    rcases Option.map_eq_some_iff.mp hj with ⟨_, _, hyz⟩
    exact Or.inl hyz.symm
  · rw [List.getElem?_set_ne hij] at hj
    exact Or.inr ⟨mem_of_getElem? hj, key_ne_of_index_ne hnd hx hj (Ne.symm hij)⟩

theorem mem_set_self (hx : records[i]? = some x) : y ∈ records.set i y := by
  rcases List.getElem?_eq_some_iff.mp hx with ⟨hi, _⟩
  exact mem_set hi y

theorem mem_set_of_ne (hx : records[i]? = some x) (hz : z ∈ records) (hne : z ≠ x) :
    z ∈ records.set i y := by
  rcases List.getElem?_of_mem hz with ⟨j, hj⟩
  have hij : i ≠ j := by
    intro hij
    subst hij
    rw [hx] at hj
    cases hj
    exact hne rfl
  have hset : (records.set i y)[j]? = some z := by rw [List.getElem?_set_ne hij, hj]
  exact mem_of_getElem? hset

/-!
## Views of a table

A view keeps a pair of key and value for some records.  Rewriting or deleting the
record of one key does the same to the view.
-/

section Views

variable {view : α -> Option (κ × β)}

theorem key_of_mem_view (hview : forall y p, view y = some p -> p.1 = key y) {p : κ × β}
    (h : p ∈ records.filterMap view) : exists y, y ∈ records ∧ p.1 = key y := by
  rcases mem_filterMap.mp h with ⟨y, hy, hp⟩
  exact ⟨y, hy, hview y p hp⟩

variable [DecidableEq κ]

theorem recordEntry_split (hnd : (records.map key).Nodup)
    (h : recordEntry key records k = some (i, x)) :
    exists before after, records = before ++ x :: after ∧ before.length = i ∧
      key x = k ∧ (forall y, y ∈ before -> key y ≠ k) ∧
      forall y, y ∈ after -> key y ≠ k := by
  rcases firstEntry_split h with ⟨before, after, hsplit, hlen, hx, hbefore⟩
  have hkey : key x = k := by simpa using hx
  refine ⟨before, after, hsplit, hlen, hkey, ?_, ?_⟩
  · intro y hy
    simpa using hbefore y hy
  · intro y hy hyk
    rw [hsplit, map_append, nodup_append] at hnd
    have hnot := (nodup_cons.mp hnd.right.left).left
    rw [hkey, <- hyk] at hnot
    exact hnot (mem_map_of_mem hy)

section

variable (hview : forall y p, view y = some p -> p.1 = key y) (hnd : (records.map key).Nodup)
    (h : recordEntry key records k = some (i, x))
include hview hnd h

theorem filterMap_eraseIdx_recordEntry :
    (records.eraseIdx i).filterMap view =
      (records.filterMap view).filter (fun p => p.1 != k) := by
  rcases recordEntry_split hnd h with ⟨before, after, hsplit, hlen, hx, hbefore, hafter⟩
  have hkeep : forall part : List α, (forall y, y ∈ part -> key y ≠ k) ->
      (part.filterMap view).filter (fun p => p.1 != k) = part.filterMap view := by
    intro part hpart
    rw [filter_eq_self]
    intro p hp
    rcases key_of_mem_view hview hp with ⟨y, hy, hpy⟩
    simpa [hpy] using hpart y hy
  rw [hsplit, <- hlen, eraseIdx_at_split, filterMap_append,
    filterMap_append, filter_append, hkeep before hbefore]
  cases hvx : view x with
  | none => rw [filterMap_cons_none hvx, hkeep after hafter]
  | some p =>
    have hp : p.1 = k := by rw [hview x p hvx, hx]
    rw [filterMap_cons_some hvx, filter_cons_of_neg (by simp [hp]), hkeep after hafter]

theorem filterMap_set_recordEntry {f : κ × β -> κ × β} {x' : α} (hx' : view x' = (view x).map f) :
    (records.set i x').filterMap view =
      (records.filterMap view).map (fun p => if p.1 = k then f p else p) := by
  rcases recordEntry_split hnd h with ⟨before, after, hsplit, hlen, hx, hbefore, hafter⟩
  have hkeep : forall part : List α, (forall y, y ∈ part -> key y ≠ k) ->
      (part.filterMap view).map (fun p => if p.1 = k then f p else p) = part.filterMap view := by
    intro part hpart
    rw [map_congr_left (g := id), map_id]
    intro p hp
    rcases key_of_mem_view hview hp with ⟨y, hy, hpy⟩
    exact if_neg (hpy ▸ hpart y hy)
  rw [hsplit, <- hlen, set_at_split, filterMap_append, filterMap_append,
    map_append, hkeep before hbefore]
  cases hvx : view x with
  | none =>
    rw [hvx] at hx'
    rw [filterMap_cons_none hvx, filterMap_cons_none hx', hkeep after hafter]
  | some p =>
    have hp : p.1 = k := by rw [hview x p hvx, hx]
    rw [hvx] at hx'
    rw [filterMap_cons_some hvx, filterMap_cons_some hx', map_cons, if_pos hp, hkeep after hafter]

end

end Views

/-!
## Lookups after an update
-/

theorem firstEntry_append (records more : List α) :
    (firstEntry p (records ++ more)).map Prod.snd = ((firstEntry p records).map Prod.snd).or
        ((firstEntry p more).map Prod.snd) := by
  induction records with
  | nil => simp [firstEntry]
  | cons x rest _ =>
    cases hx : p x with
    | true => simp [firstEntry, hx]
    | false =>
      cases hrest : firstEntry p rest <;> cases hall : firstEntry p (rest ++ more) <;>
        simp_all [firstEntry]

theorem recordAt_cons [DecidableEq κ] (x : α) (records : List α) (k : κ) :
    recordAt key (x :: records) k = if key x = k then some x else recordAt key records k := by
  rw [recordAt, recordAt, recordEntry, recordEntry]
  by_cases hx : key x = k
  · simp [firstEntry, hx]
  · cases hrest : firstEntry (fun y => key y == k) records <;> simp [firstEntry, hx, hrest]

theorem recordAt_concat [DecidableEq κ] (records : List α) (x : α) (k : κ) :
    recordAt key (records ++ [x]) k =
      (recordAt key records k).or (if key x = k then some x else none) := by
  rw [recordAt, recordAt, recordEntry, recordEntry, firstEntry_append]
  by_cases hx : key x = k <;> simp [firstEntry]

theorem recordAt_set [DecidableEq κ] {k' : κ} (hentry : recordEntry key records k = some (i, x))
    (hy : key y = k) :
    recordAt key (records.set i y) k' = if k' = k then some y else recordAt key records k' := by
  rcases firstEntry_split hentry with ⟨before, _, hsplit, hlen, hp, hbefore⟩
  have hx : key x = k := by simpa using hp
  rw [hsplit, <- hlen, set_at_split, recordAt, recordAt, recordEntry, recordEntry,
    firstEntry_append, firstEntry_append]
  by_cases hk : k' = k
  · have hnone : firstEntry (fun z => key z == k') before = none := by
      rw [hk]
      exact firstEntry_eq_none.mpr hbefore
    rw [hnone, hk]
    simp [firstEntry, hy]
  · rw [if_neg hk]
    simp [firstEntry, hy, hx, Ne.symm hk]

/-!
## Removal
-/

theorem nodup_map_eraseIdx (hnd : (records.map key).Nodup) : ((records.eraseIdx i).map key).Nodup :=
  hnd.sublist ((eraseIdx_sublist records i).map key)

theorem nodup_map_filter (hnd : (records.map key).Nodup) : ((records.filter p).map key).Nodup :=
  hnd.sublist (filter_sublist.map key)

theorem mem_eraseIdx_of_ne (hx : records[i]? = some x) (hz : z ∈ records) (hne : z ≠ x) :
    z ∈ records.eraseIdx i := by
  rcases List.getElem?_of_mem hz with ⟨j, hj⟩
  have hij : j ≠ i := by
    intro hij
    subst hij
    rw [hx] at hj
    cases hj
    exact hne rfl
  exact mem_eraseIdx_iff_getElem?.mpr ⟨j, hij, hj⟩

theorem key_ne_of_mem_eraseIdx (hnd : (records.map key).Nodup) (hx : records[i]? = some x)
    (hz : z ∈ records.eraseIdx i) : key z ≠ key x := by
  rcases mem_eraseIdx_iff_getElem?.mp hz with ⟨j, hij, hj⟩
  exact key_ne_of_index_ne hnd hx hj hij

/-!
## Values spread over the records

Some values are unique over the whole table although a record holds several of
them; `f` lists those of one record.
-/

theorem nodup_flatMap_concat (hnd : (records.flatMap f).Nodup) (hx : (f x).Nodup)
    (hfresh : forall b, b ∈ f x -> b ∉ records.flatMap f) : ((records ++ [x]).flatMap f).Nodup := by
  rw [flatMap_append, nodup_append, flatMap_singleton]
  refine ⟨hnd, hx, ?_⟩
  intro a ha b hb hab
  rw [hab] at ha
  exact hfresh b hb ha

/-- One record gains a value that no record has. -/
theorem nodup_flatMap_insert {b : β} (hnd : ((before ++ x :: after).flatMap f).Nodup)
    (hy : f y = f x ++ [b]) (hfresh : b ∉ (before ++ x :: after).flatMap f) :
    ((before ++ y :: after).flatMap f).Nodup := by
  have hperm : List.Perm ((before ++ y :: after).flatMap f)
      (b :: (before ++ x :: after).flatMap f) := by
    simp only [flatMap_append, flatMap_cons, hy, append_assoc, singleton_append]
    rw [<- append_assoc, <- append_assoc]
    exact perm_middle
  rw [hperm.nodup_iff, nodup_cons]
  exact ⟨hfresh, hnd⟩

theorem not_mem_flatMap_of_nodup_split (hnd : ((before ++ x :: after).flatMap f).Nodup) :
    forall b, b ∈ f x -> b ∉ before.flatMap f := by
  intro b hb hbefore
  rw [flatMap_append, nodup_append] at hnd
  exact hnd.right.right b hbefore b (mem_append_left _ hb) rfl

/-!
## Covering a table

A table covers an older one when every old record still has a counterpart.
References into the table survive exactly such changes.
-/

def Covers (R : α -> α -> Prop) (old new : List α) : Prop :=
  forall x, x ∈ old -> exists y, y ∈ new ∧ R x y

theorem covers_set (hrefl : forall x, R x x) (hx : records[i]? = some x) (hxy : R x y) :
    Covers R records (records.set i y) := by
  intro z hz
  by_cases hzx : z = x
  · rw [hzx]
    exact ⟨y, mem_set_self hx, hxy⟩
  · exact ⟨z, mem_set_of_ne hx hz hzx, hrefl z⟩

theorem covers_append (hrefl : forall x, R x x) (records more : List α) :
    Covers R records (records ++ more) := by
  intro z hz
  exact ⟨z, mem_append_left more hz, hrefl z⟩

theorem covers_map {f : α -> α} (hf : forall x, R x (f x)) (records : List α) :
    Covers R records (records.map f) := by
  intro z hz
  exact ⟨f z, mem_map_of_mem hz, hf z⟩

end Omux.Library
