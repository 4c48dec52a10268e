import Omux.Library.Records

/-!
# Tables with a primary key

A table carries the proof that no two rows have the same key, so every statement about a
table is a statement about its lookup.
-/

namespace Omux.Library

open List

structure Table (ρ : Type _) (κ : Type _) (key : ρ -> κ) where
  rows : List ρ
  unique : (rows.map key).Nodup

namespace Table

variable {ρ κ : Type _} {key : ρ -> κ}

def empty : Table ρ κ key where
  rows := []
  unique := List.nodup_nil

def count (table : Table ρ κ key) (selected : ρ -> Bool) : Nat :=
  table.rows.countP selected

def delete (table : Table ρ κ key) (selected : ρ -> Bool) : Table ρ κ key where
  rows := table.rows.filter (fun row => !selected row)
  unique := table.unique.sublist (List.filter_sublist.map key)

/-- Rewrite the selected rows; key columns are not assigned. -/
def update (table : Table ρ κ key) (selected : ρ -> Bool) (assign : ρ -> ρ)
    (hkey : forall row, key (assign row) = key row) : Table ρ κ key where
  rows := table.rows.map (fun row => if selected row then assign row else row)
  unique := by
    have hsame : (key ∘ fun row => if selected row then assign row else row) = key := by
      funext row
      simp only [Function.comp]
      split
      · exact hkey row
      · rfl
    rw [List.map_map, hsame]
    exact table.unique

variable [DecidableEq κ]

def find (table : Table ρ κ key) (k : κ) : Option ρ :=
  recordAt key table.rows k

def upsert (table : Table ρ κ key) (row : ρ) : Table ρ κ key where
  rows := (table.delete (fun old => key old == key row)).rows ++ [row]
  unique := by
    apply nodup_map_concat (table.delete _).unique
    intro old hold
    simpa using (List.mem_filter.mp hold).right

def insert (table : Table ρ κ key) (row : ρ) : Option (Table ρ κ key) :=
  match table.find (key row) with
  | some _ => none
  | none => some (table.upsert row)

/-!
## Lookups
-/

theorem find_eq_some {table : Table ρ κ key} {k : κ} {row : ρ} :
    table.find k = some row ↔ row ∈ table.rows ∧ key row = k := by
  constructor
  · exact recordAt_eq_some
  · intro h
    exact recordAt_of_mem table.unique h.left h.right

theorem key_of_find {table : Table ρ κ key} {k : κ} {row : ρ}
    (h : table.find k = some row) : key row = k :=
  (find_eq_some.mp h).right

theorem find_delete (table : Table ρ κ key) (selected : ρ -> Bool) (k : κ) :
    (table.delete selected).find k = (table.find k).filter (fun row => !selected row) := by
  apply Option.ext
  intro row
  rw [find_eq_some, Option.filter_eq_some_iff, find_eq_some]
  simp only [delete, mem_filter]
  constructor
  · intro h
    exact ⟨⟨h.left.left, h.right⟩, h.left.right⟩
  · intro h
    exact ⟨⟨h.left.left, h.right⟩, h.left.right⟩

theorem find_update (table : Table ρ κ key) (selected : ρ -> Bool) (assign : ρ -> ρ)
    (hkey : forall row, key (assign row) = key row) (k : κ) :
    (table.update selected assign hkey).find k =
      (table.find k).map (fun row => if selected row then assign row else row) := by
  have hsame : forall row, key (if selected row then assign row else row) = key row := by
    intro row
    split
    · exact hkey row
    · rfl
  apply Option.ext
  intro row
  rw [find_eq_some, Option.map_eq_some_iff]
  simp only [update, mem_map]
  constructor
  · intro h
    rcases h with ⟨⟨old, hold, heq⟩, hk⟩
    have holdk : key old = k := by rw [<- hsame old, heq, hk]
    exact ⟨old, find_eq_some.mpr ⟨hold, holdk⟩, heq⟩
  · intro h
    rcases h with ⟨old, hold, heq⟩
    have hmem := find_eq_some.mp hold
    refine ⟨⟨old, hmem.left, heq⟩, ?_⟩
    rw [<- heq, hsame, hmem.right]

theorem find_upsert (table : Table ρ κ key) (row : ρ) (k : κ) :
    (table.upsert row).find k = if key row = k then some row else table.find k := by
  apply Option.ext
  intro _
  rw [find_eq_some]
  simp only [upsert, delete, mem_append, mem_filter, mem_singleton]
  split
  · rename_i hk
    constructor
    · intro h
      rcases h with ⟨hold | hnew, hkey⟩
      · rw [hkey, <- hk] at hold
        simp at hold
      · rw [hnew]
    · intro h
      cases h
      exact ⟨.inr rfl, hk⟩
  · rename_i hk
    rw [find_eq_some]
    constructor
    · intro h
      rcases h with ⟨hold | hnew, hkey⟩
      · exact ⟨hold.left, hkey⟩
      · rw [hnew] at hkey
        exact absurd hkey hk
    · intro h
      refine ⟨.inl ⟨h.left, ?_⟩, h.right⟩
      rw [h.right]
      simpa using Ne.symm hk

theorem insert_inv {table next : Table ρ κ key} {row : ρ} (h : table.insert row = some next) :
    table.find (key row) = none ∧ next = table.upsert row := by
  unfold insert at h
  split at h
  · cases h
  · rename_i hfind
    cases h
    exact ⟨hfind, rfl⟩

/-!
## Selections of one row
-/

section

variable {table : Table ρ κ key} {selected : ρ -> Bool} {k : κ}
  (hone : forall row, selected row = true -> key row = k)
include hone

theorem find_of_count (h : table.count selected = 1) :
    exists row, table.find k = some row ∧ selected row = true := by
  rcases countP_pos_iff.mp (h ▸ Nat.one_pos) with ⟨row, hrow, hsel⟩
  exact ⟨row, find_eq_some.mpr ⟨hrow, hone row hsel⟩, hsel⟩

theorem find_update_one {assign : ρ -> ρ} {row : ρ} (hrow : table.find k = some row)
    (hsel : selected row = true) (hkey : forall row, key (assign row) = key row) (other : κ) :
    (table.update selected assign hkey).find other =
      if k = other then some (assign row) else table.find other := by
  rw [find_update]
  split_ifs with hother
  · rw [<- hother, hrow, Option.map_some, if_pos hsel]
  · cases hfind : table.find other with
    | none => rfl
    | some old =>
      rw [Option.map_some, if_neg]
      exact fun hold => hother ((hone old hold).symm.trans (key_of_find hfind))

end

end Table
end Omux.Library
