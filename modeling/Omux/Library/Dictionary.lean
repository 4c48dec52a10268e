import Mathlib.Data.List.Basic

/-!
# Dictionaries

Objects that are used as maps from names to values.
-/

namespace Omux.Library

abbrev Dictionary (β : Type) := List (String × β)

namespace Dictionary

variable {β : Type}

variable (map : Dictionary β)

def get (key : String) : Option β :=
  List.lookup key map

def erase (key : String) : Dictionary β :=
  map.filter (fun entry => entry.1 ≠ key)

def put (key : String) (value : β) : Dictionary β :=
  (key, value) :: map.erase key

def keep (test : String -> Bool) : Dictionary β :=
  map.filter (fun entry => test entry.1)

theorem get_cons (key : String) (value : β) (rest : Dictionary β) (other : String) :
    get ((key, value) :: rest) other = if other = key then some value else get rest other := by
  by_cases h : other = key
  · simp [get, h]
  · have hne : (other == key) = false := beq_eq_false_iff_ne.mpr h
    simp [get, List.lookup_cons, h, hne]

theorem get_keep (map : Dictionary β) (test : String -> Bool) (key : String) :
    (map.keep test).get key = if test key then map.get key else none := by
  induction map with
  | nil => cases test key <;> rfl
  | cons entry _ ih =>
    rcases entry with ⟨name, _⟩
    rw [keep, List.filter_cons]
    by_cases hname : test name = true
    · rw [if_pos hname, get_cons, get_cons]
      by_cases hkey : key = name
      · rw [hkey, if_pos rfl, if_pos hname, if_pos rfl]
      · rw [if_neg hkey, if_neg hkey]
        exact ih
    · rw [if_neg hname, get_cons]
      by_cases hkey : key = name
      · have hrest := ih
        rw [hkey, if_neg hname] at hrest ⊢
        exact hrest
      · rw [if_neg hkey]
        exact ih

theorem get_erase (map : Dictionary β) (key other : String) :
    (map.erase key).get other = if other = key then none else map.get other := by
  have h := get_keep map (fun name => name ≠ key) other
  rw [keep] at h
  rw [erase, h]
  by_cases hsame : other = key <;> simp [hsame]

theorem get_put (map : Dictionary β) (key : String) (value : β) (other : String) :
    (map.put key value).get other = if other = key then some value else map.get other := by
  rw [put, get_cons, get_erase]
  by_cases hsame : other = key <;> simp [hsame]

end Dictionary
end Omux.Library
