import Omux.Library.Records
import Omux.Domain.Validation

/-!
# Lookups and owned writes

Every table is scanned from the front for the first record with an id.  Owned
writes validate the record before they touch the table, and appends also refuse
to grow a table beyond its bound.
-/

namespace Omux.Domain

open Library

namespace State

variable (s : State)

def sourceEntry (id : Bytes) : Option (Nat × Source) :=
  recordEntry Source.id s.sources id

def accountEntry (id : Bytes) : Option (Nat × Account) :=
  recordEntry Account.id s.accounts id

def grantEntry (id : Bytes) : Option (Nat × Grant) :=
  recordEntry Grant.id s.grants id

def bindingEntry (id : Bytes) : Option (Nat × Binding) :=
  recordEntry Binding.id s.bindings id

def source (id : Bytes) : Option Source :=
  recordAt Source.id s.sources id

def account (id : Bytes) : Option Account :=
  recordAt Account.id s.accounts id

def grant (id : Bytes) : Option Grant :=
  recordAt Grant.id s.grants id

def binding (id : Bytes) : Option Binding :=
  recordAt Binding.id s.bindings id

/-- The revision counter saturates. -/
def changed : State :=
  { s with revision := min (s.revision + 1) maxU64 }

end State

def appendOwned {α : Type} [Validate α] (records : List α) (value : α) : Result (List α) := do
  failIf (decide (maxRecords <= records.length)) .tooManyRecords
  validate value
  .ok (records ++ [value])

def replaceOwned {α : Type} [Validate α] (records : List α) (i : Nat)
    (value : α) : Result (List α) := do
  validate value
  .ok (records.set i value)

theorem appendOwned_eq_ok {α : Type} [Validate α] {records result : List α} {value : α} :
    appendOwned records value = .ok result ↔
      records.length < maxRecords ∧ validate value = .ok () ∧
        result = records ++ [value] := by
  simp only [appendOwned, ok_iff, bool_iff, not_le]
  constructor
  · intro h
    rcases h with ⟨_, hlen, _, hvalid, heq⟩
    exact ⟨hlen, hvalid, heq.symm⟩
  · intro h
    rcases h with ⟨hlen, hvalid, heq⟩
    exact ⟨(), hlen, (), hvalid, heq.symm⟩

theorem replaceOwned_eq_ok {α : Type} [Validate α] {records result : List α}
    {i : Nat} {value : α} : replaceOwned records i value = .ok result ↔
      validate value = .ok () ∧ result = records.set i value := by
  simp only [replaceOwned, ok_iff]
  constructor
  · intro h
    rcases h with ⟨_, hvalid, heq⟩
    exact ⟨hvalid, heq.symm⟩
  · intro h
    exact ⟨(), h.left, h.right.symm⟩

end Omux.Domain
