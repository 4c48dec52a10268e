import Mathlib.Data.List.Basic

/-!
# Reservation before commit

Every write first reserves the stamp of the new value in a second place and commits the
value afterwards.  Whatever value is found later in the first place, it is the last
committed one if its stamp is the reserved stamp.

The second place is a file that is replaced by renaming.  A replacement that was
not made durable can be lost with the power.
-/

namespace Omux.Library

/-- Content of a replaceable file, and what a power loss may leave of it. -/
structure Cell (τ : Type _) where
  visible : Option τ := none
  durable : Option τ := none

namespace Cell

variable {τ : Type _}

def rename (cell : Cell τ) (next : τ) : Cell τ :=
  { cell with visible := some next }

def publish (_ : Cell τ) (next : τ) : Cell τ :=
  { visible := some next, durable := some next }

def powerLoss (cell : Cell τ) (kept : Bool) : Cell τ :=
  let found := if kept then cell.visible else cell.durable
  { visible := found, durable := found }

end Cell

section Guard

variable {α τ : Type _} {rank : τ -> Nat}

/-- The stamp in the cell is that of the last committed value, or the next one. -/
inductive Guard (rank : τ -> Nat) (last : τ) : Cell τ -> Prop where
  | settled : Guard rank last ⟨some last, some last⟩
  | renamed {next : τ} (hnext : rank next = rank last + 1) :
      Guard rank last ⟨some next, some last⟩
  | reserved {next : τ} (hnext : rank next = rank last + 1) :
      Guard rank last ⟨some next, some next⟩

theorem Guard.powerLoss {last : τ} {cell : Cell τ} (h : Guard rank last cell)
    (kept : Bool) : Guard rank last (cell.powerLoss kept) := by
  cases h with
  | settled => cases kept <;> exact .settled
  | renamed hnext =>
    cases kept with
    | true => exact .reserved hnext
    | false => exact .settled
  | reserved hnext => cases kept <;> exact .reserved hnext

theorem Guard.settled_of_le {last found : τ} {cell : Cell τ} (h : Guard rank last cell)
    (hfound : cell.visible = some found) (hle : rank found <= rank last) :
    cell = ⟨some last, some last⟩ := by
  cases h with
  | settled => rfl
  | renamed hnext | reserved hnext =>
    cases hfound
    rw [hnext] at hle
    exact absurd hle (Nat.not_succ_le_self _)

def Descending (rank : α -> Nat) (history : List α) : Prop :=
  history.Pairwise (fun newer older => rank older < rank newer)

theorem Descending.le_head {rank : α -> Nat} {last x : α} {rest : List α}
    (h : Descending rank (last :: rest)) (hx : x ∈ last :: rest) :
    x = last ∨ rank x < rank last := by
  rcases List.mem_cons.mp hx with heq | hmem
  · exact Or.inl heq
  · exact Or.inr (List.rel_of_pairwise_cons h hmem)

/-- The value that carries the reserved stamp is the last committed value. -/
theorem eq_last_of_guard (stamp : α -> τ) {last x : α} {rest : List α} {cell : Cell τ}
    (hhist : Descending (fun y => rank (stamp y)) (last :: rest))
    (hguard : Guard rank (stamp last) cell) (hx : x ∈ last :: rest)
    (hfound : cell.visible = some (stamp x)) :
    x = last ∧ cell = ⟨some (stamp last), some (stamp last)⟩ := by
  have hle : rank (stamp x) <= rank (stamp last) := by
    rcases hhist.le_head hx with heq | hlt
    · exact Nat.le_of_eq (by rw [heq])
    · exact Nat.le_of_lt hlt
  have hcell := hguard.settled_of_le hfound hle
  refine ⟨?_, hcell⟩
  rcases hhist.le_head hx with heq | hlt
  · exact heq
  · rw [hcell] at hfound
    have hstamp : stamp last = stamp x := by simpa using hfound
    rw [hstamp] at hlt
    exact absurd hlt (Nat.lt_irrefl _)

end Guard
end Omux.Library
