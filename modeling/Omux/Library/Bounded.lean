import Omux.Library.Schema

/-!
# Encoders with a greatest length

A type of fixed size has a longest encoding.  Numbers of a machine word have one,
and arrays of a fixed length and records inherit it from their parts.
-/

namespace Omux.Library

structure Bounded (α : Type) where
  json : α -> Bytes
  most : Nat
  length_le : forall a, (json a).length <= most

namespace Bounded

variable {limit : Nat} {α β : Type}

def ofScalar (scalar : Scalar limit β) (get : α -> β)
    (h : forall a, scalar.fits (get a) = true) : Bounded α where
  json a := scalar.json (get a)
  most := scalar.maximum
  length_le a := scalar.le_maximum (get a) (h a)

def array (n : Nat) (item : Bounded α) : Bounded (Vector α n) where
  json items := jsonArray (items.toList.map item.json)
  most := 2 + n * (item.most + 1)
  length_le items := by
    have hsum : ((items.toList.map item.json).map List.length).sum <=
        item.most * items.toList.length := by
      rw [List.map_map]
      exact sum_map_le (fun a => item.length_le a) items.toList
    rw [Vector.length_toList, Nat.mul_comm] at hsum
    rw [length_jsonArray, List.length_map, Vector.length_toList, Nat.mul_add, Nat.mul_one]
    omega

def comap (get : α -> β) (part : Bounded β) : Bounded α where
  json a := part.json (get a)
  most := part.most
  length_le a := part.length_le (get a)

abbrev Members (α : Type) := List (Bytes × Bounded α)

theorem sum_members_le (members : Members α) (a : α) : (members.map (fun member =>
      (jsonString member.1).length + 1 + (member.2.json a).length)).sum <=
      (members.map (fun member => (jsonString member.1).length + 1 + member.2.most)).sum := by
  induction members with
  | nil => exact Nat.le_refl 0
  | cons member _ _ =>
    have hmember := member.2.length_le a
    simp only [List.map_cons, List.sum_cons]
    omega

def record (members : Members α) : Bounded α where
  json a := jsonObject (members.map (fun member => (member.1, member.2.json a)))
  most := 2 + (members.map (fun member =>
    (jsonString member.1).length + 1 + member.2.most)).sum + (members.length - 1)
  length_le a := by
    have hsum := sum_members_le members a
    rw [length_jsonObject, List.map_map, List.length_map]
    simp only [Function.comp_def]
    omega

end Bounded
end Omux.Library
