import Mathlib.Data.List.Nodup
import Mathlib.Logic.Function.Basic

/-!
# Finite maps

A finite map has distinct keys and a value for each of them; reading a key it does not have gives
the default value.
-/

namespace Taskfire.Library

structure FiniteMap (K V : Type) [Inhabited V] where
  keys : List K
  value : K → V
  nodup : keys.Nodup
  absent : ∀ key, key ∉ keys → value key = default

namespace FiniteMap

variable {K V : Type} [Inhabited V]

def empty : FiniteMap K V where
  keys := []
  value := fun _ => default
  nodup := List.nodup_nil
  absent := fun _ _ => rfl

theorem mem_of_value {map : FiniteMap K V} {key : K} (present : map.value key ≠ default) :
    key ∈ map.keys := by
  by_contra missing
  exact present (map.absent key missing)

variable [DecidableEq K]

def withKey (key : K) (keys : List K) : List K := if key ∈ keys then keys else keys ++ [key]

theorem mem_withKey {key other : K} {keys : List K} :
    other ∈ withKey key keys ↔ other ∈ keys ∨ other = key := by
  simp only [withKey]
  split
  · next present =>
    constructor
    · exact .inl
    · intro either
      obtain old | rfl := either
      · exact old
      · exact present
  · simp

theorem nodup_withKey {key : K} {keys : List K} (nodup : keys.Nodup) : (withKey key keys).Nodup := by
  simp only [withKey]
  split
  · exact nodup
  · next missing =>
    rw [← List.concat_eq_append]
    exact nodup.concat missing

def set (map : FiniteMap K V) (key : K) (value : V) : FiniteMap K V where
  keys := withKey key map.keys
  value := Function.update map.value key value
  nodup := nodup_withKey map.nodup
  absent := by
    intro other missing
    rw [mem_withKey, not_or] at missing
    rw [Function.update_of_ne missing.2]
    exact map.absent other missing.1

variable (map : FiniteMap K V) (key : K) (value : V)

@[simp] theorem set_value (other : K) :
    (map.set key value).value other = if other = key then value else map.value other := by
  simp [set, Function.update_apply]

@[simp] theorem mem_set {other : K} :
    other ∈ (map.set key value).keys ↔ other ∈ map.keys ∨ other = key :=
  mem_withKey

end FiniteMap

end Taskfire.Library
