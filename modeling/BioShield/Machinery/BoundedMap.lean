import BioShield.Machinery.Dict

/-!
# Machinery/BoundedMap — hash maps with a capacity

Replacing the value of a stored key always works; a new key is stored while there is room, and an
update that finds none changes nothing.
-/

namespace Machinery

/-- A map that stores at most `cap` keys. -/
structure BoundedMap (K V : Type*) (cap : ℕ) where
  dict : Dict K V
  length_le : dict.items.length ≤ cap

namespace BoundedMap

variable {K V : Type*} [DecidableEq K] {cap : ℕ}

/-- The map that stores nothing. -/
def empty : BoundedMap K V cap := ⟨⟨[], List.nodup_nil⟩, Nat.zero_le cap⟩

/-- The number of stored keys. -/
def size (m : BoundedMap K V cap) : ℕ := m.dict.items.length

/-- The value stored for a key. -/
def lookup (m : BoundedMap K V cap) (k : K) : Option V := m.dict.get? k

theorem length_setItem_le (m : BoundedMap K V cap) {k : K} (v : V)
    (h : (m.lookup k).isSome ∨ m.size < cap) :
    (m.dict.setItem k v).items.length ≤ cap := by
  rw [Dict.length_setItem]
  split_ifs with hk
  · exact m.length_le
  · exact h.resolve_left hk

/-- Storing a value, if its key is stored or there is room for it. -/
def update (m : BoundedMap K V cap) (k : K) (v : V) : BoundedMap K V cap :=
  if h : (m.lookup k).isSome ∨ m.size < cap then
    ⟨m.dict.setItem k v, m.length_setItem_le v h⟩
  else m

variable (m : BoundedMap K V cap) (k : K) (v : V)

/-- An update of `k` is the only one that `k` notices… -/
theorem lookup_update_of_ne {k' : K} (hne : k' ≠ k) : (m.update k v).lookup k' = m.lookup k' := by
  rw [update]
  split_ifs with h
  · rw [lookup, Dict.get?_setItem, if_neg hne, lookup]
  · rfl

/-- …and it works if `k` is stored or there is room. -/
theorem lookup_update_self (h : (m.lookup k).isSome ∨ m.size < cap) :
    (m.update k v).lookup k = some v := by
  rw [update, dif_pos h, lookup, Dict.get?_setItem, if_pos rfl]

/-- In a full map a new key is lost. -/
theorem update_of_full (hk : m.lookup k = none) (hfull : cap ≤ m.size) : m.update k v = m := by
  rw [update, dif_neg]
  rintro (h | h)
  · rw [hk] at h
    cases h
  · exact absurd h (Nat.not_lt.mpr hfull)

/-- Only storing a new key adds to the size. -/
theorem size_update : (m.update k v).size =
    if m.lookup k = none ∧ m.size < cap then m.size + 1 else m.size := by
  by_cases h : (m.lookup k).isSome ∨ m.size < cap
  · have hset : (m.update k v).size = if (m.lookup k).isSome then m.size else m.size + 1 := by
      rw [update, dif_pos h]
      exact m.dict.length_setItem k v
    by_cases hk : (m.lookup k).isSome
    · have hstored : m.lookup k ≠ none := fun hnone => by simp [hnone] at hk
      rw [hset, if_pos hk, if_neg fun hnew => hstored hnew.1]
    · have hnone : m.lookup k = none := Option.not_isSome_iff_eq_none.mp hk
      rw [hset, if_neg hk, if_pos ⟨hnone, h.resolve_left hk⟩]
  · rw [update, dif_neg h, if_neg fun hnew => h (.inr hnew.2)]

theorem size_le_size_update : m.size ≤ (m.update k v).size := by
  rw [size_update]
  split_ifs <;> omega

theorem size_update_le : (m.update k v).size ≤ m.size + 1 := by
  rw [size_update]
  split_ifs <;> omega

theorem size_update_of_new (hk : m.lookup k = none) (hroom : m.size < cap) :
    (m.update k v).size = m.size + 1 := by
  rw [size_update, if_pos ⟨hk, hroom⟩]

end BoundedMap

end Machinery
