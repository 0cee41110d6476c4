import Mathlib.Data.List.Induction
import Mathlib.Data.List.Nodup
import Mathlib.Data.List.TakeWhile

/-!
# Machinery/Dict — insertion-ordered dictionaries

Pairs with distinct keys, in the order their keys were first inserted, as a Python `dict`.  A
dictionary built from a list of pairs keeps, for each key, the value of its last pair
(`get?_ofPairs`), wherever that key's first pair put it.
-/

namespace Machinery

/-- A dictionary, as the list of its items. -/
structure Dict (K V : Type*) where
  items : List (K × V)
  nodup : (items.map Prod.fst).Nodup

namespace Dict

variable {K V : Type*} [DecidableEq K]

/-- `{}`. -/
def empty : Dict K V := ⟨[], List.nodup_nil⟩

/-- `d.get(k)`. -/
def get? (d : Dict K V) (k : K) : Option V := (d.items.find? fun p => p.1 = k).map Prod.snd

theorem mem_items_iff (d : Dict K V) (k : K) (v : V) : (k, v) ∈ d.items ↔ d.get? k = some v := by
  constructor
  · intro hmem
    cases hfind : d.items.find? fun p => p.1 = k with
    | none => exact absurd (List.find?_eq_none.mp hfind (k, v) hmem) (by simp)
    | some p =>
      have hp : p.1 = k := by simpa using List.find?_some hfind
      have heq := List.inj_on_of_nodup_map d.nodup (List.mem_of_find?_eq_some hfind) hmem hp
      simp [get?, hfind, heq]
  · intro hget
    obtain ⟨p, hfind, rfl⟩ := Option.map_eq_some_iff.mp hget
    have hp : p.1 = k := by simpa using List.find?_some hfind
    exact hp ▸ List.mem_of_find?_eq_some hfind

theorem mem_keys_iff (d : Dict K V) (k : K) : k ∈ d.items.map Prod.fst ↔ (d.get? k).isSome := by
  rw [Option.isSome_iff_exists, List.mem_map]
  constructor
  · rintro ⟨⟨_, v⟩, hmem, rfl⟩
    exact ⟨v, (d.mem_items_iff _ v).mp hmem⟩
  · rintro ⟨v, hget⟩
    exact ⟨(k, v), (d.mem_items_iff k v).mpr hget, rfl⟩

/-- Giving the key `k` the value `v` wherever it occurs. -/
def overwrite (k : K) (v : V) (items : List (K × V)) : List (K × V) :=
  items.map fun p => if p.1 = k then (k, v) else p

theorem map_fst_overwrite (k : K) (v : V) (items : List (K × V)) :
    (overwrite k v items).map Prod.fst = items.map Prod.fst := by
  rw [overwrite, List.map_map]
  refine List.map_congr_left fun p _ => ?_
  by_cases h : p.1 = k <;> simp [h]

/-- `d[k] = v`: an old key keeps its place, a new one comes last. -/
def setItem (d : Dict K V) (k : K) (v : V) : Dict K V :=
  if h : k ∈ d.items.map Prod.fst then
    ⟨overwrite k v d.items, by rw [map_fst_overwrite]; exact d.nodup⟩
  else
    ⟨d.items ++ [(k, v)], by
      rw [List.map_append]
      exact List.Nodup.append d.nodup (List.nodup_singleton k)
        (List.disjoint_singleton.mpr h)⟩

theorem get?_setItem (d : Dict K V) (k k' : K) (v : V) :
    (d.setItem k v).get? k' = if k' = k then some v else d.get? k' := by
  have hkey : ∀ p : K × V, (if p.1 = k then (k, v) else p).1 = p.1 := fun p => by
    by_cases h : p.1 = k <;> simp [h]
  by_cases h : k ∈ d.items.map Prod.fst
  · simp only [setItem, h, dite_true, get?, overwrite, List.find?_map, Function.comp_def, hkey]
    cases hfind : d.items.find? fun p => p.1 = k' with
    | none =>
      have hne : k' ≠ k := by
        rintro rfl
        obtain ⟨p, hp, hpk⟩ := List.mem_map.mp h
        exact absurd (List.find?_eq_none.mp hfind p hp) (by simp [hpk])
      simp [hne]
    | some p =>
      have hp : p.1 = k' := by simpa using List.find?_some hfind
      by_cases hk : k' = k <;> simp [hp, hk]
  · simp only [setItem, h, dite_false, get?, List.find?_append]
    by_cases hk : k' = k
    · subst hk
      have hnone : (d.items.find? fun p => p.1 = k') = none :=
        List.find?_eq_none.mpr fun p hp hpk =>
          h (List.mem_map.mpr ⟨p, hp, by simpa using hpk⟩)
      simp [hnone]
    · simp [hk, Ne.symm hk]

theorem length_setItem (d : Dict K V) (k : K) (v : V) :
    (d.setItem k v).items.length =
      if (d.get? k).isSome then d.items.length else d.items.length + 1 := by
  by_cases h : k ∈ d.items.map Prod.fst
  · rw [if_pos ((d.mem_keys_iff k).mp h)]
    simp only [setItem, h, dite_true, overwrite, List.length_map]
  · rw [if_neg (mt (d.mem_keys_iff k).mpr h)]
    simp only [setItem, h, dite_false, List.length_append, List.length_singleton]

/-- `dict(pairs)`. -/
def ofPairs (pairs : List (K × V)) : Dict K V :=
  pairs.foldl (fun d p => d.setItem p.1 p.2) empty

theorem ofPairs_concat (pairs : List (K × V)) (p : K × V) :
    ofPairs (pairs ++ [p]) = (ofPairs pairs).setItem p.1 p.2 := by
  simp [ofPairs, List.foldl_append]

/-- Pairs with distinct keys are the items of their dictionary. -/
theorem items_ofPairs {pairs : List (K × V)} (h : (pairs.map Prod.fst).Nodup) :
    (ofPairs pairs).items = pairs := by
  induction pairs using List.reverseRecOn with
  | nil => rfl
  | append_singleton pairs p ih =>
    rw [List.map_append] at h
    have hinit := ih (List.nodup_append.mp h).1
    have hnew : p.1 ∉ (ofPairs pairs).items.map Prod.fst := by
      rw [hinit]
      exact fun hmem => (List.nodup_append.mp h).2.2 _ hmem _ (List.mem_singleton_self _) rfl
    rw [ofPairs_concat, setItem, dif_neg hnew]
    exact congrArg (· ++ [p]) hinit

/-- **A dictionary built from pairs keeps the last value of each key.** -/
theorem get?_ofPairs (pairs : List (K × V)) (k : K) :
    (ofPairs pairs).get? k = ((pairs.filter fun p => p.1 = k).getLast?).map Prod.snd := by
  induction pairs using List.reverseRecOn with
  | nil => rfl
  | append_singleton pairs p ih =>
    rw [ofPairs_concat, get?_setItem, ih, List.filter_append]
    by_cases h : p.1 = k
    · simp [h]
    · simp [h, Ne.symm h]

/-! ## The order of the keys -/

theorem map_fst_setItem (d : Dict K V) (k : K) (v : V) :
    (d.setItem k v).items.map Prod.fst =
      if k ∈ d.items.map Prod.fst then d.items.map Prod.fst else d.items.map Prod.fst ++ [k] := by
  by_cases h : k ∈ d.items.map Prod.fst
  · simp only [setItem, h, dite_true, if_true, map_fst_overwrite]
  · simp only [setItem, h, dite_false, if_false, List.map_append, List.map_singleton]

theorem mem_keys_ofPairs (pairs : List (K × V)) (k : K) :
    k ∈ (ofPairs pairs).items.map Prod.fst ↔ k ∈ pairs.map Prod.fst := by
  induction pairs using List.reverseRecOn with
  | nil => rfl
  | append_singleton pairs p ih =>
    rw [ofPairs_concat, map_fst_setItem, List.map_append, List.map_singleton, List.mem_append,
      List.mem_singleton, ← ih]
    split_ifs with h
    · exact ⟨.inl, fun hk => hk.elim id fun hp => hp ▸ h⟩
    · rw [List.mem_append, List.mem_singleton]

/-- The first key of a kind is that of the first pair of that kind… -/
theorem find?_keys_ofPairs (pairs : List (K × V)) (q : K → Bool) :
    ((ofPairs pairs).items.map Prod.fst).find? q = (pairs.map Prod.fst).find? q := by
  induction pairs using List.reverseRecOn with
  | nil => rfl
  | append_singleton pairs p ih =>
    rw [ofPairs_concat, map_fst_setItem, List.map_append, List.map_singleton, List.find?_append,
      ← ih]
    split_ifs with h
    · cases hfind : ((ofPairs pairs).items.map Prod.fst).find? q with
      | some k => rfl
      | none => simp [List.find?_eq_none.mp hfind p.1 h]
    · rw [List.find?_append]

theorem takeWhile_concat_of_not {α : Type*} {q : α → Bool} {ks : List α} (h : ¬ ∀ k ∈ ks, q k)
    (k : α) : (ks ++ [k]).takeWhile q = ks.takeWhile q := by
  rw [List.takeWhile_append, if_neg]
  intro hlen
  exact h (List.takeWhile_eq_self_iff.mp ((List.takeWhile_prefix q).eq_of_length hlen))

/-- …and the keys before it are those of the pairs before it. -/
theorem mem_takeWhile_keys_ofPairs (pairs : List (K × V)) (q : K → Bool) (k : K) :
    k ∈ ((ofPairs pairs).items.map Prod.fst).takeWhile q ↔
      k ∈ (pairs.map Prod.fst).takeWhile q := by
  induction pairs using List.reverseRecOn with
  | nil => rfl
  | append_singleton pairs p ih =>
    rw [ofPairs_concat, map_fst_setItem, List.map_append, List.map_singleton]
    by_cases hall : ∀ k ∈ pairs.map Prod.fst, q k
    · have hall' : ∀ k ∈ (ofPairs pairs).items.map Prod.fst, q k := fun k hk =>
        hall k ((mem_keys_ofPairs pairs k).mp hk)
      rw [List.takeWhile_append_of_pos hall]
      split_ifs with h
      · rw [List.takeWhile_eq_self_iff.mpr hall', mem_keys_ofPairs, List.mem_append,
          List.takeWhile_cons_of_pos (hall' p.1 h), List.takeWhile_nil, List.mem_singleton]
        exact ⟨.inl, fun hk => hk.elim id fun hp => hp ▸ (mem_keys_ofPairs pairs p.1).mp h⟩
      · rw [List.takeWhile_append_of_pos hall', List.mem_append, List.mem_append, mem_keys_ofPairs]
    · have hall' : ¬ ∀ k ∈ (ofPairs pairs).items.map Prod.fst, q k := fun hkeys =>
        hall fun k hk => hkeys k ((mem_keys_ofPairs pairs k).mpr hk)
      rw [takeWhile_concat_of_not hall, ← ih]
      split_ifs with h
      · rfl
      · rw [takeWhile_concat_of_not hall']

end Dict

end Machinery
