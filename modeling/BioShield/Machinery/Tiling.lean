import Mathlib

/-!
# Machinery/Tiling — intervals laid end to end

Each of a list of things occupies an interval of numbers.  They tile a range if the first starts
where the range does, every other where the one before it stops, and the last stops where the range
does.  So they come in order, none meets another (`Tiles.pairwise`), and together they are the whole
range (`Tiles.iUnion_Ico`).
-/

namespace Machinery

variable {α : Type*} (start len : α → ℕ)

/-- **Tiling**: the intervals of length `len`, laid end to end, are the range from `lo` to `hi`. -/
def Tiles : ℕ → ℕ → List α → Prop
  | lo, hi, [] => lo = hi
  | lo, hi, x :: xs => start x = lo ∧ Tiles (lo + len x) hi xs

variable {start len} {lo hi : ℕ} {xs : List α}

namespace Tiles

/-- The lengths add up. -/
theorem add_sum (h : Tiles start len lo hi xs) : lo + (xs.map len).sum = hi := by
  induction xs generalizing lo with
  | nil => exact h
  | cons x xs ih =>
    rw [List.map_cons, List.sum_cons, ← Nat.add_assoc]
    exact ih h.2

/-- Every interval lies in the range… -/
theorem bounds (h : Tiles start len lo hi xs) {x : α} (hx : x ∈ xs) :
    lo ≤ start x ∧ start x + len x ≤ hi := by
  induction xs generalizing lo with
  | nil => exact absurd hx List.not_mem_nil
  | cons y ys ih =>
    rcases List.mem_cons.mp hx with rfl | hx
    · exact ⟨h.1.ge, h.1 ▸ h.2.add_sum ▸ Nat.le_add_right _ _⟩
    · obtain ⟨hlo, hhi⟩ := ih h.2 hx
      exact ⟨(Nat.le_add_right _ _).trans hlo, hhi⟩

/-- …and stops before the later ones start… -/
theorem pairwise (h : Tiles start len lo hi xs) :
    xs.Pairwise fun x y => start x + len x ≤ start y := by
  induction xs generalizing lo with
  | nil => exact .nil
  | cons x xs ih => exact .cons (fun y hy => h.1 ▸ (h.2.bounds hy).1) (ih h.2)

/-- …and no number of the range is left out. -/
theorem iUnion_Ico (h : Tiles start len lo hi xs) :
    ⋃ x ∈ xs, Set.Ico (start x) (start x + len x) = Set.Ico lo hi := by
  induction xs generalizing lo with
  | nil =>
    obtain rfl : lo = hi := h
    simp
  | cons x xs ih =>
    have hrest : lo + len x ≤ hi := h.2.add_sum ▸ Nat.le_add_right _ _
    rw [← Set.Ico_union_Ico_eq_Ico (Nat.le_add_right lo (len x)) hrest, ← ih h.2, ← h.1]
    simp only [List.mem_cons, Set.iUnion_iUnion_eq_or_left]

/-- Whatever keeps the intervals keeps the tiling. -/
theorem map (h : Tiles start len lo hi xs) {f : α → α} (hstart : ∀ x, start (f x) = start x)
    (hlen : ∀ x, len (f x) = len x) : Tiles start len lo hi (xs.map f) := by
  induction xs generalizing lo with
  | nil => exact h
  | cons x xs ih => exact ⟨(hstart x).trans h.1, hlen x ▸ ih h.2⟩

end Tiles

end Machinery
