import Mathlib.Data.List.Basic
import Mathlib.Data.List.TakeWhile
import Mathlib.Tactic.Common

/-!
# Machinery/Regex — anchors and repeated classes

A pattern is a sequence of pieces, matched from the left with backtracking; a match need not reach
the end of the input.  `eol` stands for the end anchor without a multi-line mode: it holds at the
end of the input and also before a newline that ends it, so an anchored class accepts one newline
that is not of the class (`matchAt_line_iff`).
-/

namespace Machinery

namespace Regex

/-- A piece of a pattern over the letters `α`. -/
inductive Piece (α : Type*)
  /-- The start of the input. -/
  | bol
  /-- The end of the input, or of its last line. -/
  | eol
  /-- One or more letters of a class, as many as possible. -/
  | plus (cls : α → Bool)

variable {α : Type*} [DecidableEq α] (newline : α)

/-- Whether the pieces match at the front of what is left of the input, `start` telling whether that
is all of it. -/
def matchAt : List (Piece α) → Bool → List α → Bool
  | [], _, _ => true
  | .bol :: ps, start, s => start && matchAt ps start s
  | .eol :: ps, start, s => (s = [] ∨ s = [newline]) && matchAt ps start s
  | .plus cls :: ps, _, s =>
    -- the longest run first, then back off one letter at a time
    (List.range (s.takeWhile cls).length).reverse.any fun k => matchAt ps false (s.drop (k + 1))

variable {newline}

/-- **A repeated class matches** what it can split off that the rest can go on from. -/
theorem matchAt_plus_iff {cls : α → Bool} {ps : List (Piece α)} {start : Bool} {s : List α} :
    matchAt newline (.plus cls :: ps) start s = true ↔
      ∃ u v, s = u ++ v ∧ u ≠ [] ∧ (∀ c ∈ u, cls c) ∧ matchAt newline ps false v = true := by
  simp only [matchAt, List.any_eq_true, List.mem_reverse, List.mem_range]
  constructor
  · rintro ⟨k, hk, hrest⟩
    have hrun : s.take (k + 1) = (s.takeWhile cls).take (k + 1) := by
      conv_rhs => rw [List.prefix_iff_eq_take.mp (List.takeWhile_prefix cls)]
      rw [List.take_take, min_eq_left hk]
    have hs : s ≠ [] := by
      rintro rfl
      exact absurd hk (by simp)
    refine ⟨s.take (k + 1), s.drop (k + 1), (List.take_append_drop _ s).symm, ?_, ?_, hrest⟩
    · simpa using hs
    · intro c hc
      rw [hrun] at hc
      exact List.mem_takeWhile_imp (List.mem_of_mem_take hc)
  · rintro ⟨u, v, rfl, hne, hall, hrest⟩
    have hpos : 0 < u.length := List.length_pos_iff.mpr hne
    have hlen : u.length - 1 + 1 = u.length := Nat.sub_add_cancel hpos
    refine ⟨u.length - 1, ?_, ?_⟩
    · rw [List.takeWhile_append_of_pos hall, List.length_append]
      omega
    · rwa [hlen, List.drop_left]

/-- **An anchored class** accepts the runs of its letters, and such a run before one newline. -/
theorem matchAt_line_iff {cls : α → Bool} {s : List α} :
    matchAt newline [.bol, .plus cls, .eol] true s = true ↔
      ∃ u, u ≠ [] ∧ (∀ c ∈ u, cls c) ∧ (s = u ∨ s = u ++ [newline]) := by
  rw [matchAt, Bool.true_and, matchAt_plus_iff]
  simp only [matchAt, Bool.and_true, decide_eq_true_eq]
  constructor
  · rintro ⟨u, v, rfl, hne, hall, rfl | rfl⟩
    · exact ⟨u, hne, hall, .inl (List.append_nil u)⟩
    · exact ⟨u, hne, hall, .inr rfl⟩
  · rintro ⟨u, hne, hall, rfl | rfl⟩
    · exact ⟨s, [], (List.append_nil s).symm, hne, hall, .inl rfl⟩
    · exact ⟨u, [newline], rfl, hne, hall, .inr rfl⟩

end Regex

end Machinery
