import BioShield.Core.QueueObservers

/-!
# Core/CapacityRounding — the capacities that can be rounded up (`core/lockfree_queue.cpp`)

The constructor doubles `m_capacity` until it is at least what was asked for.  Up to `2 ^ 63` it
ends at the least power of two that is, and the mask is a remainder (`isLeast_of_le`,
`slot_init`); above that the one bit is shifted out, and zero is doubled for ever
(`roundCapacity_of_gt`).
-/

namespace BioShield

namespace LockFreeQueue

variable {capacity : SizeT}

/-- What the doubling loop is for: it ends, in the least power of two that is at least one and at
least what was asked for, and the mask of the indices is the remainder by it. -/
def RoundsUp (capacity : SizeT) : Prop :=
  ∃ fuel q, new fuel capacity = some q ∧
    IsLeast {n : ℕ | (∃ k, n = 2 ^ k) ∧ max 1 capacity.toNat ≤ n} q.mCapacity.toNat ∧
    ∀ index : SizeT, q.slot index = index.toNat % q.mCapacity.toNat

/-- Two to the rounded logarithm is the least power of two. -/
theorem isLeast_two_pow_clog (n : ℕ) :
    IsLeast {m : ℕ | (∃ k, m = 2 ^ k) ∧ max 1 n ≤ m} (2 ^ Nat.clog 2 n) := by
  refine ⟨⟨⟨_, rfl⟩, max_le Nat.one_le_two_pow (Nat.le_pow_clog Nat.one_lt_two n)⟩, ?_⟩
  rintro m ⟨⟨k, rfl⟩, hle⟩
  have hclog : Nat.clog 2 n ≤ k :=
    (Nat.clog_le_iff_le_pow Nat.one_lt_two).mpr ((le_max_right 1 n).trans hle)
  exact Nat.pow_le_pow_right Nat.two_pos hclog

/-- **The mask is a remainder**, at every index. -/
theorem slot_init {k : ℕ} (hk : k < 64) (index : SizeT) :
    (init (BitVec.ofNat 64 (2 ^ k))).slot index = index.toNat % 2 ^ k := by
  have hslot := slot_ofNat (q := init (BitVec.ofNat 64 (2 ^ k))) hk rfl index.toNat
  rwa [BitVec.ofNat_toNat, BitVec.setWidth_eq] at hslot

/-- **The lower half rounds up**… -/
theorem roundsUp_of_le (hc : capacity.toNat ≤ 2 ^ 63) : RoundsUp capacity := by
  have hk : Nat.clog 2 capacity.toNat < 64 :=
    Nat.lt_succ_of_le ((Nat.clog_le_iff_le_pow Nat.one_lt_two).mpr hc)
  have hround := roundCapacity_two_pow hc (Nat.zero_le 63) (by rfl : 63 ≤ 0 + 63)
  rw [Nat.zero_max] at hround
  refine ⟨63, init (BitVec.ofNat 64 (2 ^ Nat.clog 2 capacity.toNat)),
    congrArg (Option.map init) hround, ?_, fun index => ?_⟩
  · rw [init, toNat_two_pow hk]
    exact isLeast_two_pow_clog _
  · rw [slot_init hk, init, toNat_two_pow hk]

/-- …and in the upper half the loop never ends, however long it runs. -/
theorem roundCapacity_of_gt (hc : 2 ^ 63 < capacity.toNat) (fuel : ℕ) {j : ℕ} (hj : j < 64) :
    roundCapacity capacity fuel (BitVec.ofNat 64 (2 ^ j)) = none := by
  have hlt : ∀ {i}, i < 64 → BitVec.ofNat 64 (2 ^ i) < capacity := fun hi =>
    (two_pow_lt_iff hi).mpr
      ((Nat.pow_le_pow_right Nat.two_pos (Nat.le_of_lt_succ hi)).trans_lt hc)
  induction fuel generalizing j with
  | zero => rw [roundCapacity, if_pos (hlt hj)]
  | succ fuel ih =>
    rw [roundCapacity, if_pos (hlt hj), shiftLeft_two_pow]
    rcases Nat.lt_or_eq_of_le (show j + 1 ≤ 64 from hj) with hj' | hj'
    · exact ih hj'
    · -- the bit is shifted out
      have hzero : BitVec.ofNat 64 (2 ^ (j + 1)) = 0 := by rw [hj']; rfl
      rw [hzero, roundCapacity_zero (BitVec.lt_def.mpr ((Nat.zero_le _).trans_lt hc))]

theorem not_roundsUp_of_gt (hc : 2 ^ 63 < capacity.toNat) : ¬ RoundsUp capacity := by
  rintro ⟨fuel, q, hnew, -⟩
  have hnone : new fuel capacity = none :=
    congrArg (Option.map init) (roundCapacity_of_gt hc fuel (Nat.zero_lt_succ 63))
  exact absurd (hnone.symm.trans hnew) (Option.some_ne_none q).symm

/-- **Which capacities are rounded up**: those up to `2 ^ 63`. -/
theorem roundsUp_iff : RoundsUp capacity ↔ capacity.toNat ≤ 2 ^ 63 :=
  ⟨fun h => not_lt.mp fun hc => not_roundsUp_of_gt hc h, roundsUp_of_le⟩

/-- A capacity just above half of the range is never reached. -/
theorem not_forall_roundsUp : ¬ ∀ capacity : SizeT, RoundsUp capacity := fun h =>
  not_roundsUp_of_gt (by decide) (h 0x8000000000000001)

end LockFreeQueue

end BioShield
